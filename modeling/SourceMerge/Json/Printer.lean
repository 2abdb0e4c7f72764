import SourceMerge.Data

/-!
# SourceMerge.Json.Printer

JSON in its densest form: no blanks, members in the order of the mapping, and
ASCII only.  A character above U+FFFF is written as two escapes, one for each
of its UTF-16 units.
-/

namespace SourceMerge.Json

/-- A UTF-16 unit as an escape with four lower-case digits. -/
def unitEscape (n : Nat) : Text := '\\' :: 'u' :: Text.hex 4 n

/-- One character inside a JSON string. -/
def escapeChar (c : Char) : Text :=
  if c = '"' then ['\\', '"']
  else if c = '\\' then ['\\', '\\']
  else if c = '\n' then ['\\', 'n']
  else if c = '\r' then ['\\', 'r']
  else if c = '\t' then ['\\', 't']
  else if c.toNat = 8 then ['\\', 'b']
  else if c.toNat = 12 then ['\\', 'f']
  else if 0x20 ≤ c.toNat ∧ c.toNat < 0x7F then [c]
  else if c.toNat < 0x10000 then unitEscape c.toNat
  else
    let n := c.toNat - 0x10000
    unitEscape (0xD800 + n / 0x400) ++ unitEscape (0xDC00 + n % 0x400)

/-- A text as a JSON string. -/
def renderText (t : Text) : Text := '"' :: t.flatMap escapeChar ++ ['"']

/-- The text of a number that is not finite. -/
def renderFloat (x : Float) : Text :=
  if x.isNaN then "NaN"
  else if x.isInf then (if x < 0.0 then "-Infinity" else "Infinity")
  else Decimal.ofFloat x

/-- The key of a member; a scalar that is no text is written as it is elsewhere,
in quotes. -/
def renderKey : Data → Text
  | .text t => renderText t
  | .null => renderText "null"
  | .bool b => renderText (if b then "true" else "false")
  | d => renderText d.display

mutual

/-- A value as JSON. -/
def render : Data → Text
  | .null => "null"
  | .bool true => "true"
  | .bool false => "false"
  | .int n => Text.ofInt n
  | .float x => renderFloat x
  | .text t => renderText t
  | .list items => '[' :: renderItems items ++ [']']
  | .map entries => '\x7b' :: renderMembers entries ++ ['\x7d']
  | .other v => renderText v.display

/-- The items of a list between commas. -/
def renderItems : List Data → Text
  | [] => []
  | [d] => render d
  | d :: rest => render d ++ ',' :: renderItems rest

/-- The members of an object between commas. -/
def renderMembers : List (Data × Data) → Text
  | [] => []
  | [e] => renderMember e
  | e :: rest => renderMember e ++ ',' :: renderMembers rest

/-- A member: its key, a colon and its value. -/
def renderMember : Data × Data → Text
  | (k, v) => renderKey k ++ ':' :: render v

end

end SourceMerge.Json
