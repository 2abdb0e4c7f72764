import SourceMerge.Data

/-!
# SourceMerge.Json.Parser

Reading JSON.  Blanks are space, tab, line feed and carriage return.  A number
with a point or an exponent is a floating-point number, any other an integer;
`NaN` and the two infinities are accepted.  Of members with the same key the
last one counts, at the place of the first.  A text that begins with a byte
order mark is no JSON.
-/

namespace SourceMerge.Json

/-- Drops blanks. -/
def skipBlanks (t : Text) : Text :=
  t.dropWhile fun c => c == ' ' || c == '\t' || c == '\n' || c == '\r'

/-! ## Strings -/

/-- The number that four hexadecimal digits denote, and what follows. -/
def hexUnit? : Text → Option (Nat × Text)
  | a :: b :: c :: d :: rest =>
    match Text.hexValue? a, Text.hexValue? b, Text.hexValue? c, Text.hexValue? d with
    | some x, some y, some z, some w => some (x * 4096 + y * 256 + z * 16 + w, rest)
    | _, _, _, _ => none
  | _ => none

/-- The character of a UTF-16 unit; a surrogate that stands alone, which no text
holds, becomes the replacement character. -/
def unitChar (n : Nat) : Char :=
  if n.isValidChar then Char.ofNat n else Char.ofNat 0xFFFD

/-- The character that the letter of a short escape stands for. -/
def shortEscape? : Char → Option Char
  | '"' => some '"'
  | '\\' => some '\\'
  | '/' => some '/'
  | 'b' => some (Char.ofNat 8)
  | 'f' => some (Char.ofNat 12)
  | 'n' => some '\n'
  | 'r' => some '\r'
  | 't' => some '\t'
  | _ => none

/-- What an escape stands for, and the text after it; `t` begins after the
backslash.  A high surrogate takes a following low one with it. -/
def escape? (t : Text) : Option (Char × Text) :=
  match t with
  | 'u' :: rest =>
    match hexUnit? rest with
    | none => none
    | some (high, rest) =>
      if 0xD800 ≤ high ∧ high < 0xDC00 then
        match rest with
        | '\\' :: 'u' :: low =>
          match hexUnit? low with
          | some (low, after) =>
            if 0xDC00 ≤ low ∧ low < 0xE000 then
              some (Char.ofNat (0x10000 + (high - 0xD800) * 0x400 + (low - 0xDC00)), after)
            else some (unitChar high, rest)
          | none => some (unitChar high, rest)
        | _ => some (unitChar high, rest)
      else some (unitChar high, rest)
  | c :: rest => (shortEscape? c).map (·, rest)
  | [] => none

/-- The characters up to the closing quote, and what follows it. -/
def stringBody? : Nat → Text → Option (Text × Text)
  | 0, _ => none
  | fuel + 1, t =>
    match t with
    | [] => none
    | '"' :: rest => some ([], rest)
    | '\\' :: rest =>
      match escape? rest with
      | none => none
      | some (c, rest) => (stringBody? fuel rest).map fun (body, after) => (c :: body, after)
    | c :: rest =>
      if c.toNat < 0x20 then none
      else (stringBody? fuel rest).map fun (body, after) => (c :: body, after)

/-- A string whose opening quote has been read. -/
def string? (t : Text) : Option (Text × Text) := stringBody? (t.length + 1) t

/-! ## Numbers -/

/-- The digits at the beginning and what follows them. -/
def digits (t : Text) : Text × Text := (t.takeWhile Char.isDigit, t.dropWhile Char.isDigit)

/-- The fraction digits at the beginning: a point and at least one digit. -/
def fraction? : Text → Option (Text × Text)
  | '.' :: rest =>
    match digits rest with
    | ([], _) => none
    | found => some found
  | _ => none

/-- The exponent at the beginning: its letter, perhaps a sign, and digits. -/
def exponent? : Text → Option (Int × Text)
  | c :: rest =>
    if c = 'e' ∨ c = 'E' then
      let (negative, rest) :=
        match rest with
        | '-' :: rest => (true, rest)
        | '+' :: rest => (false, rest)
        | rest => (false, rest)
      match digits rest with
      | ([], _) => none
      | (ds, after) =>
        let n : Int := Text.numeral 10 ds
        some (if negative then -n else n, after)
    else none
  | [] => none

/-- The number at the beginning of a text, whose sign has been read. -/
def unsigned? (negative : Bool) (t : Text) : Option (Data × Text) :=
  let whole :=
    match t with
    | '0' :: rest => some (['0'], rest)
    | _ =>
      match digits t with
      | ([], _) => none
      | found => some found
  match whole with
  | none => none
  | some (ds, rest) =>
    let (fractional, afterFraction) := (fraction? rest).getD ([], rest)
    let (power, afterExponent) := (exponent? afterFraction).getD (0, afterFraction)
    if afterExponent.length = rest.length then
      if ds.length ≤ maxIntegerDigits then
        let n : Int := Text.numeral 10 ds
        some (.int (if negative then -n else n), rest)
      else none
    else
      let x := Decimal.toFloat (Text.numeral 10 (ds ++ fractional)) (power - fractional.length)
      some (.float (if negative then -x else x), afterExponent)

/-! ## Values -/

/-- A word that stands for a value, and what follows it. -/
def word? (t : Text) : Option (Data × Text) :=
  let words : List (Text × Data) :=
    [("null", .null), ("true", .bool true), ("false", .bool false),
      ("NaN", .float (0.0 / 0.0)), ("Infinity", .float (1.0 / 0.0)),
      ("-Infinity", .float (-1.0 / 0.0))]
  words.findSome? fun (w, d) => (Text.dropStart? w t).map (d, ·)

mutual

/-- The value at the beginning of a text, which begins with no blank. -/
def value? : Nat → Text → Option (Data × Text)
  | 0, _ => none
  | fuel + 1, t =>
    match t with
    | '"' :: rest => (string? rest).map fun (s, after) => (.text s, after)
    | '[' :: rest =>
      match skipBlanks rest with
      | ']' :: after => some (.list [], after)
      | rest => (items? fuel rest).map fun (ds, after) => (.list ds, after)
    | '\x7b' :: rest =>
      match skipBlanks rest with
      | '\x7d' :: after => some (.map [], after)
      | rest => (members? fuel rest).map fun (es, after) => (.map (Entries.ofList es), after)
    | '-' :: rest =>
      match word? t with
      | some found => some found
      | none => unsigned? true rest
    | _ =>
      match word? t with
      | some found => some found
      | none => unsigned? false t

/-- One item and those after it, up to the closing bracket. -/
def items? : Nat → Text → Option (List Data × Text)
  | 0, _ => none
  | fuel + 1, t =>
    match value? fuel t with
    | none => none
    | some (d, rest) =>
      match skipBlanks rest with
      | ']' :: after => some ([d], after)
      | ',' :: rest => (items? fuel (skipBlanks rest)).map fun (ds, after) => (d :: ds, after)
      | _ => none

/-- One member and those after it, up to the closing brace. -/
def members? : Nat → Text → Option (List (Data × Data) × Text)
  | 0, _ => none
  | fuel + 1, t =>
    match t with
    | '"' :: rest =>
      match string? rest with
      | none => none
      | some (key, rest) =>
        match skipBlanks rest with
        | ':' :: rest =>
          match value? fuel (skipBlanks rest) with
          | none => none
          | some (d, rest) =>
            match skipBlanks rest with
            | '\x7d' :: after => some ([(.text key, d)], after)
            | ',' :: rest =>
              (members? fuel (skipBlanks rest)).map fun (es, after) =>
                ((.text key, d) :: es, after)
            | _ => none
        | _ => none
    | _ => none

end

/-- The value that a whole text denotes.  Every step of the reader takes at
least one character or opens an item, so the fuel never runs out first. -/
def parse? (t : Text) : Option Data :=
  match value? (2 * t.length + 2) (skipBlanks t) with
  | none => none
  | some (d, rest) => if skipBlanks rest = [] then some d else none

end SourceMerge.Json
