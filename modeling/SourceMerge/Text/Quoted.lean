import SourceMerge.Text
import SourceMerge.Text.Printable

/-!
# SourceMerge.Text.Quoted

The quoted form of a text, for messages.  Single quotes surround it unless it
holds single quotes and no double ones.  The surrounding quote and the
backslash are escaped, line feed, carriage return and tab have letters, and
every other character that does not show itself is written by its code point in
two, four or eight hexadecimal digits.
-/

namespace SourceMerge.Text

/-- One character inside quotes of the kind `quote`. -/
def quotedChar (quote c : Char) : Text :=
  if c = quote ∨ c = '\\' then ['\\', c]
  else if c = '\n' then ['\\', 'n']
  else if c = '\r' then ['\\', 'r']
  else if c = '\t' then ['\\', 't']
  else if isPrintable c then [c]
  else if c.toNat < 0x100 then '\\' :: 'x' :: hex 2 c.toNat
  else if c.toNat < 0x10000 then '\\' :: 'u' :: hex 4 c.toNat
  else '\\' :: 'U' :: hex 8 c.toNat

/-- The quote that a text gets: double ones only where that avoids escapes. -/
def quoteFor (t : Text) : Char :=
  if '\'' ∈ t ∧ '"' ∉ t then '"' else '\''

/-- A text in quotes. -/
def quoted (t : Text) : Text :=
  let quote := quoteFor t
  quote :: t.flatMap (quotedChar quote) ++ [quote]

end SourceMerge.Text
