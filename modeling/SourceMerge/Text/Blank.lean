import SourceMerge.Text

/-!
# SourceMerge.Text.Blank

White space.  A character is blank if it has the Unicode property of that name
or is one of the four information separators U+001C to U+001F; the zero width
space and the byte order mark are not blank.
-/

namespace SourceMerge.Text

/-- Whether a character is white space. -/
def isBlank (c : Char) : Bool :=
  let n := c.toNat
  (9 ≤ n && n ≤ 13) || (28 ≤ n && n ≤ 32) || n == 0x85 || n == 0xA0 || n == 0x1680 ||
    (0x2000 ≤ n && n ≤ 0x200A) || n == 0x2028 || n == 0x2029 || n == 0x202F || n == 0x205F ||
    n == 0x3000

/-- A text without the white space at its end. -/
def trimEnd (t : Text) : Text := trimEndWhile isBlank t

/-- A text without the white space at its beginning. -/
def trimStart (t : Text) : Text := t.dropWhile isBlank

/-- A text without the white space at both ends. -/
def trim (t : Text) : Text := trimWhile isBlank t

end SourceMerge.Text
