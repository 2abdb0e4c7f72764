import SourceMerge.Text

/-!
# SourceMerge.Text.Utf8

Texts and bytes.  UTF-8 is read strictly: no overlong form, no surrogate,
nothing above U+10FFFF and no stray byte.  Latin-1 reads every byte as the code
point of that number.  Reading a file also turns both other line endings into
line feeds and drops one byte order mark.
-/

namespace SourceMerge.Text

/-! ## UTF-8 -/

/-- The bytes of one code point: one, two, three or four by its size. -/
def utf8Char (c : Char) : List UInt8 :=
  let n := c.toNat
  if n < 0x80 then [n.toUInt8]
  else if n < 0x800 then [(0xC0 + n / 0x40).toUInt8, (0x80 + n % 0x40).toUInt8]
  else if n < 0x10000 then
    [(0xE0 + n / 0x1000).toUInt8, (0x80 + n / 0x40 % 0x40).toUInt8, (0x80 + n % 0x40).toUInt8]
  else
    [(0xF0 + n / 0x40000).toUInt8, (0x80 + n / 0x1000 % 0x40).toUInt8,
      (0x80 + n / 0x40 % 0x40).toUInt8, (0x80 + n % 0x40).toUInt8]

/-- The UTF-8 bytes of a text. -/
def toUtf8 (t : Text) : List UInt8 := t.flatMap utf8Char

/-- The six low bits of a continuation byte. -/
private def continuation? (b : UInt8) : Option Nat :=
  if 0x80 ≤ b.toNat ∧ b.toNat < 0xC0 then some (b.toNat - 0x80) else none

/-- The character of a code point that has at least the size `least` and is no
surrogate. -/
private def scalar? (least n : Nat) : Option Char :=
  if least ≤ n ∧ n.isValidChar then some (Char.ofNat n) else none

/-- The text that bytes spell in UTF-8, if they spell one. -/
def ofUtf8? : List UInt8 → Option Text
  | [] => some []
  | a :: rest =>
    if a.toNat < 0x80 then (ofUtf8? rest).map (Char.ofNat a.toNat :: ·)
    else
      match rest with
      | [] => none
      | b :: rest =>
        match continuation? b with
        | none => none
        | some y =>
          if 0xC0 ≤ a.toNat ∧ a.toNat < 0xE0 then
            match scalar? 0x80 ((a.toNat - 0xC0) * 0x40 + y), ofUtf8? rest with
            | some c, some t => some (c :: t)
            | _, _ => none
          else
            match rest with
            | [] => none
            | c :: rest =>
              match continuation? c with
              | none => none
              | some z =>
                if 0xE0 ≤ a.toNat ∧ a.toNat < 0xF0 then
                  match scalar? 0x800 ((a.toNat - 0xE0) * 0x1000 + y * 0x40 + z), ofUtf8? rest with
                  | some c, some t => some (c :: t)
                  | _, _ => none
                else
                  match rest with
                  | [] => none
                  | d :: rest =>
                    match continuation? d with
                    | none => none
                    | some w =>
                      if 0xF0 ≤ a.toNat ∧ a.toNat < 0xF8 then
                        match scalar? 0x10000
                            ((a.toNat - 0xF0) * 0x40000 + y * 0x1000 + z * 0x40 + w),
                          ofUtf8? rest with
                        | some c, some t => some (c :: t)
                        | _, _ => none
                      else none

/-! ## Latin-1 -/

/-- Every byte as the code point of that number. -/
def ofLatin1 (bytes : List UInt8) : Text := bytes.map fun b => Char.ofNat b.toNat

/-- The bytes of a text that has no code point above U+00FF. -/
def toLatin1? (t : Text) : Option (List UInt8) :=
  t.mapM fun c => if c.toNat < 0x100 then some c.toNat.toUInt8 else none

/-! ## Line endings and the mark -/

/-- Carriage returns, alone or before a line feed, become line feeds. -/
def unifyNewlines : Text → Text
  | [] => []
  | '\r' :: '\n' :: rest => '\n' :: unifyNewlines rest
  | c :: rest => (if c = '\r' then '\n' else c) :: unifyNewlines rest

/-- The byte order mark. -/
def byteOrderMark : Char := Char.ofNat 0xFEFF

/-- A text without one byte order mark at its beginning. -/
def dropMark : Text → Text
  | [] => []
  | c :: rest => if c = byteOrderMark then rest else c :: rest

end SourceMerge.Text
