import SourceMerge.Text

/-!
# SourceMerge.Base64

The Base64 alphabet and the two ways it is used: one digit at a time by the
variable-length quantities of a mapping string, and three bytes at a time by
`data:` URIs.  Writing pads the last group; reading skips characters outside
the alphabet, stops at complete padding and refuses an incomplete last group.
-/

namespace SourceMerge.Base64

/-- The sixty-four digits in the order of their values. -/
def alphabet : Text :=
  "ABCDEFGHIJKLMNOPQRSTUVWXYZabcdefghijklmnopqrstuvwxyz0123456789+/"

/-- The digit of a value below sixty-four. -/
def digit (n : Nat) : Char := alphabet.getD n 'A'

/-- The value of a digit. -/
def value? (c : Char) : Option Nat :=
  if 'A' ≤ c ∧ c ≤ 'Z' then some (c.toNat - 'A'.toNat)
  else if 'a' ≤ c ∧ c ≤ 'z' then some (c.toNat - 'a'.toNat + 26)
  else if '0' ≤ c ∧ c ≤ '9' then some (c.toNat - '0'.toNat + 52)
  else if c = '+' then some 62
  else if c = '/' then some 63
  else none

/-- A value has a digit and the digit has that value. -/
theorem value?_digit {n : Nat} (h : n < 64) : value? (digit n) = some n :=
  (by decide +kernel : ∀ n < 64, value? (digit n) = some n) n h

/-! ## Bytes -/

/-- Three bytes make four digits; a shorter last group is padded. -/
def encode : List UInt8 → Text
  | [] => []
  | [a] =>
    let n := a.toNat
    [digit (n / 4), digit (n % 4 * 16), '=', '=']
  | [a, b] =>
    let n := a.toNat * 256 + b.toNat
    [digit (n / 1024), digit (n / 16 % 64), digit (n % 16 * 4), '=']
  | a :: b :: c :: rest =>
    let n := a.toNat * 65536 + b.toNat * 256 + c.toNat
    digit (n / 262144) :: digit (n / 4096 % 64) :: digit (n / 64 % 64) :: digit (n % 64) ::
      encode rest

/-- How far a group of four digits has been read: the bits left over from its
digits so far. -/
inductive Group where
  | empty
  | one (bits : Nat)
  | two (bits : Nat)
  | three (bits : Nat)

/-- Reads digits, with `pads` padding characters seen since the last digit. -/
def decodeFrom (group : Group) (pads : Nat) : Text → Option (List UInt8)
  | [] =>
    match group with
    | .empty => some []
    | _ => none
  | c :: rest =>
    if c = '=' then
      match group with
      | .two bits => if 1 ≤ pads then some [] else decodeFrom (.two bits) (pads + 1) rest
      | .three _ => some []
      | .empty => decodeFrom .empty pads rest
      | .one bits => decodeFrom (.one bits) pads rest
    else
      match value? c with
      | none => decodeFrom group pads rest
      | some v =>
        match group with
        | .empty => decodeFrom (.one v) 0 rest
        | .one bits => (decodeFrom (.two (v % 16)) 0 rest).map ((bits * 4 + v / 16).toUInt8 :: ·)
        | .two bits => (decodeFrom (.three (v % 4)) 0 rest).map ((bits * 16 + v / 4).toUInt8 :: ·)
        | .three bits => (decodeFrom .empty 0 rest).map ((bits * 64 + v).toUInt8 :: ·)

/-- The bytes that a text of digits stands for; a character beyond ASCII is
refused. -/
def decode? (t : Text) : Option (List UInt8) :=
  if t.all (·.toNat < 0x80) then decodeFrom .empty 0 t else none

end SourceMerge.Base64
