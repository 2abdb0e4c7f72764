import SourceMerge.Text
import SourceMerge.Text.Quoted
import SourceMerge.Base64

/-!
# SourceMerge.Mapping.Quantity

Variable-length quantities in Base64 digits.  An integer is first folded into a
natural number whose lowest bit is the sign; then come its groups of five bits,
the lowest group first, each in one digit whose sixth bit says that another
digit follows.  Quantities therefore need no separators between them.
-/

namespace SourceMerge.Mapping

/-- Why a text is no sequence of quantities. -/
inductive QuantityFault where
  | invalidDigit (c : Char)
  | truncated

/-- The wording of the fault. -/
def QuantityFault.message : QuantityFault → Text
  | .invalidDigit c => "Invalid Base64 VLQ character " ++ Text.quoted [c]
  | .truncated => "Truncated Base64 VLQ sequence"

namespace Quantity

/-! ## Sign folding -/

/-- The magnitude doubled, plus one for a negative integer. -/
def fold (v : Int) : Nat := if v < 0 then 2 * v.natAbs + 1 else 2 * v.natAbs

/-- The integer that a folded number stands for. -/
def unfold (n : Nat) : Int := if n % 2 = 1 then -((n / 2 : Nat) : Int) else ((n / 2 : Nat) : Int)

theorem unfold_fold (v : Int) : unfold (fold v) = v := by
  unfold Quantity.unfold fold
  split <;> split <;> omega

/-! ## Digits -/

/-- The groups of a natural number as digits, the lowest first. -/
def digits (n : Nat) : Text :=
  if h : n < 32 then [Base64.digit n]
  else Base64.digit (n % 32 + 32) :: digits (n / 32)
termination_by n

/-- An integer as digits. -/
def encode (v : Int) : Text := digits (fold v)

/-- Reads quantities; the current one has gathered `sum`, and its next group
counts `weight`-fold. -/
def decodeFrom (sum weight : Nat) : Text → Except QuantityFault (List Int)
  | [] => if weight = 1 then .ok [] else .error .truncated
  | c :: rest =>
    match Base64.value? c with
    | none => .error (.invalidDigit c)
    | some d =>
      let sum := sum + d % 32 * weight
      if 32 ≤ d then decodeFrom sum (weight * 32) rest
      else (decodeFrom 0 1 rest).map (unfold sum :: ·)

/-- The integers that a text of digits spells. -/
def decode (t : Text) : Except QuantityFault (List Int) := decodeFrom 0 1 t

end Quantity

end SourceMerge.Mapping
