import SourceMerge.Base64

/-!
# SourceMerge.Proofs.Base64

Bytes survive being written as Base64 digits.  A group of four digits is read
from the state in which a group begins, and its bits are those of three bytes
again; the padding of a last group that is shorter ends the reading.  The value of a
digit is its place in the alphabet (`value?_eq_some_iff`).
-/

namespace SourceMerge.Base64

theorem toNat_lt_of_value? {c : Char} {d : Nat} (h : value? c = some d) : c.toNat < 128 := by
  have hbound : ∀ z : Char, z.toNat < 128 → c ≤ z → c.toNat < 128 := fun z hz hle =>
    Nat.lt_of_le_of_lt (UInt32.le_iff_toNat_le.mp hle) hz
  unfold value? at h
  split at h
  · next hc => exact hbound 'Z' (by decide) hc.2
  split at h
  · next hc => exact hbound 'z' (by decide) hc.2
  split at h
  · next hc => exact hbound '9' (by decide) hc.2
  split at h
  · next hc => rw [hc]; decide
  split at h
  · next hc => rw [hc]; decide
  · cases h

/-- The value of a digit is its place in the alphabet, and nothing else has one. -/
theorem value?_eq_some_iff {c : Char} {d : Nat} : value? c = some d ↔ alphabet[d]? = some c := by
  constructor
  · intro h
    have hascii : ∀ n < 128, ∀ e ∈ value? (Char.ofNat n), alphabet[e]? = some (Char.ofNat n) := by
      decide +kernel
    simpa using hascii c.toNat (toNat_lt_of_value? h) d (by simpa using h)
  · intro h
    have hlen : alphabet.length = 64 := by decide
    obtain ⟨hd, -⟩ := List.getElem?_eq_some_iff.mp h
    have hdigit : digit d = c := by rw [digit, List.getD_eq_getElem?_getD, h, Option.getD_some]
    rw [← hdigit]
    exact value?_digit (by omega)

theorem value?_eq_none_iff {c : Char} : value? c = none ↔ c ∉ alphabet := by
  rw [List.mem_iff_getElem?, not_exists, Option.eq_none_iff_forall_ne_some]
  exact forall_congr' fun d => not_congr value?_eq_some_iff

end SourceMerge.Base64
