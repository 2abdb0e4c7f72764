import SourceMerge.Proofs.Mapping.RoundTrip

/-!
# SourceMerge.Proofs.Mapping.Shortest

Integers one after another come apart again, and are written as shortly as can be.
Reading takes more than writing makes: zero has a negative form, and a quantity may
go on with digits that add nothing.  None of these is shorter:

```
spelled by k + 1 digits:   n < 32 ^ (k + 1)
written with k + 1 digits: every n < 32 ^ (k + 1), if not with fewer
```

The reader gathers a quantity in `sum`, and `weight` tells how many digits it has
taken so far.  The bound is therefore proved of the reader in the middle of a
quantity, with those digits counted in (`length_flatMap_encode_le`).
-/

namespace SourceMerge.Mapping.Quantity

/-! ## how long a quantity is -/

/-- Five bits go into a digit. -/
theorem length_digits_le {n k : Nat} (h : n < 32 ^ (k + 1)) : (digits n).length ≤ k + 1 := by
  induction k generalizing n with
  | zero =>
      rw [digits, dif_pos (by simpa using h)]
      simp
  | succ k ih =>
      rw [digits]
      split
      · simp
      · have hrest : n / 32 < 32 ^ (k + 1) := by
          rw [Nat.div_lt_iff_lt_mul (by omega), ← Nat.pow_succ]
          exact h
        simpa using ih hrest

/-- Of the two forms of zero the smaller one is written; any other integer has one
form. -/
theorem fold_unfold_le (n : Nat) : fold (unfold n) ≤ n := by
  unfold fold Quantity.unfold
  split <;> split <;> omega

theorem length_encode_unfold_le {n k : Nat} (h : n < 32 ^ (k + 1)) :
    (encode (unfold n)).length ≤ k + 1 :=
  length_digits_le (Nat.lt_of_le_of_lt (fold_unfold_le n) h)

/-- One more digit keeps what was gathered within its bits. -/
theorem add_digit_lt {sum d k : Nat} (hsum : sum < 32 ^ k) (hd : d < 32) :
    sum + d * 32 ^ k < 32 ^ (k + 1) := by
  have hdigit : d * 32 ^ k ≤ 31 * 32 ^ k := Nat.mul_le_mul_right _ (by omega)
  rw [Nat.pow_succ]
  omega

/-- What is read after `k` digits of a quantity is not longer in writing than what it
was read from, those digits included. -/
theorem length_flatMap_encode_le {t : Text} {sum k : Nat} {vs : List Int} (hsum : sum < 32 ^ k)
    (h : decodeFrom sum (32 ^ k) t = .ok vs) : (vs.flatMap encode).length ≤ t.length + k := by
  induction t generalizing sum k vs with
  | nil =>
      rw [decodeFrom] at h
      split at h
      · cases h
        simp
      · cases h
  | cons c rest ih =>
      obtain ⟨d, -, hmore | ⟨more, hrest, rfl⟩⟩ := exists_of_decodeFrom_cons h
      · rw [← Nat.pow_succ] at hmore
        have hlength := ih (add_digit_lt hsum (Nat.mod_lt d (by omega))) hmore
        rw [List.length_cons]
        omega
      · have hfirst := length_encode_unfold_le (add_digit_lt hsum (Nat.mod_lt d (by omega)))
        have hlength := ih (k := 0) (by simp) hrest
        rw [List.flatMap_cons, List.length_append, List.length_cons]
        omega

/-! ## quantities one after another -/

theorem decode_flatMap_encode (vs : List Int) : decode (vs.flatMap encode) = .ok vs := by
  induction vs with
  | nil => rfl
  | cons v vs ih => rw [List.flatMap_cons, decode_encode_append, ih]; rfl

/-- **Integers are read back from their concatenation**, whatever their number, size
and sign, and no text that spells the same integers is shorter than it; in particular
nothing shorter than what is written for an integer spells it. -/
theorem decode_encode_shortest :
    (∀ vs : List Int, decode (vs.flatMap encode) = .ok vs ∧
      ∀ t, decode t = .ok vs → (vs.flatMap encode).length ≤ t.length) ∧
    ∀ (v : Int) (t : Text), t.length < (encode v).length → decode t ≠ .ok [v] := by
  have hshortest : ∀ vs t, decode t = .ok vs → (vs.flatMap encode).length ≤ t.length :=
    fun vs t h => length_flatMap_encode_le (k := 0) (by simp) h
  refine ⟨fun vs => ⟨decode_flatMap_encode vs, hshortest vs⟩, fun v t hless h => ?_⟩
  have hle := hshortest [v] t h
  rw [List.flatMap_singleton] at hle
  omega

/-- Forms that are read but never written: a zero with three digits, and the negative
zero. -/
theorem decode_encode_shortest_padded :
    decode "ggAhBB" = .ok [0, -16, 0] ∧
      ([0, -16, 0].flatMap encode).length ≤ ("ggAhBB" : Text).length := by
  have hread : decode "ggAhBB" = .ok [0, -16, 0] := by cbv
  exact ⟨hread, (decode_encode_shortest.1 _).2 _ hread⟩

end SourceMerge.Mapping.Quantity
