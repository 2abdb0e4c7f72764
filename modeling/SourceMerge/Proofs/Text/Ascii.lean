import SourceMerge.Text.Utf8

/-!
# SourceMerge.Proofs.Text.Ascii

Texts of visible ASCII characters and spaces.  Each of their characters is one
byte, and the byte of the same number is one character, so UTF-8 carries such a
text as it is.
-/

namespace SourceMerge.Text

/-- All characters are ASCII, and none of them controls anything. -/
def Visible (t : Text) : Prop := ∀ c ∈ t, 0x20 ≤ c.toNat ∧ c.toNat < 0x7F

instance (t : Text) : Decidable (Visible t) := List.decidableBAll _ t

theorem visible_nil : Visible [] := by simp [Visible]

theorem visible_cons {c : Char} {t : Text} :
    Visible (c :: t) ↔ (0x20 ≤ c.toNat ∧ c.toNat < 0x7F) ∧ Visible t := List.forall_mem_cons

theorem visible_append {s t : Text} : Visible (s ++ t) ↔ Visible s ∧ Visible t :=
  List.forall_mem_append

theorem visible_flatMap {α : Type} {f : α → Text} {l : List α} (h : ∀ a ∈ l, Visible (f a)) :
    Visible (l.flatMap f) := by
  intro c hc
  obtain ⟨a, ha, hca⟩ := List.mem_flatMap.mp hc
  exact h a ha c hca

theorem Visible.subset {s t : Text} (h : Visible t) (hs : s ⊆ t) : Visible s :=
  fun c hc => h c (hs hc)

theorem visible_replicate (n : Nat) {c : Char} (h : 0x20 ≤ c.toNat ∧ c.toNat < 0x7F) :
    Visible (List.replicate n c) := fun d hd => by rw [List.eq_of_mem_replicate hd]; exact h

theorem utf8Char_of_lt {c : Char} (h : c.toNat < 0x80) : utf8Char c = [c.toNat.toUInt8] :=
  if_pos h

/-- A byte below 128 is read as the character of its number. -/
theorem ofUtf8?_cons_of_lt {c : Char} (h : c.toNat < 0x80) (rest : List UInt8) :
    ofUtf8? (c.toNat.toUInt8 :: rest) = (ofUtf8? rest).map (c :: ·) := by
  have hbyte : c.toNat.toUInt8.toNat = c.toNat :=
    UInt8.toNat_ofNat_of_lt (show c.toNat < 256 by omega)
  have hlt : c.toNat.toUInt8.toNat < 0x80 := by rwa [hbyte]
  -- Only the first case is needed, and the equation of the whole definition is large.
  delta ofUtf8?
  refine (if_pos hlt).trans ?_
  rw [hbyte, Char.ofNat_toNat]

/-- **UTF-8 carries ASCII.** -/
theorem ofUtf8?_toUtf8 {t : Text} (h : Visible t) : ofUtf8? (toUtf8 t) = some t := by
  induction t with
  | nil => rfl
  | cons c t ih =>
      obtain ⟨hc, ht⟩ := visible_cons.mp h
      have hlt : c.toNat < 0x80 := by omega
      have htail : ofUtf8? (t.flatMap utf8Char) = some t := ih ht
      rw [toUtf8, List.flatMap_cons, utf8Char_of_lt hlt, List.singleton_append,
        ofUtf8?_cons_of_lt hlt, htail, Option.map_some]

end SourceMerge.Text
