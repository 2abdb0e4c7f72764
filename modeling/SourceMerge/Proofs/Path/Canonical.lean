import SourceMerge.Path
import SourceMerge.Proofs.Text.Split

/-!
# SourceMerge.Proofs.Path.Canonical

The normal form of a path is a normal form: writing it down and reading it again
gives the same anchor and the same components, so `canonical` is idempotent.

The components are gathered on a stack.  A stack is `Settled` if each of its
components was kept when it was pushed; pushing keeps stacks settled, and
pushing the components of a settled stack once more builds the same stack.
-/

namespace SourceMerge.Path

/-- Every component of the stack was kept when it was pushed. -/
def Settled (a : Anchor) : List Text → Prop
  | [] => True
  | c :: done => Settled a done ∧ '/' ∉ c ∧ push a done c = c :: done

theorem settled_push {a : Anchor} {done : List Text} {c : Text} (h : Settled a done)
    (hc : '/' ∉ c) : Settled a (push a done c) := by
  unfold push
  by_cases htrace : c = [] ∨ c = ['.']
  · rwa [if_pos htrace]
  rw [if_neg htrace]
  by_cases hup : c = up
  · subst hup
    rw [if_pos rfl]
    cases done with
    | nil =>
        by_cases ha : a = .relative
        · simp only [ha, if_true]
          exact ⟨trivial, hc, rfl⟩
        · simp only [ha, if_false]
          trivial
    | cons last before =>
        by_cases hlast : last = up
        · simp only [hlast, if_true]
          subst hlast
          exact ⟨h, hc, rfl⟩
        · simp only [hlast, if_false]
          exact h.1
  · rw [if_neg hup]
    refine ⟨h, hc, ?_⟩
    simp only [push, htrace, hup, if_false]

theorem settled_foldl_push {a : Anchor} {cs : List Text} (hcs : ∀ c ∈ cs, '/' ∉ c)
    {done : List Text} (h : Settled a done) : Settled a (cs.foldl (push a) done) := by
  induction cs generalizing done with
  | nil => exact h
  | cons c cs ih =>
      exact ih (fun d hd => hcs d (List.mem_cons_of_mem c hd))
        (settled_push h (hcs c List.mem_cons_self))

/-- Pushing the components of a settled stack builds it again. -/
theorem foldl_push_reverse {a : Anchor} {done : List Text} (h : Settled a done) :
    done.reverse.foldl (push a) [] = done := by
  induction done with
  | nil => rfl
  | cons c done ih =>
      rw [List.reverse_cons, List.foldl_append, ih h.1]
      exact h.2.2

/-- Settled components are written with characters, and without a slash. -/
theorem plain_of_settled {a : Anchor} {done : List Text} (h : Settled a done) :
    ∀ c ∈ done, c ≠ [] ∧ '/' ∉ c := by
  induction done with
  | nil => simp
  | cons d done ih =>
      intro c hc
      rcases List.mem_cons.mp hc with rfl | hrest
      · refine ⟨?_, h.2.1⟩
        rintro rfl
        have hlen := congrArg List.length h.2.2
        simp [push] at hlen
      · exact ih h.1 c hrest

/-- The components of a path make a settled stack. -/
theorem settled_components (p : Text) : Settled (anchorOf p) (components p).reverse := by
  rw [components, List.reverse_reverse]
  exact settled_foldl_push (fun _ => Text.notMem_of_mem_splitOn) trivial

/-! ## reading a written path -/

/-- Empty components leave no trace, so joined components are pushed like
themselves. -/
theorem foldl_push_splitOn_joinWith {a : Anchor} {parts : List Text}
    (h : ∀ c ∈ parts, '/' ∉ c) (done : List Text) :
    (Text.splitOn '/' (Text.joinWith ['/'] parts)).foldl (push a) done =
      parts.foldl (push a) done := by
  cases parts with
  | nil => simp [Text.joinWith, push]
  | cons c parts => rw [Text.splitOn_joinWith (by simp) h]

/-- The first character of joined components is one of the first component. -/
theorem joinWith_eq_cons {parts : List Text} (hne : parts ≠ [])
    (h : ∀ c ∈ parts, c ≠ [] ∧ '/' ∉ c) :
    ∃ c t, Text.joinWith ['/'] parts = c :: t ∧ c ≠ '/' := by
  cases parts with
  | nil => exact absurd rfl hne
  | cons part rest =>
      obtain ⟨hpart, hslash⟩ := h part List.mem_cons_self
      obtain ⟨c, part, rfl⟩ := List.exists_cons_of_ne_nil hpart
      rw [List.mem_cons, not_or] at hslash
      cases rest with
      | nil => exact ⟨c, part, rfl, fun hc => hslash.1 hc.symm⟩
      | cons next rest => exact ⟨c, _, rfl, fun hc => hslash.1 hc.symm⟩

/-- A written path has the anchor and the components that it was written with. -/
theorem read_write {a : Anchor} {parts : List Text} (h : Settled a parts.reverse) :
    anchorOf (write a parts) = a ∧ components (write a parts) = parts := by
  have hplain : ∀ c ∈ parts, c ≠ [] ∧ '/' ∉ c := fun c hc =>
    plain_of_settled h c (List.mem_reverse.mpr hc)
  have hfold : parts.foldl (push a) [] = parts.reverse := by
    simpa using foldl_push_reverse h
  have hsplit := foldl_push_splitOn_joinWith (a := a) (fun c hc => (hplain c hc).2) []
  rw [hfold] at hsplit
  have hhead : parts = [] ∨ ∃ c t, Text.joinWith ['/'] parts = c :: t ∧ c ≠ '/' := by
    by_cases hne : parts = []
    · exact .inl hne
    · exact .inr (joinWith_eq_cons hne hplain)
  cases a with
  | relative =>
      rcases hhead with rfl | ⟨c, t, hjoin, hc⟩
      · exact ⟨rfl, rfl⟩
      · have hw : write .relative parts = c :: t := by simp [write, Anchor.slashes, hjoin]
        have hanchor : anchorOf (c :: t) = .relative := by simp [anchorOf, hc]
        rw [hw, components, hanchor, ← hjoin, hsplit, List.reverse_reverse]
        exact ⟨rfl, rfl⟩
  | absolute =>
      have hw : write .absolute parts = '/' :: Text.joinWith ['/'] parts := rfl
      have hanchor : anchorOf ('/' :: Text.joinWith ['/'] parts) = .absolute := by
        rcases hhead with rfl | ⟨c, t, hjoin, hc⟩
        · rfl
        · simp [hjoin, anchorOf, hc]
      rw [hw, components, hanchor, Text.splitOn_cons_self, List.foldl_cons]
      refine ⟨rfl, ?_⟩
      rw [show push .absolute [] [] = [] from rfl, hsplit, List.reverse_reverse]
  | doubled =>
      have hw : write .doubled parts = '/' :: '/' :: Text.joinWith ['/'] parts := rfl
      have hanchor : anchorOf ('/' :: '/' :: Text.joinWith ['/'] parts) = .doubled := by
        rcases hhead with rfl | ⟨c, t, hjoin, hc⟩
        · rfl
        · simp [hjoin, anchorOf, hc]
      rw [hw, components, hanchor, Text.splitOn_cons_self, Text.splitOn_cons_self,
        List.foldl_cons, List.foldl_cons]
      refine ⟨rfl, ?_⟩
      rw [show push .doubled (push .doubled [] []) [] = [] from rfl, hsplit, List.reverse_reverse]

/-- **A canonical path is canonical.** -/
@[simp] theorem canonical_canonical (p : Text) : canonical (canonical p) = canonical p := by
  obtain ⟨hanchor, hparts⟩ := read_write (settled_components p)
  rw [canonical, canonical, hanchor, hparts]

/-- A canonical path is not empty. -/
theorem canonical_ne_nil (p : Text) : canonical p ≠ [] := by
  unfold canonical write
  split
  · simp
  · next h => exact h

end SourceMerge.Path
