import SourceMerge.Proofs.Path.Way

/-!
# SourceMerge.Proofs.Path.Resolved

Paths that are settled for good: they start at a root and are their own normal form
(`Resolved`), so that neither a working directory nor a spelling counts any more.
Configured paths are of this kind if the directory that they are seen from starts at a
root, and so is the directory of a located file.
-/

namespace SourceMerge.Path

/-- An absolute path in normal form. -/
structure Resolved (p : Text) : Prop where
  absolute : isAbsolute p = true
  canonical : Path.canonical p = p

theorem isAbsolute_canonical (p : Text) : isAbsolute (canonical p) = isAbsolute p := by
  rw [Bool.eq_iff_iff, isAbsolute_iff, isAbsolute_iff, head?_canonical]

theorem resolved_canonical {p : Text} (h : isAbsolute p = true) : Resolved (canonical p) :=
  ⟨(isAbsolute_canonical p).trans h, canonical_canonical p⟩

/-- **Configured paths are resolved.** -/
theorem resolved_anchored {base : Text} (h : isAbsolute base = true) (p : Text) :
    Resolved (anchored (some base) p) := by
  refine resolved_canonical ?_
  split
  · next hp => exact hp
  · exact isAbsolute_iff.mpr (head?_join h)

/-- Settled components below a root are written as a resolved path. -/
theorem resolved_write {a : Anchor} (ha : a ≠ .relative) {parts : List Text}
    (h : Settled a parts.reverse) : Resolved (write a parts) := by
  obtain ⟨hanchor, hparts⟩ := read_write h
  refine ⟨isAbsolute_iff.mpr (anchorOf_ne_relative.mp (by rwa [hanchor])), ?_⟩
  rw [canonical, hanchor, hparts]

/-! ## directories -/

/-- Components are joined to a text that does not end with a slash. -/
theorem trimEndWhile_joinWith {parts : List Text} (h : ∀ c ∈ parts, c ≠ [] ∧ '/' ∉ c)
    (start : Text) (hne : parts ≠ []) :
    Text.trimEndWhile (· == '/') (start ++ Text.joinWith ['/'] parts) =
      start ++ Text.joinWith ['/'] parts := by
  obtain ⟨before, c, d, hjoin, hd⟩ : ∃ before c d,
      Text.joinWith ['/'] parts = before ++ (c ++ [d]) ∧ d ≠ '/' := by
    obtain ⟨front, last, rfl⟩ := List.eq_nil_or_concat parts |>.resolve_left hne
    rw [List.concat_eq_append] at h ⊢
    obtain ⟨hlast, hslash⟩ := h last (by simp)
    obtain ⟨c, d, rfl⟩ := List.eq_nil_or_concat last |>.resolve_left hlast
    rw [List.concat_eq_append] at hslash ⊢
    have hd : d ≠ '/' := fun heq => hslash (by simp [heq])
    by_cases hfront : front = []
    · exact ⟨[], c, d, by simp [hfront, Text.joinWith], hd⟩
    · exact ⟨Text.joinWith ['/'] front ++ ['/'], c, d, by simp [Text.joinWith_concat ['/'] hfront], hd⟩
  have hkept : ((d == '/') = false) := beq_eq_false_iff_ne.mpr hd
  rw [hjoin, ← List.append_assoc, ← List.append_assoc, Text.trimEndWhile_concat, hkept]
  rfl

/-- The directory of a path with a name at its end is written without the name. -/
theorem directory_write {parts : List Text} (h : ∀ c ∈ parts, c ≠ [] ∧ '/' ∉ c) {name : Text}
    (hname : '/' ∉ name) :
    directory (write .absolute (parts ++ [name])) = write .absolute parts := by
  by_cases hne : parts = []
  · -- Directly below the root nothing but the slash of the root is left.
    subst hne
    exact (directory_append hname ['/']).trans (by decide)
  · have hwrite : write .absolute (parts ++ [name]) =
        write .absolute parts ++ ['/'] ++ name := by
      simp [write, Anchor.slashes, Text.joinWith_concat ['/'] hne]
    obtain ⟨c, t, hjoin, hc⟩ := joinWith_eq_cons hne h
    have hall : (write .absolute parts ++ ['/']).all (· == '/') = false := by
      simp [write, Anchor.slashes, hjoin, hc]
    rw [hwrite, directory_append hname, directory, splitLast_slash]
    simp only [hall]
    rw [if_neg (by simp), Text.trimEndWhile_concat, if_pos (by simp)]
    exact trimEndWhile_joinWith h ['/'] hne

/-- **The directory of a located file is resolved.** -/
theorem resolved_directory_located {wd : Text} (hwd : isAbsolute wd = true) (p : Text) :
    Resolved (directory (located wd p)) := by
  have hsettled := settled_components_join hwd p
  have hlocated : located wd p = write .absolute (components (join wd p)) := rfl
  rw [hlocated]
  rcases List.eq_nil_or_concat (components (join wd p)) with hnil | ⟨front, name, hconcat⟩
  · rw [hnil]
    exact ⟨by decide, by decide⟩
  · rw [hconcat, List.concat_eq_append] at hsettled ⊢
    rw [List.reverse_append, List.reverse_singleton, List.singleton_append] at hsettled
    have hplain : ∀ c ∈ front, c ≠ [] ∧ '/' ∉ c := fun c hc =>
      plain_of_settled hsettled c (by simp [hc])
    rw [directory_write hplain hsettled.2.1]
    exact resolved_write (by decide) hsettled.1

end SourceMerge.Path
