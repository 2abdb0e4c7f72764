import SourceMerge.Text

/-!
# SourceMerge.Proofs.Text.Split

Splitting undoes joining.  It needs parts that do not hold the separator, and at
least one of them, for an empty text splits into one empty part.  A beginning that
is dropped can always be put back.
-/

namespace SourceMerge.Text

@[simp] theorem splitOn_nil (sep : Char) : splitOn sep [] = [[]] := rfl

@[simp] theorem splitOn_cons_self (sep : Char) (t : Text) :
    splitOn sep (sep :: t) = [] :: splitOn sep t := by
  simp [splitOn]

theorem splitOn_of_notMem {sep : Char} {t : Text} (h : sep ∉ t) : splitOn sep t = [t] := by
  induction t with
  | nil => rfl
  | cons c t ih =>
      rw [List.mem_cons, not_or] at h
      rw [splitOn, if_neg fun hc => h.1 hc.symm, ih h.2]

/-- The first part ends at the first separator. -/
theorem splitOn_append_cons {sep : Char} {part : Text} (h : sep ∉ part) (t : Text) :
    splitOn sep (part ++ sep :: t) = part :: splitOn sep t := by
  induction part with
  | nil => simp
  | cons c part ih =>
      rw [List.mem_cons, not_or] at h
      rw [List.cons_append, splitOn, if_neg fun hc => h.1 hc.symm, ih h.2]

@[simp] theorem joinWith_cons_cons (sep part next : Text) (parts : List Text) :
    joinWith sep (part :: next :: parts) = part ++ sep ++ joinWith sep (next :: parts) := rfl

theorem joinWith_concat (sep : Text) {parts : List Text} (hne : parts ≠ []) (part : Text) :
    joinWith sep (parts ++ [part]) = joinWith sep parts ++ sep ++ part := by
  induction parts with
  | nil => exact absurd rfl hne
  | cons first rest ih =>
      cases rest with
      | nil => rfl
      | cons next rest =>
          have hlater := ih (by simp)
          rw [List.cons_append] at hlater
          rw [List.cons_append, List.cons_append, joinWith_cons_cons, hlater, joinWith_cons_cons]
          simp only [List.append_assoc]

/-- There is one part more than there are separators. -/
theorem length_splitOn (sep : Char) (t : Text) : (splitOn sep t).length = t.count sep + 1 := by
  induction t with
  | nil => rfl
  | cons c t ih =>
      rw [splitOn]
      by_cases hc : c = sep
      · rw [if_pos hc, List.length_cons, ih, hc, List.count_cons_self]
      · rw [if_neg hc, List.count_cons_of_ne hc, ← ih]
        cases hs : splitOn sep t with
        | nil => exact absurd hs (splitOn_ne_nil sep t)
        | cons part parts => rfl

/-- The last part is empty if the text is, or if a separator ends it. -/
theorem getLast?_splitOn_iff {sep : Char} {t : Text} :
    (splitOn sep t).getLast? = some [] ↔ t = [] ∨ t.getLast? = some sep := by
  induction t with
  | nil => simp
  | cons c t ih =>
      obtain ⟨part, parts, hs⟩ := List.exists_cons_of_ne_nil (splitOn_ne_nil sep t)
      rw [splitOn]
      by_cases hc : c = sep
      · rw [if_pos hc, hs, List.getLast?_cons_cons, ← hs, ih, hc]
        cases t with
        | nil => simp
        | cons d t => simp
      · rw [if_neg hc, hs]
        cases parts with
        | nil =>
            -- A single part: there is no separator, so none ends the text.
            have hnone : sep ∉ t := by
              have hlen := length_splitOn sep t
              rw [hs] at hlen
              exact List.count_eq_zero.mp (by simpa using hlen.symm)
            have hlast : (c :: t).getLast? ≠ some sep := fun h =>
              (List.mem_cons.mp (List.mem_of_getLast? h)).elim (fun h => hc h.symm) hnone
            simp [hlast]
        | cons next parts =>
            rw [hs, List.getLast?_cons_cons] at ih
            rw [List.getLast?_cons_cons, ih]
            cases t with
            | nil => simp at hs
            | cons d t => simp

/-- **Splitting undoes joining.** -/
theorem splitOn_joinWith {sep : Char} {parts : List Text} (hne : parts ≠ [])
    (h : ∀ part ∈ parts, sep ∉ part) : splitOn sep (joinWith [sep] parts) = parts := by
  induction parts with
  | nil => exact absurd rfl hne
  | cons part rest ih =>
      cases rest with
      | nil => exact splitOn_of_notMem (h part List.mem_cons_self)
      | cons next rest =>
          have htail := ih (by simp) fun p hp => h p (List.mem_cons_of_mem part hp)
          rw [joinWith_cons_cons, List.append_assoc, List.singleton_append,
            splitOn_append_cons (h part List.mem_cons_self), htail]

/-- Parts do not hold the separator. -/
theorem notMem_of_mem_splitOn {sep : Char} {t part : Text} (h : part ∈ splitOn sep t) :
    sep ∉ part := by
  induction t generalizing part with
  | nil => simp_all
  | cons c t ih =>
      rw [splitOn] at h
      by_cases hc : c = sep
      · rw [if_pos hc] at h
        rcases List.mem_cons.mp h with rfl | hrest
        · exact List.not_mem_nil
        · exact ih hrest
      · rw [if_neg hc] at h
        cases hs : splitOn sep t with
        | nil => exact absurd hs (splitOn_ne_nil sep t)
        | cons first rest =>
            rw [hs] at h ih
            rcases List.mem_cons.mp h with rfl | hrest
            · have hfirst := @ih first List.mem_cons_self
              simpa [hfirst] using fun hsep : sep = c => hc hsep.symm
            · exact ih (List.mem_cons_of_mem first hrest)

/-! ## cutting -/

/-- A text is cut at its first separator. -/
theorem cutAt_eq_some {sep : Char} {t before after : Text} (h : cutAt sep t = (before, some after)) :
    t = before ++ sep :: after ∧ sep ∉ before := by
  induction t generalizing before with
  | nil => simp [cutAt] at h
  | cons c t ih =>
      rw [cutAt] at h
      by_cases hc : c = sep
      · rw [if_pos hc] at h
        obtain ⟨rfl, hafter⟩ := Prod.mk.inj h
        rw [hc, Option.some.inj hafter]
        exact ⟨rfl, List.not_mem_nil⟩
      · rw [if_neg hc] at h
        obtain ⟨rfl, hafter⟩ := Prod.mk.inj h
        have hlater : cutAt sep t = ((cutAt sep t).1, some after) := by rw [← hafter]
        obtain ⟨ht, hbefore⟩ := ih hlater
        have hne : ¬ sep = c := fun hsep => hc hsep.symm
        rw [List.mem_cons, not_or]
        exact ⟨congrArg (c :: ·) ht, hne, hbefore⟩

theorem cutAt_append {sep : Char} {before : Text} (h : sep ∉ before) (after : Text) :
    cutAt sep (before ++ sep :: after) = (before, some after) := by
  induction before with
  | nil => simp [cutAt]
  | cons c before ih =>
      rw [List.mem_cons, not_or] at h
      have hne : ¬ c = sep := fun hc => h.1 hc.symm
      rw [List.cons_append, cutAt, if_neg hne, ih h.2]

/-! ## the beginning of a text -/

theorem dropStart?_append (start t : Text) : dropStart? start (start ++ t) = some t := by
  have hpre : start.isPrefixOf (start ++ t) = true :=
    List.isPrefixOf_iff_prefix.mpr (List.prefix_append start t)
  rw [dropStart?, if_pos hpre, List.drop_left]

theorem eq_of_dropStart? {start t rest : Text} (h : dropStart? start t = some rest) :
    t = start ++ rest := by
  unfold dropStart? at h
  split at h
  · next hpre =>
    rw [← Option.some.inj h]
    exact (List.prefix_iff_eq_append.mp (List.isPrefixOf_iff_prefix.mp hpre)).symm
  · contradiction

/-! ## runs -/

/-- Where a run ends that a text begins with. -/
theorem span_append {p : Char → Bool} {run rest : Text} (hrun : ∀ c ∈ run, p c = true)
    (hrest : ∀ c ∈ rest.head?, p c = false) :
    (run ++ rest).takeWhile p = run ∧ (run ++ rest).dropWhile p = rest := by
  rw [List.takeWhile_append_of_pos hrun, List.dropWhile_append_of_pos hrun]
  cases rest with
  | nil => simp
  | cons c rest =>
      have hc : ¬ p c = true := by simp [hrest c rfl]
      rw [List.takeWhile_cons_of_neg hc, List.dropWhile_cons_of_neg hc, List.append_nil]
      exact ⟨rfl, rfl⟩

/-- A text is a run and what comes after it. -/
theorem exists_run (p : Char → Bool) (t : Text) : ∃ run rest, t = run ++ rest ∧
    (∀ c ∈ run, p c = true) ∧ ∀ c ∈ rest.head?, p c = false := by
  refine ⟨t.takeWhile p, t.dropWhile p, List.takeWhile_append_dropWhile.symm,
    List.all_eq_true.mp List.all_takeWhile, fun c hc => ?_⟩
  have hhead := List.head?_dropWhile_not p t
  rw [hc] at hhead
  simpa using hhead

end SourceMerge.Text
