import Mathlib
import SourceMerge.Proofs.Run.Looking
import SourceMerge.Proofs.Store.Snapshot

/-!
# SourceMerge.Proofs.Run.Choosing

Which sources patterns choose, and in which order.  Patterns are worked off one by one:
one takes paths in, the next may throw some of them out, and a path that was thrown out
may come back, at the end then.  So a path is chosen if some pattern yields it and none
behind that one excludes it.  Its *rank* is the first pattern that yields it after the
last one that excluded it, and where it stands among what that pattern finds.

```
*.js   !a.js   lib/*   a.js        a.js is ranked by the fourth pattern
```

`rankedAt_concat_add` and `rankedAt_concat_drop` say what one more pattern does to the
ranks; that the chosen paths stand in the order of their ranks follows by induction on
the patterns from the left.
-/

namespace SourceMerge.Sources

/-! ## ranks -/

/-- The rank of a path, by what yields it as which of its paths, and what excludes it:
the first yield behind all exclusions. -/
structure Rank (yields : Nat → Nat → Prop) (excludes : Nat → Prop) (i k : Nat) : Prop where
  yielded : yields i k
  last : ∀ j, excludes j → j < i
  first : ∀ i' k', yields i' k' → i' < i → ∃ j, excludes j ∧ i' < j

section Rank

variable {yields : Nat → Nat → Prop} {excludes : Nat → Prop} {i k i' k' : Nat}

theorem Rank.le (h : Rank yields excludes i k) (h' : Rank yields excludes i' k') : i' ≤ i := by
  by_contra hlt
  obtain ⟨j, hj, hij⟩ := h'.first i k h.yielded (by omega)
  have := h.last j hj
  omega

/-- A path has a rank if something yields it and nothing behind that excludes it. -/
theorem exists_rank_iff (hone : ∀ i k, yields i k → ¬ excludes i) :
    (∃ i k, Rank yields excludes i k) ↔ ∃ i k, yields i k ∧ ∀ j, i < j → ¬ excludes j := by
  classical
  constructor
  · rintro ⟨i, k, h⟩
    exact ⟨i, k, h.yielded, fun j hij hj => by have := h.last j hj; omega⟩
  · rintro ⟨i, k, hi, hlast⟩
    have hother : ∀ {i k j}, yields i k → excludes j → j ≠ i := fun hi hj heq =>
      hone _ _ hi (heq ▸ hj)
    have hex : ∃ i, (∃ k, yields i k) ∧ ∀ j, excludes j → j < i := by
      refine ⟨i, ⟨k, hi⟩, fun j hj => ?_⟩
      have hne := hother hi hj
      have hle : ¬ i < j := fun hij => hlast j hij hj
      omega
    -- The least yield behind all exclusions: any earlier one is before some exclusion.
    obtain ⟨⟨k₀, hk₀⟩, hall⟩ := Nat.find_spec hex
    refine ⟨Nat.find hex, k₀, hk₀, hall, fun i' k' hi' hlt => ?_⟩
    have hnot := Nat.find_min hex hlt
    push Not at hnot
    obtain ⟨j, hj, hle⟩ := hnot ⟨k', hi'⟩
    have hne := hother hi' hj
    exact ⟨j, hj, by omega⟩

end Rank

/-! ## one more choice -/

section Choices

/-- The choice at an index adds a path, which is the `k`-th of what it adds. -/
def AddsAt (choices : List Choice) (p : Text) (i k : Nat) : Prop :=
  ∃ paths, choices[i]? = some (.add paths) ∧ p ∈ paths ∧ paths.idxOf p = k

/-- The choice at an index takes a path away. -/
def DropsAt (choices : List Choice) (p : Text) (j : Nat) : Prop :=
  ∃ paths, choices[j]? = some (.drop paths) ∧ p ∈ paths

/-- The rank of a path by choices. -/
def RankedAt (choices : List Choice) (p : Text) : Nat → Nat → Prop :=
  Rank (AddsAt choices p) (DropsAt choices p)

variable {choices : List Choice} {paths : List Text} {p q : Text} {i k i' k' : Nat}

theorem AddsAt.lt (h : AddsAt choices p i k) : i < choices.length := by
  obtain ⟨paths, hi, -⟩ := h
  exact (List.getElem?_eq_some_iff.mp hi).1

theorem DropsAt.lt (h : DropsAt choices p i) : i < choices.length := by
  obtain ⟨paths, hi, -⟩ := h
  exact (List.getElem?_eq_some_iff.mp hi).1

/-- No choice both adds and takes away. -/
theorem AddsAt.not_dropsAt (h : AddsAt choices p i k) : ¬ DropsAt choices p i := by
  rintro ⟨dropped, hdrop, -⟩
  obtain ⟨added, hadd, -⟩ := h
  have heq := hadd.symm.trans hdrop
  simp at heq

theorem exists_rankedAt_iff :
    (∃ i k, RankedAt choices p i k) ↔
      ∃ i k, AddsAt choices p i k ∧ ∀ j, i < j → ¬ DropsAt choices p j :=
  exists_rank_iff fun _ _ => AddsAt.not_dropsAt

/-- A path has one rank. -/
theorem RankedAt.unique (h : RankedAt choices p i k) (h' : RankedAt choices p i' k') :
    i = i' ∧ k = k' := by
  obtain rfl : i = i' := Nat.le_antisymm (h'.le h) (h.le h')
  obtain ⟨paths, hi, -, rfl⟩ := h.yielded
  obtain ⟨paths', hi', -, rfl⟩ := h'.yielded
  obtain rfl : paths = paths' := by simpa using hi.symm.trans hi'
  exact ⟨rfl, rfl⟩

theorem getElem?_concat_eq_some_iff {α : Type} {l : List α} {a b : α} {i : Nat} :
    (l ++ [a])[i]? = some b ↔ l[i]? = some b ∨ i = l.length ∧ a = b := by
  rcases Nat.lt_trichotomy i l.length with hlt | rfl | hgt
  · rw [List.getElem?_append_left hlt]
    simp [Nat.ne_of_lt hlt]
  · simp
  · have hlong : (l ++ [a]).length ≤ i := by
      rw [List.length_append, List.length_singleton]
      omega
    rw [List.getElem?_eq_none hlong, List.getElem?_eq_none (by omega)]
    simp [Nat.ne_of_gt hgt]

theorem addsAt_concat_add :
    AddsAt (choices ++ [.add paths]) p i k ↔
      AddsAt choices p i k ∨ i = choices.length ∧ p ∈ paths ∧ paths.idxOf p = k := by
  simp only [AddsAt, getElem?_concat_eq_some_iff, Choice.add.injEq]
  grind

theorem dropsAt_concat_add : DropsAt (choices ++ [.add paths]) p i ↔ DropsAt choices p i := by
  simp [DropsAt, getElem?_concat_eq_some_iff]

theorem addsAt_concat_drop : AddsAt (choices ++ [.drop paths]) p i k ↔ AddsAt choices p i k := by
  simp [AddsAt, getElem?_concat_eq_some_iff]

theorem dropsAt_concat_drop :
    DropsAt (choices ++ [.drop paths]) p i ↔
      DropsAt choices p i ∨ i = choices.length ∧ p ∈ paths := by
  simp only [DropsAt, getElem?_concat_eq_some_iff, Choice.drop.injEq]
  grind

/-- One more exclusion takes the rank of a path away, or leaves it. -/
theorem rankedAt_concat_drop :
    RankedAt (choices ++ [.drop paths]) p i k ↔ RankedAt choices p i k ∧ p ∉ paths := by
  constructor
  · intro h
    have hadds : AddsAt choices p i k := addsAt_concat_drop.mp h.yielded
    have hkept : p ∉ paths := fun hp => by
      have := h.last choices.length (dropsAt_concat_drop.mpr (.inr ⟨rfl, hp⟩))
      have := hadds.lt
      omega
    have hsame : ∀ {j}, DropsAt (choices ++ [.drop paths]) p j ↔ DropsAt choices p j := by
      simp [dropsAt_concat_drop, hkept]
    refine ⟨⟨hadds, fun j hj => h.last j (hsame.mpr hj), fun i' k' hi' hlt => ?_⟩, hkept⟩
    obtain ⟨j, hj, hij⟩ := h.first i' k' (addsAt_concat_drop.mpr hi') hlt
    exact ⟨j, hsame.mp hj, hij⟩
  · rintro ⟨h, hkept⟩
    have hsame : ∀ {j}, DropsAt (choices ++ [.drop paths]) p j ↔ DropsAt choices p j := by
      simp [dropsAt_concat_drop, hkept]
    refine ⟨addsAt_concat_drop.mpr h.yielded, fun j hj => h.last j (hsame.mp hj),
      fun i' k' hi' hlt => ?_⟩
    obtain ⟨j, hj, hij⟩ := h.first i' k' (addsAt_concat_drop.mp hi') hlt
    exact ⟨j, hsame.mpr hj, hij⟩

/-- One more pattern ranks the paths that have no rank. -/
theorem rankedAt_concat_add :
    RankedAt (choices ++ [.add paths]) p i k ↔
      RankedAt choices p i k ∨
        (∀ i k, ¬ RankedAt choices p i k) ∧ i = choices.length ∧ p ∈ paths ∧ paths.idxOf p = k := by
  constructor
  · intro h
    have hlast : ∀ j, DropsAt choices p j → j < i := fun j hj =>
      h.last j (dropsAt_concat_add.mpr hj)
    have hfirst : ∀ i' k', AddsAt choices p i' k' → i' < i → ∃ j, DropsAt choices p j ∧ i' < j := by
      intro i' k' hi' hlt
      obtain ⟨j, hj, hij⟩ := h.first i' k' (addsAt_concat_add.mpr (.inl hi')) hlt
      exact ⟨j, dropsAt_concat_add.mp hj, hij⟩
    rcases addsAt_concat_add.mp h.yielded with hadds | hnew
    · exact .inl ⟨hadds, hlast, hfirst⟩
    · refine .inr ⟨fun i₀ k₀ h₀ => ?_, hnew⟩
      obtain ⟨j, hj, hij⟩ := hfirst i₀ k₀ h₀.yielded (hnew.1 ▸ h₀.yielded.lt)
      have := h₀.last j hj
      omega
  · rintro (h | ⟨hnone, rfl, hp, rfl⟩)
    · refine ⟨addsAt_concat_add.mpr (.inl h.yielded), fun j hj => h.last j (dropsAt_concat_add.mp hj),
        fun i' k' hi' hlt => ?_⟩
      rcases addsAt_concat_add.mp hi' with hadds | ⟨rfl, -⟩
      · obtain ⟨j, hj, hij⟩ := h.first i' k' hadds hlt
        exact ⟨j, dropsAt_concat_add.mpr hj, hij⟩
      · have := h.yielded.lt
        omega
    · refine ⟨addsAt_concat_add.mpr (.inr ⟨rfl, hp, rfl⟩),
        fun j hj => (dropsAt_concat_add.mp hj).lt, fun i' k' hi' hlt => ?_⟩
      rcases addsAt_concat_add.mp hi' with hadds | ⟨rfl, -⟩
      · -- Without an exclusion behind it, this yield would have made a rank.
        by_contra hnever
        obtain ⟨i₀, k₀, h₀⟩ := exists_rankedAt_iff.mpr
          ⟨i', k', hadds, fun j hij hj => hnever ⟨j, dropsAt_concat_add.mpr hj, hij⟩⟩
        exact hnone i₀ k₀ h₀
      · omega

/-! ## the chosen paths -/

/-- Paths that are added come behind the others, those that are new, in their order. -/
theorem exists_foldl_addOne (paths chosen : List Text) :
    ∃ new, paths.foldl addOne chosen = chosen ++ new ∧ (∀ p, p ∈ new ↔ p ∈ paths ∧ p ∉ chosen) ∧
      new.Pairwise fun p q => paths.idxOf p < paths.idxOf q := by
  induction paths using List.reverseRecOn with
  | nil => exact ⟨[], by simp, by simp, .nil⟩
  | append_singleton paths path ih =>
      obtain ⟨new, heq, hmem, hsorted⟩ := ih
      have hkept : new.Pairwise fun p q => (paths ++ [path]).idxOf p < (paths ++ [path]).idxOf q :=
        hsorted.imp_of_mem fun hp hq hlt => by
          rwa [List.idxOf_append_of_mem ((hmem _).mp hp).1,
            List.idxOf_append_of_mem ((hmem _).mp hq).1]
      rw [List.foldl_append, heq, List.foldl_cons, List.foldl_nil, addOne]
      by_cases hknown : path ∈ chosen ++ new
      · refine ⟨new, if_pos hknown, fun p => ?_, hkept⟩
        grind
      · refine ⟨new ++ [path], by rw [if_neg hknown, List.append_assoc], fun p => by grind, ?_⟩
        have hnew : path ∉ paths := by grind
        rw [List.pairwise_append]
        refine ⟨hkept, List.pairwise_singleton _ _, fun p hp q hq => ?_⟩
        have hin := ((hmem p).mp hp).1
        rw [List.mem_singleton.mp hq, List.idxOf_append_of_mem hin, List.idxOf_append_of_notMem hnew]
        have := List.idxOf_lt_length_of_mem hin
        omega

theorem select_concat (choices : List Choice) (c : Choice) :
    select (choices ++ [c]) = step (select choices) c := by
  simp [select]

/-- **The ranked paths are chosen.** -/
theorem mem_select_iff : p ∈ select choices ↔ ∃ i k, RankedAt choices p i k := by
  induction choices using List.reverseRecOn with
  | nil =>
      refine iff_of_false List.not_mem_nil ?_
      rintro ⟨i, k, h⟩
      exact absurd h.yielded.lt (Nat.not_lt_zero i)
  | append_singleton choices c ih =>
      rw [select_concat]
      cases c with
      | drop paths =>
          simp only [step, List.mem_filter, decide_eq_true_eq, ih, rankedAt_concat_drop,
            exists_and_right]
      | add paths =>
          obtain ⟨new, heq, hmem, -⟩ := exists_foldl_addOne paths (select choices)
          simp only [step, heq, List.mem_append, hmem, ih, rankedAt_concat_add]
          constructor
          · rintro (⟨i, k, h⟩ | ⟨hp, hnone⟩)
            · exact ⟨i, k, .inl h⟩
            · exact ⟨_, _, .inr ⟨fun i k h => hnone ⟨i, k, h⟩, rfl, hp, rfl⟩⟩
          · rintro ⟨i, k, h | ⟨hnone, -, hp, -⟩⟩
            · exact .inl ⟨i, k, h⟩
            · exact .inr ⟨hp, fun ⟨i, k, h⟩ => hnone i k h⟩

/-- By their ranks one path comes before another. -/
def Before (choices : List Choice) (p q : Text) : Prop :=
  ∀ i k i' k', RankedAt choices p i k → RankedAt choices q i' k' → i < i' ∨ i = i' ∧ k < k'

/-- **Chosen paths stand in the order of their ranks.** -/
theorem pairwise_select (choices : List Choice) : (select choices).Pairwise (Before choices) := by
  induction choices using List.reverseRecOn with
  | nil => exact .nil
  | append_singleton choices c ih =>
      rw [select_concat]
      cases c with
      | drop paths =>
          refine (ih.filter _).imp fun hbefore i k i' k' hp hq => ?_
          exact hbefore i k i' k' (rankedAt_concat_drop.mp hp).1 (rankedAt_concat_drop.mp hq).1
      | add paths =>
          obtain ⟨new, heq, hmem, hsorted⟩ := exists_foldl_addOne paths (select choices)
          -- Old paths keep their ranks, and new ones are ranked by the last pattern.
          have hold : ∀ {p i k}, p ∈ select choices → RankedAt (choices ++ [.add paths]) p i k →
              RankedAt choices p i k := fun {p i k} hp h =>
            (rankedAt_concat_add.mp h).resolve_right fun hnew =>
              have ⟨i₀, k₀, h₀⟩ := mem_select_iff.mp hp
              hnew.1 i₀ k₀ h₀
          have hnew : ∀ {p i k}, p ∈ new → RankedAt (choices ++ [.add paths]) p i k →
              i = choices.length ∧ paths.idxOf p = k := fun {p i k} hp h =>
            have h := (rankedAt_concat_add.mp h).resolve_left fun h =>
              ((hmem p).mp hp).2 (mem_select_iff.mpr ⟨i, k, h⟩)
            ⟨h.2.1, h.2.2.2⟩
          rw [step, heq, List.pairwise_append]
          refine ⟨ih.imp_of_mem fun hp hq hbefore i k i' k' h h' =>
            hbefore i k i' k' (hold hp h) (hold hq h'), hsorted.imp_of_mem fun hp hq hlt => ?_,
            fun p hp q hq => ?_⟩
          · intro i k i' k' h h'
            obtain ⟨rfl, rfl⟩ := hnew hp h
            obtain ⟨rfl, rfl⟩ := hnew hq h'
            exact .inr ⟨rfl, hlt⟩
          · intro i k i' k' h h'
            obtain ⟨rfl, rfl⟩ := hnew hq h'
            exact .inl (hold hp h).yielded.lt

theorem nodup_select (choices : List Choice) : (select choices).Nodup := by
  refine (pairwise_select choices).imp_of_mem ?_
  rintro p q hp - hbefore rfl
  obtain ⟨i, k, h⟩ := mem_select_iff.mp hp
  have := hbefore i k i k h h
  omega

/-- One chosen path comes before another exactly if its rank is smaller. -/
theorem idxOf_select_lt_iff (hp : RankedAt choices p i k) (hq : RankedAt choices q i' k') :
    (select choices).idxOf p < (select choices).idxOf q ↔ i < i' ∨ i = i' ∧ k < k' := by
  have hforth : ∀ {p q i k i' k'}, RankedAt choices p i k → RankedAt choices q i' k' →
      (select choices).idxOf p < (select choices).idxOf q → i < i' ∨ i = i' ∧ k < k' := by
    intro p q i k i' k' hp hq hlt
    have hpmem := mem_select_iff.mpr ⟨i, k, hp⟩
    have hqmem := mem_select_iff.mpr ⟨i', k', hq⟩
    have hbefore := List.pairwise_iff_getElem.mp (pairwise_select choices) _ _
      (List.idxOf_lt_length_of_mem hpmem) (List.idxOf_lt_length_of_mem hqmem) hlt
    rw [List.getElem_idxOf, List.getElem_idxOf] at hbefore
    exact hbefore i k i' k' hp hq
  refine ⟨hforth hp hq, fun hlex => ?_⟩
  rcases Nat.lt_trichotomy ((select choices).idxOf p) ((select choices).idxOf q) with hlt | heq | hgt
  · exact hlt
  · have hsame : p = q := (List.idxOf_inj (mem_select_iff.mpr ⟨i, k, hp⟩)).mp heq
    obtain ⟨rfl, rfl⟩ := RankedAt.unique (hsame ▸ hp) hq
    omega
  · have := hforth hq hp hgt
    omega

end Choices

/-! ## patterns -/

theorem choose_eq_add_iff {base pattern : Text} {nonull : Bool} {found paths : List Text} :
    choose base nonull pattern found = .add paths ↔ exclusion? pattern = none ∧
      (if found = [] ∧ nonull then [seenFrom base pattern] else found) = paths := by
  unfold choose
  cases exclusion? pattern <;> simp

theorem choose_eq_drop_iff {base pattern : Text} {nonull : Bool} {found paths : List Text} :
    choose base nonull pattern found = .drop paths ↔
      (∃ left, exclusion? pattern = some left) ∧ found = paths := by
  unfold choose
  cases exclusion? pattern <;> simp

/-- Patterns as seen from a directory, and what each of them finds. -/
structure Search where
  patterns : List Text
  base : Text
  nonull : Bool
  found : Text → List Text

namespace Search

/-- The pattern at an index yields a path: as the `k`-th of what it finds, or as the
pattern itself if it finds nothing and `nonull` is set. -/
def YieldsAt (s : Search) (p : Text) (i k : Nat) : Prop :=
  ∃ pattern, s.patterns[i]? = some pattern ∧ exclusion? pattern = none ∧
    (p ∈ s.found pattern ∧ (s.found pattern).idxOf p = k ∨
      s.found pattern = [] ∧ s.nonull = true ∧ p = seenFrom s.base pattern ∧ k = 0)

/-- The pattern at an index takes away what it finds, a path among it. -/
def ExcludesAt (s : Search) (p : Text) (j : Nat) : Prop :=
  ∃ pattern left, s.patterns[j]? = some pattern ∧ exclusion? pattern = some left ∧
    p ∈ s.found pattern

/-- The rank of a path by patterns. -/
def RankedAt (s : Search) (p : Text) : Nat → Nat → Prop := Rank (s.YieldsAt p) (s.ExcludesAt p)

/-- The choices of the patterns. -/
def choices (s : Search) : List Choice :=
  s.patterns.map fun pattern => choose s.base s.nonull pattern (s.found pattern)

variable {s : Search} {p : Text} {i k : Nat}

theorem addsAt_choices : AddsAt s.choices p i k ↔ s.YieldsAt p i k := by
  have hpattern : ∀ pattern, (∃ paths, choose s.base s.nonull pattern (s.found pattern) = .add paths ∧
      p ∈ paths ∧ paths.idxOf p = k) ↔ exclusion? pattern = none ∧
        (p ∈ s.found pattern ∧ (s.found pattern).idxOf p = k ∨
          s.found pattern = [] ∧ s.nonull = true ∧ p = seenFrom s.base pattern ∧ k = 0) := by
    intro pattern
    simp only [choose_eq_add_iff, and_assoc, exists_and_left, exists_eq_left']
    refine and_congr_right fun _ => ?_
    by_cases hliteral : s.found pattern = [] ∧ s.nonull = true
    · rw [if_pos hliteral, hliteral.1, hliteral.2]
      grind
    · rw [if_neg hliteral]
      grind
  simp only [AddsAt, YieldsAt, choices, List.getElem?_map, Option.map_eq_some_iff, ← hpattern]
  grind

theorem dropsAt_choices : DropsAt s.choices p i ↔ s.ExcludesAt p i := by
  simp only [DropsAt, ExcludesAt, choices, List.getElem?_map, Option.map_eq_some_iff]
  constructor
  · rintro ⟨paths, ⟨pattern, hi, hdrop⟩, hp⟩
    obtain ⟨⟨left, hleft⟩, rfl⟩ := choose_eq_drop_iff.mp hdrop
    exact ⟨pattern, left, hi, hleft, hp⟩
  · rintro ⟨pattern, left, hi, hleft, hp⟩
    exact ⟨_, ⟨pattern, hi, choose_eq_drop_iff.mpr ⟨⟨left, hleft⟩, rfl⟩⟩, hp⟩

theorem rankedAt_choices : Sources.RankedAt s.choices p i k ↔ s.RankedAt p i k := by
  have hadds : AddsAt s.choices p = s.YieldsAt p := by
    funext i k
    exact propext addsAt_choices
  have hdrops : DropsAt s.choices p = s.ExcludesAt p := by
    funext j
    exact propext dropsAt_choices
  rw [Sources.RankedAt, RankedAt, hadds, hdrops]

end Search

/-! ## an unchanging store -/

/-- Walking through a list gives one value after the other. -/
theorem gives_mapM {σ α γ : Type} {I : σ → Prop} {y : γ → StateM σ α} {a : γ → α}
    (h : ∀ c, Gives I (y c) (a c)) (l : List γ) : Gives I (l.mapM y) (l.map a) := by
  induction l with
  | nil => exact Gives.pure []
  | cons c l ih =>
      rw [List.mapM_cons]
      exact (h c).bind (ih.bind (Gives.pure _))

section Still

variable {σ : Type} [FileStore (StateM σ)] [FolderView (StateM σ)] [Journal (StateM σ)]

/-- The states of `I` hold the same files: each question has one answer in all of them,
and neither asking nor reporting leads out of `I`. -/
structure Still (I : σ → Prop) : Prop where
  contains : ∀ path, ∃ a, Gives I (FileStore.contains path) a
  entries : ∀ path, ∃ a, Gives I (FolderView.entries path) a
  below : ∀ keep path, ∃ a, Gives I (FolderView.below keep path) a
  report : ∀ level part message, Gives I (report level part message) ()

variable {I : σ → Prop}

theorem Still.looking (h : Still I) : Looking fun _ (y : StateM σ _) => ∃ a, Gives I y a where
  pure a := ⟨a, Gives.pure a⟩
  bind := by
    rintro α β y k ⟨a, ha⟩ hk
    obtain ⟨b, hb⟩ := hk a
    exact ⟨b, ha.bind hb⟩
  contains := h.contains
  entries := h.entries
  below := h.below
  report level part message := ⟨(), h.report level part message⟩

theorem Still.gives_apply (h : Still I) {base pattern : Text} {found : List Text}
    (hfound : Gives I (findAll base pattern) found) (nonull : Bool) :
    Gives I (apply base nonull pattern) (choose base nonull pattern found) := by
  unfold apply
  refine hfound.bind ?_
  split
  · exact (h.report _ _ _).bind (Gives.pure _)
  · exact Gives.pure _

/-- **Which sources are chosen, and in which order.**  On an unchanging store each
pattern finds the same paths again and again.  The chosen paths stand once each; they are
those that some pattern yields and none behind it excludes; and they stand in the order
of their ranks. -/
theorem expand_chooses (h : Still I) (patterns : List Text) (base : Text) (nonull : Bool) :
    ∃ (found : Text → List Text) (chosen : List Text),
      (∀ pattern, Gives I (findAll base pattern) (found pattern)) ∧
      Gives I (expand patterns base nonull) chosen ∧
      let s : Search := ⟨patterns, base, nonull, found⟩
      chosen.Nodup ∧
      (∀ p, p ∈ chosen ↔ ∃ i k, s.YieldsAt p i k ∧ ∀ j, i < j → ¬ s.ExcludesAt p j) ∧
      (∀ p ∈ chosen, ∃ i k, s.RankedAt p i k) ∧
      ∀ p q i k i' k', s.RankedAt p i k → s.RankedAt q i' k' →
        (chosen.idxOf p < chosen.idxOf q ↔ i < i' ∨ i = i' ∧ k < k') := by
  have hone : ∀ pattern, ∃ found, Gives I (findAll base pattern) found := fun pattern =>
    h.looking.sorted _
  choose found hfound using hone
  let s : Search := ⟨patterns, base, nonull, found⟩
  refine ⟨found, select s.choices, hfound, ?_, nodup_select _, fun p => ?_, fun p hp => ?_, ?_⟩
  · have happly := gives_mapM (fun pattern => h.gives_apply (hfound pattern) nonull) patterns
    exact happly.bind (Gives.pure _)
  · rw [mem_select_iff, exists_rankedAt_iff]
    simp only [Search.addsAt_choices, Search.dropsAt_choices, s]
  · obtain ⟨i, k, hrank⟩ := mem_select_iff.mp hp
    exact ⟨i, k, Search.rankedAt_choices.mp hrank⟩
  · intro p q i k i' k' hp hq
    exact idxOf_select_lt_iff (Search.rankedAt_choices.mpr hp) (Search.rankedAt_choices.mpr hq)

end Still

/-- A disk without a log file on it. -/
theorem still_disk (d : Disk) :
    Still fun s : Session => s.disk = d ∧ ∀ p, s.plan = some p → p.file = none where
  contains path := ⟨_, d.shows.gives_contains path⟩
  entries path := ⟨d.entries path, by rintro s ⟨rfl, h⟩; exact ⟨s, ⟨rfl, h⟩, rfl⟩⟩
  below keep path := ⟨d.below keep path, by rintro s ⟨rfl, h⟩; exact ⟨s, ⟨rfl, h⟩, rfl⟩⟩
  report := d.shows.gives_report

/-- A disk with three files. -/
def shelf : Disk :=
  { root := .directory [("a.js", .file []), ("b.js", .file []),
      ("lib", .directory [("c.js", .file [])])] }

/-- Patterns that throw a file out and take it in again. -/
def shelfPatterns : List Text := ["*.js", "!a.js", "none.js", "./a.js"]

theorem findAll_shelf {found : Text → List Text}
    (h : ∀ pattern, Gives (fun s : Session => s.disk = shelf ∧ ∀ p, s.plan = some p → p.file = none)
      (findAll "" pattern) (found pattern)) :
    found "*.js" = ["a.js".toList, "b.js".toList] ∧ found "!a.js" = ["a.js".toList] ∧
      found "none.js" = [] ∧ found "./a.js" = ["a.js".toList] := by
  have hrun : ∀ pattern, (StateT.run (findAll "" pattern : StateM Session _) { disk := shelf }).1 =
      found pattern := fun pattern => by
    obtain ⟨s', -, hs'⟩ := h pattern { disk := shelf } ⟨rfl, by simp⟩
    rw [hs']
  refine ⟨(hrun _).symm.trans ?_, (hrun _).symm.trans ?_, (hrun _).symm.trans ?_,
    (hrun _).symm.trans ?_⟩
  · cbv
  · cbv
  · cbv
  · cbv

theorem shelfPatterns_getElem? {i : Nat} {pattern : Text} (h : shelfPatterns[i]? = some pattern) :
    i = 0 ∧ pattern = "*.js".toList ∨ i = 1 ∧ pattern = "!a.js".toList ∨
      i = 2 ∧ pattern = "none.js".toList ∨ i = 3 ∧ pattern = "./a.js".toList := by
  rcases i with _ | _ | _ | _ | i
  · exact .inl ⟨rfl, (Option.some.inj h).symm⟩
  · exact .inr (.inl ⟨rfl, (Option.some.inj h).symm⟩)
  · exact .inr (.inr (.inl ⟨rfl, (Option.some.inj h).symm⟩))
  · exact .inr (.inr (.inr ⟨rfl, (Option.some.inj h).symm⟩))
  · simp [shelfPatterns] at h

theorem exclusion?_shelf :
    exclusion? "*.js".toList = none ∧ exclusion? "!a.js".toList = some "a.js".toList ∧
      exclusion? "none.js".toList = none ∧ exclusion? "./a.js".toList = none := by decide

/-- Only the second pattern excludes, and only `a.js`. -/
theorem excludesAt_shelf {found : Text → List Text} (hout : found "!a.js" = ["a.js".toList])
    {p : Text} {j : Nat} :
    (Search.mk shelfPatterns "" true found).ExcludesAt p j ↔ j = 1 ∧ p = "a.js".toList := by
  obtain ⟨hstar, hdrops, hnone, hagain⟩ := exclusion?_shelf
  constructor
  · rintro ⟨pattern, left, hj, hleft, hp⟩
    rcases shelfPatterns_getElem? hj with ⟨-, rfl⟩ | ⟨rfl, rfl⟩ | ⟨-, rfl⟩ | ⟨-, rfl⟩
    · cases hstar.symm.trans hleft
    · simp only [hout] at hp
      exact ⟨rfl, List.mem_singleton.mp hp⟩
    · cases hnone.symm.trans hleft
    · cases hagain.symm.trans hleft
  · rintro ⟨rfl, rfl⟩
    refine ⟨_, _, rfl, hdrops, ?_⟩
    simp only [hout]
    exact List.mem_singleton.mpr rfl

/-- `a.js` is ranked by the last pattern, behind `b.js` and behind the pattern that found
nothing, although the first pattern finds it before `b.js`. -/
theorem expand_chooses_shelf :
    ∃ chosen : List Text,
      Gives (fun s : Session => s.disk = shelf ∧ ∀ p, s.plan = some p → p.file = none)
        (expand shelfPatterns "" true) chosen ∧
      chosen.Nodup ∧ chosen.idxOf "b.js".toList < chosen.idxOf "none.js".toList ∧
      chosen.idxOf "none.js".toList < chosen.idxOf "a.js".toList ∧ "a.js".toList ∈ chosen := by
  obtain ⟨found, chosen, hfound, hgives, hnodup, hmem, -, horder⟩ :=
    expand_chooses (still_disk shelf) shelfPatterns "" true
  obtain ⟨hstar, hout, hnone, hagain⟩ := findAll_shelf hfound
  obtain ⟨hstarAdds, houtDrops, hnoneAdds, hagainAdds⟩ := exclusion?_shelf
  let s : Search := ⟨shelfPatterns, "", true, found⟩
  have hexcludes : ∀ p j, s.ExcludesAt p j ↔ j = 1 ∧ p = "a.js".toList := fun _ _ =>
    excludesAt_shelf hout
  have hb : s.RankedAt "b.js".toList 0 1 :=
    ⟨⟨_, rfl, hstarAdds, .inl (by simp only [s, hstar]; decide)⟩,
      fun j hj => absurd ((hexcludes _ j).mp hj).2 (by decide),
      fun i' _ _ hlt => absurd hlt (Nat.not_lt_zero i')⟩
  have hn : s.RankedAt "none.js".toList 2 0 := by
    refine ⟨⟨_, rfl, hnoneAdds, .inr ⟨hnone, rfl, (by decide : _ = seenFrom "".toList _), rfl⟩⟩,
      fun j hj => absurd ((hexcludes _ j).mp hj).2 (by decide), ?_⟩
    rintro i' k' ⟨pattern, hpattern, hplus, hp⟩ hlt
    rcases shelfPatterns_getElem? hpattern with ⟨-, rfl⟩ | ⟨-, rfl⟩ | ⟨rfl, -⟩ | ⟨rfl, -⟩
    · simp only [s, hstar] at hp
      exact absurd hp (by simp)
    · cases houtDrops.symm.trans hplus
    · omega
    · omega
  have ha : s.RankedAt "a.js".toList 3 0 := by
    refine ⟨⟨_, rfl, hagainAdds, .inl (by simp only [s, hagain]; decide)⟩,
      fun j hj => ((hexcludes _ j).mp hj).1 ▸ (by decide : 1 < 3), ?_⟩
    rintro i' k' ⟨pattern, hpattern, hplus, hp⟩ hlt
    rcases shelfPatterns_getElem? hpattern with ⟨rfl, -⟩ | ⟨-, rfl⟩ | ⟨-, rfl⟩ | ⟨rfl, -⟩
    · exact ⟨1, (hexcludes _ _).mpr ⟨rfl, rfl⟩, by decide⟩
    · cases houtDrops.symm.trans hplus
    · simp only [s, hnone] at hp
      exact absurd (hp.resolve_left fun h => List.not_mem_nil h.1).2.2.1
        (by decide : _ ≠ seenFrom "".toList _)
    · omega
  refine ⟨chosen, hgives, hnodup, (horder _ _ _ _ _ _ hb hn).mpr (.inl (by decide)),
    (horder _ _ _ _ _ _ hn ha).mpr (.inl (by decide)),
    (hmem _).mpr ⟨3, 0, ha.yielded, fun j hlt hj => ?_⟩⟩
  have := ((hexcludes _ j).mp hj).1
  omega

end SourceMerge.Sources
