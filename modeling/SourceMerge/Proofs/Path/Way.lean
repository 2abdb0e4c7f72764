import SourceMerge.Proofs.Path.Directory

/-!
# SourceMerge.Proofs.Path.Way

Ways that files hold.  A file names another one by the way to it, which a reader
follows from the directory of the file that it has at hand.  `LeadsFrom` says that
the reader arrives: at the same place always, and at the same spelling of it where
no path begins with exactly two slashes, since a way cannot tell that root from the
other one.

The way that is written for the reader of one file leads a reader of another file
astray, unless their directories meet above it (`leadsFrom_iff_meets`).
-/

namespace SourceMerge.Path

/-! ## where a path starts -/

theorem anchorOf_slash {p : Text} (h : p.head? ≠ some '/') : anchorOf ('/' :: p) = .absolute := by
  cases p with
  | nil => rfl
  | cons c p =>
      have hc : c ≠ '/' := by simpa using h
      simp [anchorOf, hc]

theorem anchorOf_slashes {p : Text} (h : p.head? ≠ some '/') :
    anchorOf ('/' :: '/' :: p) = .doubled := by
  cases p with
  | nil => rfl
  | cons c p =>
      have hc : c ≠ '/' := by simpa using h
      simp [anchorOf, hc]

/-- What is written behind a path leaves its beginning alone, if it does not add to
the slashes there. -/
theorem anchorOf_append {p tail : Text}
    (h : tail.head? = some '/' → p ≠ [] ∧ p.getLast? ≠ some '/') :
    anchorOf (p ++ tail) = anchorOf p := by
  have hnext : ∀ {rest : Text}, (∀ more, rest = '/' :: more → False) →
      (rest = [] → tail.head? ≠ some '/') → (rest ++ tail).head? ≠ some '/' := by
    intro rest hrest htail
    cases rest with
    | nil => exact htail rfl
    | cons c rest =>
        simp only [List.cons_append, List.head?_cons, ne_eq, Option.some.injEq]
        rintro rfl
        exact hrest rest rfl
  fun_cases anchorOf p with
  | case1 => rfl
  | case2 rest hrest =>
      refine anchorOf_slashes (hnext hrest ?_)
      rintro rfl hhead
      exact (h hhead).2 rfl
  | case3 rest _ hrest =>
      refine anchorOf_slash (hnext hrest ?_)
      rintro rfl hhead
      exact (h hhead).2 rfl
  | case4 _ _ _ hplain =>
      have hhead : (p ++ tail).head? ≠ some '/' := by
        refine hnext hplain ?_
        rintro rfl hhead
        exact (h hhead).1 rfl
      by_contra hne
      exact hhead (anchorOf_ne_relative.mp hne)

theorem anchorOf_join {d p : Text} (h : p.head? ≠ some '/') : anchorOf (join d p) = anchorOf d := by
  rw [join, if_neg h]
  split
  · exact anchorOf_append fun hp => absurd hp h
  · next hend =>
    rw [not_or] at hend
    exact anchorOf_append fun _ => hend

/-- A directory starts where its files start. -/
theorem anchorOf_directory (p : Text) : anchorOf (directory p) = anchorOf p := by
  obtain ⟨head, name, rfl, hname, -, hsplit⟩ := exists_name p
  have hplain : name.head? ≠ some '/' := fun h => hname (List.mem_of_head? h)
  rw [anchorOf_append fun h => absurd h hplain, directory, hsplit]
  simp only
  split
  · rfl
  · next hall =>
    obtain ⟨tail, htail, hlast⟩ := Text.exists_trimEndWhile (· == '/') head
    have hne : Text.trimEndWhile (· == '/') head ≠ [] := by
      intro hnil
      have hhead := Text.head?_trimEndWhile (Bool.eq_false_iff.mpr hall)
      rw [hnil, List.head?_nil, eq_comm, List.head?_eq_none_iff] at hhead
      exact hall (by rw [hhead]; rfl)
    conv_rhs => rw [htail]
    refine (anchorOf_append fun _ => ⟨hne, fun hslash => ?_⟩).symm
    exact absurd (hlast '/' hslash) (by decide)

/-- Seen from a root with one slash, paths start there, unless they begin with two. -/
theorem anchorOf_join_eq_absolute {wd p : Text} (hwd : isAbsolute wd = true)
    (hone : anchorOf wd ≠ .doubled) (hp : anchorOf p ≠ .doubled) :
    anchorOf (join wd p) = .absolute := by
  have hone' : anchorOf (join wd p) ≠ .doubled := by
    by_cases hhead : p.head? = some '/'
    · rwa [join_of_head? hhead]
    · rwa [anchorOf_join hhead]
  have hroot := anchorOf_ne_relative.mpr (head?_join (p := p) hwd)
  cases h : anchorOf (join wd p) with
  | relative => exact absurd h hroot
  | absolute => rfl
  | doubled => exact absurd h hone'

/-! ## ways that files hold -/

/-- Followed from the directory of a file, a way leads to a path. -/
structure LeadsFrom (wd file way p : Text) : Prop where
  /-- The way does not start at a root. -/
  relative : isAbsolute way = false
  located : located wd (join (directory file) way) = located wd p
  absolute : (∀ q ∈ [wd, file, p], anchorOf q ≠ .doubled) →
    absolute wd (join (directory file) way) = absolute wd p

/-- A way leads to a path if it leads to its place. -/
theorem leadsFrom_iff {wd file way p : Text} (hwd : isAbsolute wd = true)
    (hway : isAbsolute way = false) :
    LeadsFrom wd file way p ↔ located wd (join (directory file) way) = located wd p := by
  refine ⟨LeadsFrom.located, fun h => ⟨hway, h, fun hone => ?_⟩⟩
  simp only [List.forall_mem_cons] at hone
  have hhead : way.head? ≠ some '/' := fun hslash => by
    rw [isAbsolute_iff.mpr hslash] at hway
    contradiction
  have hjoin : anchorOf (join (directory file) way) ≠ .doubled := by
    rw [anchorOf_join hhead, anchorOf_directory]
    exact hone.2.1
  rw [← located_eq_absolute (anchorOf_join_eq_absolute hwd hone.1 hjoin), h,
    located_eq_absolute (anchorOf_join_eq_absolute hwd hone.1 hone.2.2.1)]

theorem isAbsolute_relativeTo {wd : Text} (hwd : isAbsolute wd = true) (d p : Text) :
    isAbsolute (relativeTo wd d p) = false := by
  rw [Bool.eq_false_iff, Ne, isAbsolute_iff]
  exact head?_relativeTo hwd d p

/-- **The way from the directory of a file leads there.** -/
theorem leadsFrom_relativeTo {wd : Text} (hwd : isAbsolute wd = true) (file p : Text) :
    LeadsFrom wd file (relativeTo wd (directory file) p) p :=
  (leadsFrom_iff hwd (isAbsolute_relativeTo hwd _ p)).mpr
    (located_join_relativeTo hwd (directory file) p)

/-! ## ways followed from elsewhere -/

/-- As far above the directory `e` as the deepest directory that `d` shares with a
path lies above `d`, lies that shared directory. -/
def Meets (wd d e p : Text) : Prop :=
  let s := components (join wd d)
  let t := components (join wd e)
  let shared := sharedLength s (components (join wd p))
  t.take (t.length - (s.length - shared)) = s.take shared

/-- Directories of one place meet above every path. -/
theorem meets_of_located_eq {wd d e : Text} (h : located wd d = located wd e) (p : Text) :
    Meets wd d e p := by
  unfold Meets
  rw [← components_eq_of_located_eq h]
  simp only
  rw [Nat.sub_sub_self (take_sharedLength _ _).1]

/-- **Whom a way leads astray.**  The way from the directory of one file to a path
leads there from the directory of another file exactly if the directories meet. -/
theorem leadsFrom_iff_meets {wd : Text} (hwd : isAbsolute wd = true) (file other p : Text) :
    LeadsFrom wd other (relativeTo wd (directory file) p) p ↔
      Meets wd (directory file) (directory other) p := by
  have hreached : components (join wd (join (directory other) (relativeTo wd (directory file) p))) =
      (let s := components (join wd (directory file))
      let t := components (join wd (directory other))
      let shared := sharedLength s (components (join wd p))
      t.take (t.length - (s.length - shared)) ++ (components (join wd p)).drop shared) := by
    rw [components_join_join hwd (head?_relativeTo hwd _ p), relativeTo]
    simp only [names_start hwd, names_absolute hwd]
    rw [walk_route (settled_components_join hwd _) (settled_components_join hwd p),
      List.reverse_reverse]
  have hshared := (take_sharedLength (components (join wd (directory file)))
    (components (join wd p))).2
  rw [leadsFrom_iff hwd (isAbsolute_relativeTo hwd _ p), located_eq_iff, hreached, Meets]
  simp only
  conv_lhs => rhs; rw [← List.take_append_drop (sharedLength (components (join wd (directory file)))
    (components (join wd p))) (components (join wd p)), ← hshared]
  rw [List.append_cancel_right_eq]

end SourceMerge.Path
