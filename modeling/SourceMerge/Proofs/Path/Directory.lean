import SourceMerge.Proofs.Path.Relative

/-!
# SourceMerge.Proofs.Path.Directory

The directory of a path and its name.  Following a path is following its
directory first and then its name (`walk_directory`).  So where a path is located
says where its directory is, if its name is an ordinary one; and a name is one if
enough is written behind it (`located_append`).
-/

namespace SourceMerge

/-! ## trimming -/

namespace Text

theorem trimEndWhile_concat (p : Char → Bool) (t : Text) (c : Char) :
    trimEndWhile p (t ++ [c]) = if p c then trimEndWhile p t else t ++ [c] := by
  induction t with
  | nil => rfl
  | cons d t ih =>
      rw [List.cons_append, trimEndWhile, ih]
      cases p c with
      | true => rfl
      | false => cases t <;> rfl

/-- What is trimmed off, and what the rest ends with. -/
theorem exists_trimEndWhile (p : Char → Bool) (t : Text) :
    ∃ tail, t = trimEndWhile p t ++ tail ∧ ∀ c ∈ (trimEndWhile p t).getLast?, p c = false := by
  induction t using List.reverseRecOn with
  | nil => exact ⟨[], rfl, by simp [trimEndWhile]⟩
  | append_singleton t c ih =>
      rw [trimEndWhile_concat]
      cases hc : p c with
      | true =>
          obtain ⟨tail, htail, hlast⟩ := ih
          refine ⟨tail ++ [c], ?_, hlast⟩
          rw [if_pos rfl, ← List.append_assoc, ← htail]
      | false => exact ⟨[], by simp, by simp [hc]⟩

/-- What is trimmed is still there unless everything goes. -/
theorem head?_trimEndWhile {p : Char → Bool} {t : Text} (h : t.all p = false) :
    (trimEndWhile p t).head? = t.head? := by
  induction t using List.reverseRecOn with
  | nil => simp at h
  | append_singleton t c ih =>
      rw [trimEndWhile_concat]
      cases hc : p c with
      | false => rfl
      | true =>
          have hall : t.all p = false := by simpa [hc] using h
          rw [if_pos rfl, ih hall]
          cases t with
          | nil => simp at hall
          | cons d t => rfl

end Text

namespace Path

/-! ## the last component -/

/-- What is written behind the last component belongs to it. -/
theorem splitLast_append {name : Text} (h : '/' ∉ name) (p : Text) :
    splitLast (p ++ name) = ((splitLast p).1, (splitLast p).2 ++ name) := by
  have hname : ∀ c ∈ name.reverse, (c != '/') = true := by
    intro c hc
    rw [bne_iff_ne]
    rintro rfl
    exact h (List.mem_reverse.mp hc)
  have hlength : (p.reverse.takeWhile (· != '/')).length ≤ p.length := by
    have hprefix := (List.takeWhile_prefix (· != '/') (l := p.reverse)).length_le
    rwa [List.length_reverse] at hprefix
  unfold splitLast
  rw [List.reverse_append, List.takeWhile_append_of_pos hname, List.reverse_append,
    List.reverse_reverse]
  simp only [List.length_append, List.length_reverse, Prod.mk.injEq, and_true]
  rw [show p.length + name.length - ((p.reverse.takeWhile (· != '/')).length + name.length) =
    p.length - (p.reverse.takeWhile (· != '/')).length by omega, List.take_append_of_le_length
    (by omega)]

/-- Behind a slash at the end there is no name. -/
theorem splitLast_slash (above : Text) : splitLast (above ++ ['/']) = (above ++ ['/'], []) := by
  simp [splitLast, List.take_of_length_le]

/-- A path is what stands up to its last slash, and a name. -/
theorem exists_name (p : Text) : ∃ head name, p = head ++ name ∧ '/' ∉ name ∧
    (head = [] ∨ ∃ above, head = above ++ ['/']) ∧ splitLast p = (head, name) := by
  induction p using List.reverseRecOn with
  | nil => exact ⟨[], [], rfl, List.not_mem_nil, .inl rfl, rfl⟩
  | append_singleton p c ih =>
      by_cases hc : c = '/'
      · subst hc
        exact ⟨p ++ ['/'], [], by simp, List.not_mem_nil, .inr ⟨p, rfl⟩, splitLast_slash p⟩
      · obtain ⟨head, name, rfl, hname, hhead, hsplit⟩ := ih
        refine ⟨head, name ++ [c], by simp, by simp [hname, Ne.symm hc], hhead, ?_⟩
        rw [splitLast_append (by simp [Ne.symm hc]), hsplit]

/-! ## following a directory and a name -/

theorem walk_slash (a : Anchor) (done : List Text) (p : Text) :
    walk a done (p ++ ['/']) = walk a done p := by
  rw [walk_append_slash, walk_nil]

theorem walk_trimEndWhile (a : Anchor) (done : List Text) (p : Text) :
    walk a done (Text.trimEndWhile (· == '/') p) = walk a done p := by
  induction p using List.reverseRecOn with
  | nil => rfl
  | append_singleton p c ih =>
      rw [Text.trimEndWhile_concat]
      split
      · next hc => rw [ih, beq_iff_eq.mp hc, walk_slash]
      · rfl

theorem walk_of_notMem {name : Text} (h : '/' ∉ name) (a : Anchor) (done : List Text) :
    walk a done name = push a done name := by
  rw [walk, Text.splitOn_of_notMem h]
  rfl

/-- Following a path is following its directory, and its name then. -/
theorem walk_directory (a : Anchor) (done : List Text) (p : Text) :
    walk a done p = push a (walk a done (directory p)) (fileName p) := by
  obtain ⟨head, name, rfl, hname, hhead, hsplit⟩ := exists_name p
  have hdirectory : walk a done (directory (head ++ name)) = walk a done head := by
    rw [directory, hsplit]
    simp only
    split
    · rfl
    · exact walk_trimEndWhile a done head
  rw [hdirectory, fileName, hsplit]
  rcases hhead with rfl | ⟨above, rfl⟩
  · rw [List.nil_append, walk_of_notMem hname, walk_nil]
  · rw [List.append_assoc, List.singleton_append, walk_append_slash, walk_slash,
      walk_of_notMem hname]

theorem head?_directory (p : Text) : (directory p).head? = some '/' ↔ p.head? = some '/' := by
  obtain ⟨head, name, rfl, hname, hhead, hsplit⟩ := exists_name p
  rw [directory, hsplit]
  simp only
  rcases hhead with rfl | ⟨above, rfl⟩
  · cases name with
    | nil => rfl
    | cons c name => simpa using fun heq => hname (by simp [heq])
  · have hhead : (above ++ ['/'] ++ name).head? = (above ++ ['/']).head? := by cases above <;> rfl
    rw [hhead]
    split
    · rfl
    · next hall => rw [Text.head?_trimEndWhile (Bool.eq_false_iff.mpr hall)]

/-- The components of a path are those of its directory, and its name. -/
theorem components_join_directory {wd : Text} (hwd : isAbsolute wd = true) (p : Text) :
    components (join wd p) =
      (push .absolute (components (join wd (directory p))).reverse (fileName p)).reverse := by
  rw [components_join hwd, components_join hwd, List.reverse_reverse]
  by_cases hp : p.head? = some '/'
  · rw [if_pos hp, if_pos ((head?_directory p).mpr hp), walk_directory]
  · rw [if_neg hp, if_neg (mt (head?_directory p).mp hp), walk_directory]

/-- Where a path leads from a directory depends on where the directory is. -/
theorem located_join_congr {wd d e : Text} (hwd : isAbsolute wd = true)
    (h : components (join wd d) = components (join wd e)) (p : Text) :
    located wd (join d p) = located wd (join e p) := by
  by_cases hp : p.head? = some '/'
  · rw [join_of_head? hp, join_of_head? hp]
  · rw [located, located, components_join_join hwd hp, components_join_join hwd hp, h]

/-! ## names with something behind them -/

/-- A longer last component leaves the directory alone. -/
theorem directory_append {name : Text} (h : '/' ∉ name) (p : Text) :
    directory (p ++ name) = directory p := by
  rw [directory, directory, splitLast_append h]

/-- A name with more than two characters behind it is an ordinary one. -/
theorem push_append_name (done : List Text) {name tail : Text} (h : 2 < tail.length) :
    push .absolute done (name ++ tail) = (name ++ tail) :: done := by
  have hlength : ∀ {t : Text}, t.length ≤ 2 → name ++ tail ≠ t := by
    rintro _ ht rfl
    rw [List.length_append] at ht
    omega
  have htrace : ¬ (name ++ tail = [] ∨ name ++ tail = ['.']) :=
    not_or.mpr ⟨hlength (by simp), hlength (by simp)⟩
  have hup : name ++ tail ≠ up := hlength (by decide)
  simp only [push, if_neg htrace, if_neg hup]

/-- Two paths with the same behind their names have one location only if they had
it without that, and then their directories are one. -/
theorem located_append {wd p q tail : Text} (hwd : isAbsolute wd = true) (htail : '/' ∉ tail)
    (hlength : 2 < tail.length) (h : located wd (p ++ tail) = located wd (q ++ tail)) :
    located wd p = located wd q ∧
      components (join wd (directory p)) = components (join wd (directory q)) := by
  have hname : ∀ p, fileName (p ++ tail) = fileName p ++ tail := fun p => by
    rw [fileName, splitLast_append htail, fileName]
  have hcomponents := components_eq_of_located_eq h
  rw [components_join_directory hwd (p ++ tail), components_join_directory hwd (q ++ tail),
    hname, hname, directory_append htail, directory_append htail, push_append_name _ hlength,
    push_append_name _ hlength, List.reverse_inj, List.cons.injEq, List.append_cancel_right_eq,
    List.reverse_inj] at hcomponents
  obtain ⟨hfile, hdirectory⟩ := hcomponents
  refine ⟨?_, hdirectory⟩
  rw [located, located, components_join_directory hwd p, components_join_directory hwd q, hfile,
    hdirectory]

end Path

end SourceMerge
