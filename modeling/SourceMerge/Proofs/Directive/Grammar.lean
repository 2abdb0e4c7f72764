import SourceMerge.Proofs.Directive.Seams

/-!
# SourceMerge.Proofs.Directive.Grammar

The grammar of directives, said without the reader.

```
marker ( " body " ) ;? (\n | \r\n)?
body   = any character but a quote and a backslash
       | a backslash and any character but a line feed
```

A body ends at the first quote that no backslash takes, so at each place one body is
possible at most (`Body.unique`); and the end of a directive takes all that it can.
With both, what can be read at a place is a matter of the text there
(`read?_eq_some_iff`), and scanning is nothing but going from one such place to the
next (`Scanned`): it starts with the leftmost one and goes on behind it.
-/

namespace SourceMerge.Directive

/-! ## the grammar -/

/-- What may stand between the quotes of a directive. -/
inductive Body : Text → Prop where
  | nil : Body []
  | plain {c : Char} {rest : Text} : c ≠ '"' → c ≠ '\\' → Body rest → Body (c :: rest)
  | escaped {c : Char} {rest : Text} : c ≠ '\n' → Body rest → Body ('\\' :: c :: rest)

/-- A text begins with a directive of this body, up to its closing bracket. -/
def Opens (marker body t : Text) : Prop := Body body ∧ core marker body <+: t

/-- The line end that a text begins with, if it begins with one. -/
inductive LineEnd : Text → Text → Prop where
  | lf {after : Text} : LineEnd ('\n' :: after) ['\n']
  | crlf {after : Text} : LineEnd ('\r' :: '\n' :: after) ['\r', '\n']
  | none {t : Text} : (∀ after, t ≠ '\n' :: after) → (∀ after, t ≠ '\r' :: '\n' :: after) →
      LineEnd t []

/-- The end of a directive, in a text that follows its closing bracket: a semicolon if
there is one, and behind it a line end if there is one. -/
inductive Ending : Text → Text → Prop where
  | semicolon {t line : Text} : LineEnd t line → Ending (';' :: t) (';' :: line)
  | none {t line : Text} : (∀ after, t ≠ ';' :: after) → LineEnd t line → Ending t line

/-- The directive at the offset `m.first` of a text ends at `m.last`, and its body is
its reference. -/
structure Placed (marker t : Text) (m : Match) : Prop where
  opens : Opens marker m.reference (t.drop m.first)
  last : ∃ ending, Ending (t.drop (m.first + (core marker m.reference).length)) ending ∧
    m.last = m.first + (core marker m.reference).length + ending.length

/-- What a scan finds from an offset on: the directive at the smallest offset where one
opens, and then what a scan finds from its end on. -/
inductive Scanned (marker t : Text) : Nat → List Match → Prop where
  | done {start : Nat} : (∀ i, start ≤ i → ∀ body, ¬ Opens marker body (t.drop i)) →
      Scanned marker t start []
  | found {start : Nat} {m : Match} {ms : List Match} : start ≤ m.first →
      (∀ i, start ≤ i → i < m.first → ∀ body, ¬ Opens marker body (t.drop i)) →
      Placed marker t m → Scanned marker t m.last ms → Scanned marker t start (m :: ms)

/-! ## bodies -/

/-- What is read as a reference is a body. -/
theorem body_of_reference? {t body after : Text} (h : reference? t = some (body, after)) :
    Body body := by
  fun_induction reference? t generalizing body after with
  | case1 rest =>
      obtain ⟨rfl, -⟩ := Prod.mk.inj (Option.some.inj h)
      exact .nil
  | case2 => contradiction
  | case3 => contradiction
  | case4 c rest hc ih =>
      obtain ⟨⟨inner, rest'⟩, hinner, heq⟩ := Option.map_eq_some_iff.mp h
      obtain ⟨rfl, -⟩ := Prod.mk.inj heq
      exact .escaped hc (ih hinner)
  | case5 => contradiction
  | case6 c rest hclose hquote hpair hlast ih =>
      obtain ⟨⟨inner, rest'⟩, hinner, heq⟩ := Option.map_eq_some_iff.mp h
      obtain ⟨rfl, -⟩ := Prod.mk.inj heq
      have hslash : c ≠ '\\' := fun hc => by
        cases rest with
        | nil => exact hlast hc rfl
        | cons next rest => exact hpair next rest hc rfl
      exact .plain (by simpa using hquote) hslash (ih hinner)
  | case7 => contradiction

/-- Every body is read as a reference, whatever follows the closing bracket. -/
theorem Body.reference? {body : Text} (h : Body body) (after : Text) :
    Directive.reference? (body ++ '"' :: ')' :: after) = some (body, after) := by
  induction h with
  | nil => rfl
  | plain hquote hslash _ ih =>
      rw [List.cons_append, reference?_cons hquote hslash, ih]
      rfl
  | escaped hc _ ih => simp [Directive.reference?, hc, ih]

theorem reference?_eq_some_iff {t body after : Text} :
    reference? t = some (body, after) ↔ Body body ∧ t = body ++ '"' :: ')' :: after := by
  constructor
  · intro h
    exact ⟨body_of_reference? h, eq_of_reference? h⟩
  · rintro ⟨hbody, rfl⟩
    exact hbody.reference? after

/-- **At most one body** is possible at each place. -/
theorem Opens.unique {marker body body' t : Text} (h : Opens marker body t)
    (h' : Opens marker body' t) : body = body' := by
  obtain ⟨hbody, after, rfl⟩ := h
  obtain ⟨hbody', after', heq⟩ := h'
  have hrest : body ++ '"' :: ')' :: after = body' ++ '"' :: ')' :: after' := by
    simpa [core] using heq.symm
  have hread := hbody.reference? after
  rw [hrest, hbody'.reference? after'] at hread
  exact (Prod.mk.inj (Option.some.inj hread)).1.symm

/-! ## the end of a directive -/

theorem exists_lineEnd (t : Text) : ∃ line, LineEnd t line := by
  by_cases hlf : ∃ after, t = '\n' :: after
  · obtain ⟨after, rfl⟩ := hlf
    exact ⟨['\n'], .lf⟩
  · by_cases hcrlf : ∃ after, t = '\r' :: '\n' :: after
    · obtain ⟨after, rfl⟩ := hcrlf
      exact ⟨['\r', '\n'], .crlf⟩
    · exact ⟨[], .none (not_exists.mp hlf) (not_exists.mp hcrlf)⟩

theorem exists_ending (t : Text) : ∃ ending, Ending t ending := by
  by_cases hsemicolon : ∃ after, t = ';' :: after
  · obtain ⟨after, rfl⟩ := hsemicolon
    obtain ⟨line, hline⟩ := exists_lineEnd after
    exact ⟨';' :: line, .semicolon hline⟩
  · obtain ⟨line, hline⟩ := exists_lineEnd t
    exact ⟨line, .none (not_exists.mp hsemicolon) hline⟩

theorem Ending.eq_tail {t ending : Text} (h : Ending t ending) : ending = tail t := by
  cases h with
  | semicolon hline =>
      cases hline with
      | lf => rfl
      | crlf => rfl
      | none hlf hcrlf => simp [tail]
  | none hsemicolon hline =>
      cases hline with
      | lf => rfl
      | crlf => rfl
      | none hlf hcrlf => simp [tail]

/-- **The end of a directive** is as long as the grammar allows. -/
theorem ending_iff {t ending : Text} : Ending t ending ↔ ending = tail t := by
  constructor
  · exact Ending.eq_tail
  · rintro rfl
    obtain ⟨ending, h⟩ := exists_ending t
    rwa [← h.eq_tail]

/-! ## what is read at a place -/

/-- **Reading a directive**: a body that opens there, and the end behind it. -/
theorem read?_eq_some_iff {marker t : Text} {d : Directive} :
    read? marker t = some d ↔ Opens marker d.reference t ∧
      d.lexeme = core marker d.reference ++ tail (t.drop (core marker d.reference).length) := by
  constructor
  · intro h
    unfold read? at h
    cases hdrop : Text.dropStart? (marker ++ ['(', '"']) t with
    | none => simp [hdrop] at h
    | some rest =>
        cases href : reference? rest with
        | none => simp [hdrop, href] at h
        | some found =>
            obtain ⟨body, after⟩ := found
            simp only [hdrop, href, Option.some.injEq] at h
            subst h
            obtain ⟨hbody, rfl⟩ := reference?_eq_some_iff.mp href
            have ht : t = core marker body ++ after := by
              rw [Text.eq_of_dropStart? hdrop]
              simp [core]
            refine ⟨⟨hbody, after, ht.symm⟩, ?_⟩
            rw [ht, List.drop_left]
            simp [core]
  · rintro ⟨⟨hbody, after, rfl⟩, hlexeme⟩
    have ht : core marker d.reference ++ after =
        (marker ++ ['(', '"']) ++ (d.reference ++ '"' :: ')' :: after) := by simp [core]
    rw [List.drop_left] at hlexeme
    simp only [read?, ht, Text.dropStart?_append, hbody.reference? after, Option.some.injEq]
    obtain ⟨lexeme, reference⟩ := d
    simp only at hlexeme ⊢
    rw [hlexeme]
    simp [core]

theorem read?_eq_none_iff {marker t : Text} :
    read? marker t = none ↔ ∀ body, ¬ Opens marker body t := by
  constructor
  · intro hnone body hopens
    have hsome : read? marker t =
        some ⟨core marker body ++ tail (t.drop (core marker body).length), body⟩ :=
      read?_eq_some_iff.mpr ⟨hopens, rfl⟩
    rw [hnone] at hsome
    contradiction
  · intro hfree
    cases hread : read? marker t with
    | none => rfl
    | some d => exact absurd (read?_eq_some_iff.mp hread).1 (hfree d.reference)

/-- A directive that is read at an offset is placed there. -/
theorem placed_of_read? {marker t : Text} {d : Directive} {i : Nat}
    (h : read? marker (t.drop i) = some d) :
    Placed marker t ⟨i, i + d.lexeme.length, d.reference⟩ := by
  obtain ⟨hopens, hlexeme⟩ := read?_eq_some_iff.mp h
  refine ⟨hopens, tail (t.drop (i + (core marker d.reference).length)), ending_iff.mpr rfl, ?_⟩
  rw [hlexeme, List.drop_drop, List.length_append]
  exact (Nat.add_assoc _ _ _).symm

/-- Where a match begins determines it. -/
theorem Placed.unique {marker t : Text} {m m' : Match} (h : Placed marker t m)
    (h' : Placed marker t m') (hfirst : m.first = m'.first) : m = m' := by
  obtain ⟨first, last, body⟩ := m
  obtain ⟨first', last', body'⟩ := m'
  obtain rfl : first = first' := hfirst
  obtain rfl : body = body' := h.opens.unique h'.opens
  obtain ⟨ending, hending, hlast⟩ := h.last
  obtain ⟨ending', hending', hlast'⟩ := h'.last
  obtain rfl : ending = ending' := hending.eq_tail.trans hending'.eq_tail.symm
  rw [Match.mk.injEq]
  exact ⟨rfl, hlast.trans hlast'.symm, rfl⟩

theorem Placed.first_lt_last {marker t : Text} {m : Match} (h : Placed marker t m) :
    m.first < m.last := by
  obtain ⟨ending, -, hlast⟩ := h.last
  have hcore : 0 < (core marker m.reference).length :=
    List.length_pos_iff.mpr (core_ne_nil marker m.reference)
  omega

/-! ## scanning -/

/-- A place where nothing opens is passed over. -/
theorem Scanned.of_succ {marker t : Text} {start : Nat} {ms : List Match}
    (hfree : ∀ body, ¬ Opens marker body (t.drop start)) (h : Scanned marker t (start + 1) ms) :
    Scanned marker t start ms := by
  have hpass : ∀ i, start ≤ i → (start + 1 ≤ i → ∀ body, ¬ Opens marker body (t.drop i)) →
      ∀ body, ¬ Opens marker body (t.drop i) := by
    intro i hi hlater
    by_cases hstart : i = start
    · rw [hstart]
      exact hfree
    · exact hlater (by omega)
  cases h with
  | done hnone => exact .done fun i hi => hpass i hi (hnone i)
  | found hfirst hleft hplaced hrest =>
      exact .found (by omega) (fun i hi hlt => hpass i hi fun hlater => hleft i hlater hlt) hplaced
        hrest

/-- From a cut of the tokens on, the directives behind it are what a scan finds. -/
theorem scanned_cut {marker t : Text} {before after : List Token}
    (h : scan marker t = before ++ after) :
    Scanned marker t (lexemes before).length (matchesFrom (lexemes before).length after) := by
  induction after generalizing before with
  | nil =>
      refine .done fun i hi => read?_eq_none_iff.mp ?_
      have hend : t.drop i = [] := by
        have ht := eq_append_cut h
        rw [lexemes_nil, List.append_nil] at ht
        rw [ht]
        exact List.drop_eq_nil_of_le hi
      rw [hend]
      simp [read?, Text.dropStart?]
  | cons token after ih =>
      have hmoved : scan marker t = (before ++ [token]) ++ after := by simpa using h
      have hnext := ih hmoved
      cases token with
      | plain c =>
          have hfree := read?_eq_none_iff.mp (read?_cut_plain h)
          rw [lexemes_append, List.length_append] at hnext
          exact .of_succ hfree hnext
      | directive d =>
          have hplaced := placed_of_read? (read?_cut_directive h)
          rw [lexemes_append, List.length_append, lexemes_directive, lexemes_nil,
            List.append_nil] at hnext
          exact .found (Nat.le_refl _) (fun i hi hlt => absurd hi (Nat.not_le_of_lt hlt)) hplaced
            hnext

/-- A scan finds one list of matches. -/
theorem Scanned.unique {marker t : Text} {start : Nat} {ms ms' : List Match}
    (h : Scanned marker t start ms) (h' : Scanned marker t start ms') : ms = ms' := by
  induction h generalizing ms' with
  | done hnone =>
      cases h' with
      | done _ => rfl
      | found hfirst _ hplaced _ => exact absurd hplaced.opens (hnone _ hfirst _)
  | @found start m ms hfirst hleft hplaced _ ih =>
      cases h' with
      | done hnone => exact absurd hplaced.opens (hnone _ hfirst _)
      | @found _ m' ms' hfirst' hleft' hplaced' hrest' =>
          have hforth : ¬ m.first < m'.first := fun hlt =>
            hleft' _ hfirst hlt _ hplaced.opens
          have hback : ¬ m'.first < m.first := fun hlt =>
            hleft _ hfirst' hlt _ hplaced'.opens
          obtain rfl : m = m' := hplaced.unique hplaced' (by omega)
          rw [ih hrest']

/-- **The directives of a text are those of the grammar.**  `findAll` lists exactly what
a scan from the left finds, going from each match to the next place where one opens.
At each place one body is possible at most.  Matches have characters, lie in the text,
do not overlap and ascend; and wherever a directive opens, that place is inside of one
of them. -/
theorem findAll_scanned (marker t : Text) :
    (∀ ms, Scanned marker t 0 ms ↔ ms = findAll marker t) ∧
      (∀ i body body', Opens marker body (t.drop i) → Opens marker body' (t.drop i) →
        body = body') ∧
      (∀ m ∈ findAll marker t, m.first < m.last ∧ m.last ≤ t.length) ∧
      (findAll marker t).Pairwise (fun a b => a.last ≤ b.first) ∧
      (∀ i body, Opens marker body (t.drop i) → Covered (findAll marker t) i) := by
  have hscan : Scanned marker t 0 (findAll marker t) :=
    scanned_cut (List.nil_append (scan marker t)).symm
  have hplaced : ∀ m ∈ findAll marker t, Placed marker t m := by
    intro m hm
    obtain ⟨d, hd, hlast, href⟩ := read?_of_mem_findAll hm
    have hat := placed_of_read? hd
    rwa [← hlast, ← href] at hat
  have hinside : ∀ m ∈ findAll marker t, m.last ≤ t.length := by
    intro m hm
    have hbounds := bounds_of_mem_matchesFrom hm
    rw [lexemes_scan] at hbounds
    omega
  refine ⟨fun ms => ⟨fun h => h.unique hscan, ?_⟩, fun i body body' => Opens.unique,
    fun m hm => ⟨(hplaced m hm).first_lt_last, hinside m hm⟩, pairwise_matchesFrom 0 _, ?_⟩
  · rintro rfl
    exact hscan
  · intro i body hopens
    exact Decidable.byContradiction fun hfree =>
      read?_eq_none_iff.mp (read?_of_not_covered hfree) body hopens

end SourceMerge.Directive
