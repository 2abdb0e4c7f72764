import SourceMerge.Proofs.Mapping.Reference

/-!
# SourceMerge.Proofs.Mapping.Comment

The grammar of the comments that name a map, and the reader that goes by it.
`NamesMap name left line` says that a line begins with a comment that names `name`,
and that `left` is what stands behind the comment; `readReference?_eq_some` says that
this is what the reader finds.  In a text the last line counts that begins with such a
comment, and the text without the comment is the text with that line cut down to what
stands behind it (`findReference?_eq_some`).
-/

namespace SourceMerge.Mapping

open Text (span_append exists_run)

/-! ## the grammar -/

/-- A run of spaces and tabs. -/
def Gap (t : Text) : Prop := ∀ c ∈ t, isGap c = true

/-- What stands between the opener of a comment and the name of a map. -/
def Lead (t : Text) : Prop :=
  ∃ mark gap, (mark = '#' ∨ mark = '@') ∧ Gap gap ∧ t = mark :: (gap ++ referenceKey)

/-- A name of a map holds no white space. -/
def IsName (t : Text) : Prop := t ≠ [] ∧ ∀ c ∈ t, Text.isBlank c = false

/-- A line begins with a comment that names a map. -/
inductive NamesMap (name left : Text) : Text → Prop
  /-- A line comment: the name runs to the first white space, and the comment to the
  end of the line. -/
  | line {indent lead rest tail : Text} (hindent : Gap indent) (hlead : Lead lead)
      (hname : IsName name) (hblank : ∀ c ∈ rest.head?, Text.isBlank c = true)
      (hrest : '\n' ∉ rest) (htail : ∀ c ∈ tail.head?, c = '\n') (hleft : left = dropLineEnd tail) :
      NamesMap name left (indent ++ '/' :: '/' :: (lead ++ (name ++ (rest ++ tail))))
  /-- A block comment: the name is the shortest one behind which the comment can end,
  and the comment takes the spaces behind it and a line end with it. -/
  | block {indent lead gap behind tail : Text} (hindent : Gap indent) (hlead : Lead lead)
      (hname : IsName name) (hshort : ∀ v w, v ≠ [] → name ≠ v ++ '*' :: '/' :: w) (hgap : Gap gap)
      (hbehind : Gap behind) (htail : ∀ c ∈ tail.head?, isGap c = false)
      (hleft : left = dropLineEnd tail) :
      NamesMap name left
        (indent ++ '/' :: '*' :: (lead ++ (name ++ (gap ++ '*' :: '/' :: (behind ++ tail)))))

/-- A text that may end with a line feed and holds no other. -/
def OneLine (t : Text) : Prop := ∃ body, '\n' ∉ body ∧ (t = body ∨ t = body ++ ['\n'])

theorem OneLine.append {s t : Text} (hs : '\n' ∉ s) (ht : OneLine t) : OneLine (s ++ t) := by
  obtain ⟨body, hbody, ht⟩ := ht
  refine ⟨s ++ body, by simp [hs, hbody], ht.imp (by rw [·]) fun hfeed => ?_⟩
  rw [hfeed, List.append_assoc]

theorem Gap.notMem {t : Text} (h : Gap t) : '\n' ∉ t := fun hmem => by
  have hgap := h '\n' hmem
  contradiction

theorem Lead.notMem {t : Text} (h : Lead t) : '\n' ∉ t := by
  obtain ⟨mark, gap, hmark, hgap, rfl⟩ := h
  have hkey : '\n' ∉ referenceKey := by decide
  have hne : '\n' ≠ mark := by rcases hmark with rfl | rfl <;> decide
  simp [hne, hgap.notMem, hkey]

theorem IsName.notMem {t : Text} (h : IsName t) : '\n' ∉ t := fun hmem => by
  have hblank := h.2 '\n' hmem
  contradiction

/-- What a line end is dropped from. -/
theorem exists_dropLineEnd (t : Text) : ∃ ending, t = ending ++ dropLineEnd t ∧ OneLine ending := by
  fun_cases dropLineEnd t with
  | case1 rest => exact ⟨['\n'], rfl, [], by simp, .inr rfl⟩
  | case2 rest => exact ⟨['\r', '\n'], rfl, ['\r'], by decide, .inr rfl⟩
  | case3 => exact ⟨[], rfl, [], by simp, .inl rfl⟩

/-- A line is its comment and what stands behind it. -/
theorem NamesMap.exists_comment {name left line : Text} (h : NamesMap name left line) :
    ∃ comment, line = comment ++ left ∧ comment ≠ [] ∧ OneLine comment := by
  cases h with
  | @line indent lead rest tail hindent hlead hname _ hrest _ hleft =>
      obtain ⟨ending, hending, hone⟩ := exists_dropLineEnd tail
      refine ⟨(indent ++ '/' :: '/' :: (lead ++ (name ++ rest))) ++ ending, ?_, by simp,
        .append ?_ hone⟩
      · generalize dropLineEnd tail = u at hending hleft
        simp [hending, hleft]
      · simp [hindent.notMem, hlead.notMem, hname.notMem, hrest]
  | @block indent lead gap behind tail hindent hlead hname _ hgap hbehind _ hleft =>
      obtain ⟨ending, hending, hone⟩ := exists_dropLineEnd tail
      refine ⟨(indent ++ '/' :: '*' :: (lead ++ (name ++ (gap ++ '*' :: '/' :: behind)))) ++ ending,
        ?_, by simp, .append ?_ hone⟩
      · generalize dropLineEnd tail = u at hending hleft
        simp [hending, hleft]
      · simp [hindent.notMem, hlead.notMem, hname.notMem, hgap.notMem, hbehind.notMem]

/-! ## what the reader takes apart -/

theorem afterKey?_eq_some {t u : Text} : afterKey? t = some u ↔ ∃ lead, Lead lead ∧ t = lead ++ u := by
  constructor
  · intro h
    cases t with
    | nil => contradiction
    | cons mark rest =>
        rw [afterKey?, Option.ite_none_right_eq_some, Text.dropStart?,
          Option.ite_none_right_eq_some, Option.some.injEq] at h
        obtain ⟨hmark, hkey, rfl⟩ := h
        obtain ⟨gap, key, rfl, hgap, hstop⟩ := exists_run isGap rest
        rw [(span_append hgap hstop).2] at hkey ⊢
        obtain ⟨u, rfl⟩ := List.isPrefixOf_iff_prefix.mp hkey
        refine ⟨_, ⟨mark, gap, hmark, hgap, rfl⟩, ?_⟩
        rw [List.drop_left, List.cons_append, List.append_assoc]
  · rintro ⟨_, ⟨mark, gap, hmark, hgap, rfl⟩, rfl⟩
    have hkey : ∀ c ∈ (referenceKey ++ u).head?, isGap c = false := by
      intro c hc
      obtain rfl : 's' = c := Option.some.inj hc
      rfl
    rw [List.cons_append, List.append_assoc, afterKey?, if_pos hmark,
      (span_append hgap hkey).2,
      Text.dropStart?_append]

/-- A comment can end where a gap is left behind. -/
theorem dropWhile_isGap_eq {t after : Text} :
    t.dropWhile isGap = '*' :: '/' :: after ↔ ∃ gap, Gap gap ∧ t = gap ++ '*' :: '/' :: after := by
  constructor
  · intro h
    obtain ⟨gap, rest, rfl, hgap, hstop⟩ := exists_run isGap t
    exact ⟨gap, hgap, by rw [← h, (span_append hgap hstop).2]⟩
  · rintro ⟨gap, hgap, rfl⟩
    refine (span_append hgap fun c hc => ?_).2
    obtain rfl : '*' = c := Option.some.inj hc
    rfl

/-- A comment cannot end in front of a name, unless the name begins with its end. -/
theorem dropWhile_isGap_name_ne {name gap after : Text} (hname : IsName name)
    (hopen : ∀ w, name ≠ '*' :: '/' :: w) (hgap : Gap gap) (u : Text) :
    (name ++ (gap ++ '*' :: '/' :: after)).dropWhile isGap ≠ '*' :: '/' :: u := by
  obtain ⟨c, name, rfl⟩ := List.exists_cons_of_ne_nil hname.1
  have hfirst : isGap c = false := isGap_of_not_blank (hname.2 c List.mem_cons_self)
  rw [List.cons_append, List.dropWhile_cons_of_neg (by simp [hfirst])]
  intro heq
  obtain ⟨rfl, hrest⟩ := List.cons.inj heq
  cases name with
  | cons d name =>
      obtain ⟨rfl, -⟩ := List.cons.inj hrest
      exact hopen name rfl
  | nil =>
      cases gap with
      | nil => simp at hrest
      | cons g gap =>
          obtain ⟨rfl, -⟩ := List.cons.inj hrest
          have hslash := hgap '/' List.mem_cons_self
          contradiction

/-- **The name in a block comment** is the shortest one behind which the comment can
end. -/
theorem blockName?_eq_some {before t name after : Text} :
    blockName? before t = some (name, after) ↔ ∃ word gap, name = before.reverse ++ word ∧
      IsName word ∧ (∀ v w, v ≠ [] → word ≠ v ++ '*' :: '/' :: w) ∧ Gap gap ∧
      t = word ++ (gap ++ '*' :: '/' :: after) := by
  induction t generalizing before with
  | nil =>
      refine ⟨fun h => by contradiction, ?_⟩
      rintro ⟨word, gap, -, hword, -, -, ht⟩
      simp at ht
  | cons c t ih =>
      -- A name that is found begins with the character at hand.
      have hfirst : ∀ {word rest : Text}, IsName word → c :: t = word ++ rest →
          Text.isBlank c = false ∧ ∃ more, word = c :: more ∧ t = more ++ rest := by
        intro word rest hword ht
        obtain ⟨d, more, rfl⟩ := List.exists_cons_of_ne_nil hword.1
        obtain ⟨rfl, hmore⟩ := List.cons.inj ht
        exact ⟨hword.2 c List.mem_cons_self, more, rfl, hmore⟩
      have htail : ∀ {more : Text}, IsName (c :: more) → more ≠ [] → IsName more := fun hword hne =>
        ⟨hne, fun d hd => hword.2 d (List.mem_cons_of_mem c hd)⟩
      rw [blockName?]
      cases hblank : Text.isBlank c with
      | true =>
          refine ⟨fun h => by contradiction, ?_⟩
          rintro ⟨word, gap, -, hword, -, -, ht⟩
          rw [(hfirst hword ht).1] at hblank
          contradiction
      | false =>
          rw [if_neg Bool.false_ne_true]
          split
          · next found hend =>
            rw [Option.some.injEq, Prod.mk.injEq]
            constructor
            · rintro ⟨rfl, rfl⟩
              obtain ⟨gap, hgap, ht⟩ := dropWhile_isGap_eq.mp hend
              refine ⟨[c], gap, by simp, ⟨by simp, by simpa using hblank⟩, ?_, hgap, by rw [ht]; rfl⟩
              intro v w hv heq
              have hlength := congrArg List.length heq
              have := List.length_pos_iff.mpr hv
              simp only [List.length_append, List.length_cons, List.length_nil] at hlength
              omega
            · rintro ⟨word, gap, rfl, hword, hshort, hgap, ht⟩
              obtain ⟨-, more, rfl, rfl⟩ := hfirst hword ht
              by_cases hmore : more = []
              · subst hmore
                obtain ⟨-, hsame⟩ : gap = gap ∧ '*' :: '/' :: after = '*' :: '/' :: found :=
                  ⟨rfl, (dropWhile_isGap_eq.mpr ⟨gap, hgap, rfl⟩).symm.trans hend⟩
                simpa using hsame.symm
              · exact absurd hend (dropWhile_isGap_name_ne (htail hword hmore)
                  (fun w heq => hshort [c] w (by simp) (by rw [heq]; rfl)) hgap found)
          · next hgo =>
            rw [ih]
            constructor
            · rintro ⟨word, gap, rfl, hword, hshort, hgap, rfl⟩
              refine ⟨c :: word, gap, by simp, ⟨by simp, ?_⟩, ?_, hgap, rfl⟩
              · rw [List.forall_mem_cons]
                exact ⟨hblank, hword.2⟩
              · intro v w hv heq
                obtain ⟨d, v, rfl⟩ := List.exists_cons_of_ne_nil hv
                obtain ⟨rfl, rfl⟩ := List.cons.inj heq
                by_cases hne : v = []
                · subst hne
                  exact hgo _ (dropWhile_isGap_eq.mpr ⟨[], by simp [Gap], rfl⟩)
                · exact hshort v w hne rfl
            · rintro ⟨word, gap, rfl, hword, hshort, hgap, ht⟩
              obtain ⟨-, more, rfl, rfl⟩ := hfirst hword ht
              have hmore : more ≠ [] := by
                rintro rfl
                exact hgo after (dropWhile_isGap_eq.mpr ⟨gap, hgap, rfl⟩)
              refine ⟨more, gap, by simp, htail hword hmore, fun v w hv heq => ?_, hgap, rfl⟩
              exact hshort (c :: v) w (by simp) (by rw [heq]; rfl)

/-- The reader finds the comments of the grammar only. -/
theorem namesMap_of_readReference? {line name left : Text}
    (h : readReference? line = some (name, left)) : NamesMap name left line := by
  obtain ⟨indent, opener, rfl, hindent, hstop⟩ := exists_run isGap line
  rw [readReference?, (span_append hindent hstop).2] at h
  split at h
  · split at h
    · contradiction
    · next t hkey =>
      obtain ⟨lead, hlead, rfl⟩ := afterKey?_eq_some.mp hkey
      obtain ⟨word, behind, rfl, hword, hblank⟩ := exists_run (!Text.isBlank ·) t
      obtain ⟨rest, tail, rfl, hrest, htail⟩ := exists_run (· != '\n') behind
      simp only [(span_append hword hblank).1, List.drop_left, (span_append hrest htail).2,
        Option.ite_none_left_eq_some, Option.some.injEq, Prod.mk.injEq] at h
      obtain ⟨hne, rfl, rfl⟩ := h
      refine .line hindent hlead ⟨hne, fun c hc => by simpa using hword c hc⟩ (fun c hc => ?_)
        (fun hfeed => ?_) (fun c hc => by simpa using htail c hc) rfl
      · cases rest with
        | nil => simp at hc
        | cons d rest => simpa using hblank c hc
      · simpa using hrest '\n' hfeed
  · split at h
    · contradiction
    · next t hkey =>
      obtain ⟨lead, hlead, rfl⟩ := afterKey?_eq_some.mp hkey
      obtain ⟨⟨found, after⟩, hfound, heq⟩ := Option.map_eq_some_iff.mp h
      obtain ⟨rfl, rfl⟩ := Prod.mk.inj heq
      obtain ⟨word, gap, rfl, hword, hshort, hgap, rfl⟩ := blockName?_eq_some.mp hfound
      obtain ⟨behind, tail, rfl, hbehind, htail⟩ := exists_run isGap after
      exact .block hindent hlead hword hshort hgap hbehind htail
        (by rw [(span_append hbehind htail).2])
  · contradiction

/-- The reader finds every comment of the grammar. -/
theorem readReference?_of_namesMap {line name left : Text} (h : NamesMap name left line) :
    readReference? line = some (name, left) := by
  have hslash : ∀ {rest : Text}, ∀ c ∈ ('/' :: rest).head?, isGap c = false := by
    intro rest c hc
    obtain rfl : '/' = c := Option.some.inj hc
    rfl
  cases h with
  | @line indent lead rest tail hindent hlead hname hblank hrest htail hleft =>
      have hstop : ∀ c ∈ (rest ++ tail).head?, (!Text.isBlank c) = false := by
        intro c hc
        cases rest with
        | nil =>
            rw [htail c hc]
            rfl
        | cons d rest => simp [hblank c hc]
      have hword : (name ++ (rest ++ tail)).takeWhile (!Text.isBlank ·) = name :=
        (span_append (fun c hc => by simp [hname.2 c hc]) hstop).1
      have hline : (rest ++ tail).dropWhile (· != '\n') = tail := by
        refine (span_append (fun c hc => bne_iff_ne.mpr ?_) fun c hc => ?_).2
        · rintro rfl
          exact hrest hc
        · rw [htail c hc]
          rfl
      rw [readReference?, (span_append hindent hslash).2]
      simp only [afterKey?_eq_some.mpr ⟨lead, hlead, rfl⟩, hword, if_neg hname.1, List.drop_left,
        hline, hleft]
  | @block indent lead gap behind tail hindent hlead hname hshort hgap hbehind htail hleft =>
      have hfound : blockName? [] (name ++ (gap ++ '*' :: '/' :: (behind ++ tail))) =
          some (name, behind ++ tail) :=
        blockName?_eq_some.mpr ⟨name, gap, rfl, hname, hshort, hgap, rfl⟩
      rw [readReference?, (span_append hindent hslash).2]
      simp only [afterKey?_eq_some.mpr ⟨lead, hlead, rfl⟩, hfound, Option.map_some,
        (span_append hbehind htail).2, hleft]

/-- **The reader goes by the grammar.** -/
theorem readReference?_eq_some {line name left : Text} :
    readReference? line = some (name, left) ↔ NamesMap name left line :=
  ⟨namesMap_of_readReference?, readReference?_of_namesMap⟩

theorem readReference?_eq_none {line : Text} :
    readReference? line = none ↔ ∀ name left, ¬ NamesMap name left line := by
  rw [Option.eq_none_iff_forall_ne_some]
  exact ⟨fun h name left hnames => h (name, left) (readReference?_of_namesMap hnames),
    fun h found heq => h found.1 found.2 (namesMap_of_readReference? heq)⟩

/-! ## the last comment of a text -/

/-- `cleaned` is a text without the last of its comments that name a map; that
comment names `name`. -/
def WithoutReference (t name cleaned : Text) : Prop :=
  ∃ earlier comment left later, linesWithEnds t = earlier ++ (comment ++ left) :: later ∧
    NamesMap name left (comment ++ left) ∧
    (∀ line ∈ later, ∀ name left, ¬ NamesMap name left line) ∧
    cleaned = earlier.flatten ++ (left ++ later.flatten)

theorem lastReference?_eq_none {lines : List Text} :
    lastReference? lines = none ↔ ∀ line ∈ lines, readReference? line = none := by
  induction lines with
  | nil => simp [lastReference?]
  | cons line lines ih =>
      rw [lastReference?, List.forall_mem_cons]
      cases hlast : lastReference? lines with
      | none =>
          simp only [Option.map_eq_none_iff]
          exact ⟨fun h => ⟨h, ih.mp hlast⟩, And.left⟩
      | some found =>
          refine ⟨fun h => by contradiction, fun h => ?_⟩
          rw [ih.mpr h.2] at hlast
          contradiction

theorem lastReference?_eq_some {lines : List Text} {name cleaned : Text} :
    lastReference? lines = some (name, cleaned) ↔ ∃ earlier line left later,
      lines = earlier ++ line :: later ∧ readReference? line = some (name, left) ∧
        lastReference? later = none ∧ cleaned = earlier.flatten ++ (left ++ later.flatten) := by
  constructor
  · intro h
    induction lines generalizing cleaned with
    | nil => contradiction
    | cons line lines ih =>
        rw [lastReference?] at h
        cases hlast : lastReference? lines with
        | some found =>
            obtain ⟨rfl, rfl⟩ : found.1 = name ∧ line ++ found.2 = cleaned := by simpa [hlast] using h
            obtain ⟨earlier, line', left, later, rfl, hline, hlater, heq⟩ := ih hlast
            exact ⟨line :: earlier, line', left, later, rfl, hline, hlater, by simp [heq]⟩
        | none =>
            simp only [hlast, Option.map_eq_some_iff, Prod.mk.injEq] at h
            obtain ⟨⟨_, left⟩, hline, rfl, rfl⟩ := h
            exact ⟨[], line, left, lines, rfl, hline, hlast, rfl⟩
  · rintro ⟨earlier, line, left, later, rfl, hline, hlater, rfl⟩
    induction earlier with
    | nil => simp [lastReference?, hlater, hline]
    | cons first earlier ih => simp [lastReference?, ih]

theorem findReference?_eq_none {t : Text} :
    findReference? t = none ↔ ∀ line ∈ linesWithEnds t, ∀ name left, ¬ NamesMap name left line := by
  simp only [findReference?, lastReference?_eq_none, readReference?_eq_none]

/-- **The reference of a text** is the last of its comments that name a map. -/
theorem findReference?_eq_some {t name cleaned : Text} :
    findReference? t = some (name, cleaned) ↔ WithoutReference t name cleaned := by
  rw [findReference?, lastReference?_eq_some]
  simp only [lastReference?_eq_none, readReference?_eq_none, readReference?_eq_some]
  constructor
  · rintro ⟨earlier, line, left, later, hlines, hnames, hlater, hcleaned⟩
    obtain ⟨comment, rfl, -⟩ := hnames.exists_comment
    exact ⟨earlier, comment, left, later, hlines, hnames, hlater, hcleaned⟩
  · rintro ⟨earlier, comment, left, later, hlines, hnames, hlater, hcleaned⟩
    exact ⟨earlier, comment ++ left, left, later, hlines, hnames, hlater, hcleaned⟩

end SourceMerge.Mapping
