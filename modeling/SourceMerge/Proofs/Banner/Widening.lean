import Mathlib.Data.List.Infix
import SourceMerge.Proofs.Banner.Lines

/-!
# SourceMerge.Proofs.Banner.Widening

What an option adds to a banner.  Kinds *widen* others on a text if all that the others
take away still goes, and maybe more behind it (`Widens`).  The two options differ in
how far they do.

```
every block counts   widens, except behind /**/
line comments count  widens where the block stands on lines that hold //
```

An empty comment has no first character, so a plain banner goes on behind it to the next
closing mark, and the wide one ends before that.  Line comments come first in the choice
between the two shapes of a banner.  A run of no lines is a run, so the block is never
tried then, and it only goes if it is part of the run.
-/

namespace SourceMerge.Banner

/-- What goes with `kinds` goes with `wide` as well: behind the removed text stands what
is removed on top of it. -/
def Widens (kinds wide : BannerKinds) (t : Text) : Prop :=
  ∃ removed more, t = removed ++ strip kinds t ∧ strip kinds t = more ++ strip wide t

/-! ## white space -/

theorem trimStart_suffix (t : Text) : Text.trimStart t <:+ t := List.dropWhile_suffix _

/-- What does not begin with white space is left when white space goes before it. -/
theorem suffix_trimStart {rest t : Text} (h : rest <:+ t)
    (hrest : ∀ c ∈ rest.head?, Text.isBlank c = false) : rest <:+ Text.trimStart t := by
  obtain ⟨before, rfl⟩ := h
  obtain ⟨lead, after, rfl, hskips⟩ := Text.exists_run Text.isBlank before
  rw [List.append_assoc]
  cases after with
  | nil =>
      rw [List.nil_append, trimStart_append ⟨hskips.1, hrest⟩]
  | cons c after =>
      rw [List.cons_append, trimStart_append (skips_cons hskips.1 (hskips.2 c rfl))]
      exact List.suffix_append (c :: after) rest

/-! ## block banners -/

/-- Behind white space a text begins with `banner`: an opener, one character other than
`!` where only plain comments count, and all that follows to the next closing mark. -/
structure BlockBanner (block : Bool) (banner rest t : Text) : Prop where
  text : ∃ lead, Blank lead ∧ t = lead ++ (banner ++ rest)
  banner : ∃ first inside, banner = opener ++ (first ++ (inside ++ closing)) ∧
    ¬ closing <:+: inside ∧ if block then first = [] else ∃ c, c ≠ '!' ∧ first = [c]

theorem afterClose?_eq_some_iff {t rest : Text} :
    afterClose? t = some rest ↔ ∃ inside, ¬ closing <:+: inside ∧ t = inside ++ closing ++ rest := by
  constructor
  · intro h
    obtain ⟨inside, after, hinside, rfl⟩ :=
      exists_first_closing (isSome_afterClose?_iff.mp (Option.isSome_of_eq_some h))
    rw [afterClose?_append hinside] at h
    exact ⟨inside, hinside, by rw [Option.some.inj h]⟩
  · rintro ⟨inside, hinside, rfl⟩
    exact afterClose?_append hinside rest

/-- A banner begins with a slash, so only what stands before it is white space. -/
theorem BlockBanner.trimStart {block : Bool} {banner rest t : Text}
    (h : BlockBanner block banner rest t) : Text.trimStart t = banner ++ rest := by
  obtain ⟨⟨lead, hlead, rfl⟩, first, inside, rfl, -, -⟩ := h
  exact trimStart_append (skips_cons hlead rfl)

/-- A block banner is what is taken where line comments do not count. -/
theorem afterBlock?_eq_some_iff {block : Bool} {t rest : Text} :
    afterBlock? block (Text.trimStart t) = some rest ↔ ∃ banner, BlockBanner block banner rest t := by
  constructor
  · intro h
    obtain ⟨lead, ht, hlead, -⟩ := exists_trimStart t
    have hbanner : ∃ first inside,
        Text.trimStart t = opener ++ (first ++ (inside ++ closing)) ++ rest ∧
          ¬ closing <:+: inside ∧ if block then first = [] else ∃ c, c ≠ '!' ∧ first = [c] := by
      revert h
      fun_cases afterBlock? block (Text.trimStart t) with
      | case1 behind hblock =>
          intro h
          obtain ⟨inside, hinside, rfl⟩ := afterClose?_eq_some_iff.mp h
          exact ⟨[], inside, by simp [opener], hinside, by rw [if_pos hblock]⟩
      | case2 => simp
      | case3 => simp
      | case4 hblock c behind hmark =>
          intro h
          obtain ⟨inside, hinside, rfl⟩ := afterClose?_eq_some_iff.mp h
          exact ⟨[c], inside, by simp [opener], hinside, by rw [if_neg hblock]; exact ⟨c, hmark, rfl⟩⟩
      | case5 => simp
    obtain ⟨first, inside, htext, hinside, hfirst⟩ := hbanner
    exact ⟨_, ⟨lead, hlead, by rw [← htext, ← ht]⟩, first, inside, rfl, hinside, hfirst⟩
  · rintro ⟨banner, h⟩
    rw [h.trimStart]
    obtain ⟨-, first, inside, rfl, hinside, hfirst⟩ := h
    have hclose := afterClose?_append hinside rest
    cases block with
    | true =>
        obtain rfl : first = [] := hfirst
        exact hclose
    | false =>
        obtain ⟨c, hc, rfl⟩ : ∃ c, c ≠ '!' ∧ first = [c] := hfirst
        have htext : opener ++ ([c] ++ (inside ++ closing)) ++ rest =
            '/' :: '*' :: c :: (inside ++ closing ++ rest) := by simp [opener]
        rw [htext]
        exact (if_neg hc).trans hclose

/-- The last character of a block banner is no white space. -/
theorem BlockBanner.exists_concat {block : Bool} {banner rest t : Text}
    (h : BlockBanner block banner rest t) : ∃ front, banner = front ++ ['/'] := by
  obtain ⟨-, first, inside, rfl, -, -⟩ := h
  exact ⟨opener ++ (first ++ (inside ++ ['*'])), by simp [closing]⟩

/-- What is left of a text ends it. -/
theorem strip_suffix (kinds : BannerKinds) (t : Text) : strip kinds t <:+ t := by
  obtain ⟨block, line⟩ := kinds
  cases line with
  | true =>
      obtain ⟨lead, run, trail, h⟩ := exists_lineBanner block t
      exact ⟨lead ++ (run.flatten ++ trail), by simpa using h.text.symm⟩
  | false =>
      cases hafter : afterBlock? block (Text.trimStart t) with
      | none => rw [strip_of_none hafter]
      | some rest =>
          obtain ⟨banner, ⟨lead, -, ht⟩, -⟩ := afterBlock?_eq_some_iff.mp hafter
          have hrest : rest <:+ t := ⟨lead ++ banner, by rw [ht, List.append_assoc]⟩
          rw [strip_of_some hafter]
          exact (trimStart_suffix rest).trans hrest

/-- Kinds widen others if what they leave ends what the others leave. -/
theorem widens_iff {kinds wide : BannerKinds} {t : Text} :
    Widens kinds wide t ↔ strip wide t <:+ strip kinds t := by
  obtain ⟨removed, hremoved⟩ := strip_suffix kinds t
  constructor
  · rintro ⟨-, more, -, hmore⟩
    exact ⟨more, hmore.symm⟩
  · rintro ⟨more, hmore⟩
    exact ⟨removed, more, hremoved.symm, hmore.symm⟩

/-! ## every block comment -/

/-- A text begins with at most one block comment. -/
theorem BlockComment.unique {inside rest inside' rest' t : Text} (h : BlockComment inside rest t)
    (h' : BlockComment inside' rest' t) : inside = inside' ∧ rest = rest' := by
  have hrest : rest = rest' :=
    Option.some.inj (h.afterBlock?_any.symm.trans h'.afterBlock?_any)
  have htext := List.append_cancel_left (h.trimStart.symm.trans h'.trimStart)
  rw [hrest] at htext
  exact ⟨List.append_cancel_right (List.append_cancel_right htext), hrest⟩

/-- That every block comment counts widens plain banners, except where the text begins
with an empty comment and another closing mark follows it. -/
theorem widens_block_iff {t : Text} :
    Widens {} { block := true } t ↔ ∀ rest, BlockComment [] rest t → ¬ closing <:+: rest := by
  rw [widens_iff]
  by_cases hcomment : ∃ inside rest, BlockComment inside rest t
  · obtain ⟨inside, rest, h⟩ := hcomment
    have hany := strip_of_some h.afterBlock?_any
    cases inside with
    | cons c inside =>
        refine iff_of_true ?_ fun rest' hempty => absurd (h.unique hempty).1 (by simp)
        by_cases hc : c = '!'
        · have hplain : afterBlock? false (Text.trimStart t) = none := by
            rw [h.afterBlock?_plain, if_pos hc]
          rw [strip_of_none hplain]
          exact strip_suffix _ t
        · have hplain : afterBlock? false (Text.trimStart t) = some rest := by
            rw [h.afterBlock?_plain, if_neg hc]
          rw [strip_of_some hplain, hany]
    | nil =>
        have hrest : (∀ rest', BlockComment [] rest' t → ¬ closing <:+: rest') ↔ ¬ closing <:+: rest :=
          ⟨fun hall => hall rest h, fun hfree rest' h' => (h.unique h').2 ▸ hfree⟩
        rw [hrest]
        constructor
        · -- The plain banner takes a closing mark that the other one leaves.
          intro hsuffix hmark
          obtain ⟨more, after, hmore, rfl⟩ := exists_first_closing hmark
          have hplain : afterBlock? false (Text.trimStart t) = some after := by
            rw [h.afterBlock?_empty, afterClose?_append hmore]
          rw [hany, strip_of_some hplain] at hsuffix
          have hlong : '*' :: '/' :: after <:+ Text.trimStart (more ++ closing ++ after) :=
            suffix_trimStart ⟨more, by simp [closing]⟩ (by simp [Text.isBlank])
          have hle := (hlong.trans (hsuffix.trans (trimStart_suffix after))).length_le
          simp only [List.length_cons] at hle
          omega
        · intro hfree
          have hnone : afterBlock? false (Text.trimStart t) = none := by
            rw [h.afterBlock?_empty, afterClose?_eq_none hfree]
          rw [strip_of_none hnone]
          exact strip_suffix _ t
  · have hnone : ∀ block, afterBlock? block (Text.trimStart t) = none := fun block =>
      Option.eq_none_iff_forall_ne_some.mpr fun after hafter => hcomment (exists_blockComment hafter)
    refine iff_of_true ?_ fun rest h => absurd ⟨[], rest, h⟩ hcomment
    rw [strip_of_none (hnone false)]
    exact strip_suffix _ t

/-! ## line comments -/

/-- Line comments widen blocks where the block banner is part of the run of lines. -/
theorem LineBanner.widens_iff {lead : Text} {run : List Text} {trail rest t : Text}
    (h : LineBanner lead run trail rest t) (block : Bool) :
    Widens { block := block } { block := block, line := true } t ↔
      ∀ banner after, BlockBanner block banner after t → banner <+: run.flatten := by
  have htrim : Text.trimStart t = run.flatten ++ (trail ++ rest) := by
    rw [h.text, trimStart_append h.lead]
  rw [Banner.widens_iff]
  constructor
  · intro hsuffix banner after hbanner
    rw [h.strip_eq, strip_of_some (afterBlock?_eq_some_iff.mpr ⟨banner, hbanner⟩)] at hsuffix
    have hsplit : banner ++ after = run.flatten ++ (trail ++ rest) := hbanner.trimStart ▸ htrim
    rcases List.append_eq_append_iff.mp hsplit with ⟨more, hrun, -⟩ | ⟨more, hmore, hbehind⟩
    · exact ⟨more, hrun.symm⟩
    · cases List.eq_nil_or_concat more with
      | inl hnil =>
          rw [hmore, hnil, List.append_nil]
      | inr hconcat =>
          -- The run ends inside of the banner, whose last slash is then left.
          obtain ⟨front, c, rfl⟩ := hconcat
          obtain ⟨front', hslash⟩ := hbanner.exists_concat
          have hslash : run.flatten ++ front ++ [c] = front' ++ ['/'] := by
            rw [← hslash, hmore, List.concat_eq_append, List.append_assoc]
          obtain rfl : c = '/' := List.head_eq_of_cons_eq (List.append_inj' hslash rfl).2
          have hlong : '/' :: after <:+ Text.trimStart (trail ++ rest) :=
            suffix_trimStart ⟨front, by rw [hbehind]; simp⟩ (by simp [Text.isBlank])
          rw [trimStart_append h.trail] at hlong
          have hle := (hlong.trans (hsuffix.trans (trimStart_suffix after))).length_le
          simp only [List.length_cons] at hle
          omega
  · intro hwithin
    cases hafter : afterBlock? block (Text.trimStart t) with
    | none =>
        rw [strip_of_none hafter]
        exact strip_suffix _ t
    | some after =>
        obtain ⟨banner, hbanner⟩ := afterBlock?_eq_some_iff.mp hafter
        obtain ⟨more, hmore⟩ := hwithin banner after hbanner
        have hsplit : banner ++ after = run.flatten ++ (trail ++ rest) := hbanner.trimStart ▸ htrim
        rw [← hmore, List.append_assoc] at hsplit
        have hafter' : after = more ++ (trail ++ rest) := List.append_cancel_left hsplit
        rw [h.strip_eq, strip_of_some hafter]
        exact suffix_trimStart ⟨more ++ trail, by rw [hafter', List.append_assoc]⟩ h.trail.2

/-! ## the two options -/

/-- **What an option adds to a banner.**  That every block comment counts widens plain
banners, unless an empty comment begins the text and another closing mark follows it.
With line comments on it makes no difference which block comments count.  Every text has
its leading lines that hold two slashes, and line comments widen blocks exactly if the
block banner, where there is one, is part of these; otherwise it stays. -/
theorem strip_widens (t : Text) :
    (Widens {} { block := true } t ↔ ∀ rest, BlockComment [] rest t → ¬ closing <:+: rest) ∧
      strip { block := true, line := true } t = strip { line := true } t ∧
      (∃ lead run trail rest, LineBanner lead run trail rest t) ∧
      ∀ block lead run trail rest, LineBanner lead run trail rest t →
        (Widens { block := block } { block := block, line := true } t ↔
          ∀ banner after, BlockBanner block banner after t → banner <+: run.flatten) := by
  obtain ⟨lead, run, trail, hbanner⟩ := exists_lineBanner false t
  refine ⟨widens_block_iff, ?_, ⟨lead, run, trail, _, hbanner⟩,
    fun block _ _ _ _ h => h.widens_iff block⟩
  calc strip { block := true, line := true } t
      = Text.trimStart (afterLines (Text.trimStart t)) := strip_of_line true t
    _ = strip { line := true } t := (strip_of_line false t).symm

/-- A block comment on a line with two slashes. -/
def markedBlock : Text := "/* a // b */\nx;\n"

theorem lineBanner_markedBlock : LineBanner [] ["/* a // b */\n"] [] "x;\n" markedBlock where
  text := by decide
  lead := skips_cons (by simp [Blank]) rfl
  lines := by
    have hline : Line "/* a // b */\n" := ⟨"/* a // b */", by decide, by decide⟩
    simp only [List.mem_singleton, forall_eq, ← hasSlashes_iff]
    exact ⟨hline, by decide⟩
  last := endsRun_of_free (by decide)
  trail := skips_cons (by simp [Blank]) rfl

theorem blockBanner_markedBlock {banner after : Text}
    (h : BlockBanner false banner after markedBlock) :
    banner = "/* a // b */" ∧ after = "\nx;\n" := by
  have hafter : afterBlock? false (Text.trimStart markedBlock) = some "\nx;\n" := by decide
  obtain rfl : after = "\nx;\n" :=
    Option.some.inj ((afterBlock?_eq_some_iff.mpr ⟨banner, h⟩).symm.trans hafter)
  have htext : banner ++ "\nx;\n" = "/* a // b */" ++ "\nx;\n" := h.trimStart.symm.trans (by decide)
  exact ⟨List.append_cancel_right htext, rfl⟩

/-- Both options keep to what they widen on `markedBlock`. -/
theorem strip_widens_markedBlock :
    BlockComment " a // b " "\nx;\n" markedBlock ∧
      LineBanner [] ["/* a // b */\n"] [] "x;\n" markedBlock ∧
      Widens {} { block := true } markedBlock ∧ Widens {} { line := true } markedBlock := by
  have hcomment : BlockComment " a // b " "\nx;\n" markedBlock :=
    ⟨mt isSome_afterClose?_iff.mpr (by decide), [], by simp [Blank], by decide⟩
  obtain ⟨hblock, -, -, hline⟩ := strip_widens markedBlock
  refine ⟨hcomment, lineBanner_markedBlock, hblock.mpr fun rest hempty => ?_,
    (hline false _ _ _ _ lineBanner_markedBlock).mpr fun banner after hbanner => ?_⟩
  · exact absurd (hempty.unique hcomment).1 (by decide)
  · rw [(blockBanner_markedBlock hbanner).1]
    exact ⟨"\n", by decide⟩

/-- So an option can take less away: with line comments on, a block comment stays. -/
theorem strip_widens_keeps_block :
    ¬ ∀ (block : Bool) (t : Text),
      strip { block := block, line := true } t <:+ strip { block := block } t := by
  intro hall
  have hline : strip { line := true } "/* a */" = "/* a */" := by
    rw [strip_of_line, afterLines_of_endsRun (endsRun_of_free (by decide))]
    decide
  have hblock : strip {} "/* a */" = [] := by decide
  have hsuffix := hall false "/* a */"
  rw [hline, hblock] at hsuffix
  exact absurd (List.suffix_nil.mp hsuffix) (by decide)

end SourceMerge.Banner
