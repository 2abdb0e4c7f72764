import SourceMerge.Banner
import SourceMerge.Proofs.Text.Split

/-!
# SourceMerge.Proofs.Banner.Block

Block comments as banners.  A block comment runs from its opener to the first closing
mark behind it (`BlockComment`); as a banner it goes with the white space on both
sides, unless it opens with `/*!` and only plain comments count.

```
/* a */ x      removed:  /* a */
/**/ x /* */   removed:  /**/ x /* */      plain comments only
```

The second line is the one exception.  Where only plain comments count the first
character of a comment is read before its closing mark is looked for.  An empty comment
has no such character, so the star of its own closing mark is taken for one, and the
banner runs on to the next closing mark.
-/

namespace SourceMerge.Banner

/-! ## white space -/

/-- Nothing but white space. -/
def Blank (t : Text) : Prop := ∀ c ∈ t, Text.isBlank c = true

/-- In `lead ++ rest` the white space at the beginning is `lead`. -/
def Skips (lead rest : Text) : Prop := Blank lead ∧ ∀ c ∈ rest.head?, Text.isBlank c = false

theorem skips_cons {lead : Text} {c : Char} {rest : Text} (hlead : Blank lead)
    (hc : Text.isBlank c = false) : Skips lead (c :: rest) := by
  refine ⟨hlead, fun d hd => ?_⟩
  obtain rfl : c = d := Option.some.inj hd
  exact hc

theorem trimStart_append {lead rest : Text} (h : Skips lead rest) :
    Text.trimStart (lead ++ rest) = rest :=
  (Text.span_append h.1 h.2).2

theorem exists_trimStart (t : Text) :
    ∃ lead, t = lead ++ Text.trimStart t ∧ Skips lead (Text.trimStart t) := by
  obtain ⟨lead, rest, rfl, hlead, hrest⟩ := Text.exists_run Text.isBlank t
  have hskips : Skips lead rest := ⟨hlead, hrest⟩
  rw [trimStart_append hskips]
  exact ⟨lead, rfl, hskips⟩

/-! ## closing marks -/

/-- How a block comment begins. -/
def opener : Text := ['/', '*']

/-- How a block comment ends. -/
def closing : Text := ['*', '/']

@[simp] theorem afterClose?_closing (rest : Text) : afterClose? (closing ++ rest) = some rest := rfl

/-- A character with which no closing mark begins is passed over. -/
theorem afterClose?_cons {c : Char} {t : Text} (h : ¬ closing <+: c :: t) :
    afterClose? (c :: t) = afterClose? t := by
  rw [afterClose?]
  rintro rest rfl rfl
  exact h (List.prefix_append closing rest)

/-- No closing mark begins before the end of a text and reaches beyond it. -/
theorem closing_prefix_append {c : Char} {inside rest : Text}
    (h : closing <+: c :: (inside ++ closing ++ rest)) : closing <+: c :: inside := by
  obtain ⟨after, hafter⟩ := h
  obtain ⟨rfl, hnext⟩ := List.cons.inj hafter
  cases inside with
  | nil => simp [closing] at hnext
  | cons d inside =>
      obtain ⟨rfl, -⟩ := List.cons.inj hnext
      exact List.prefix_append closing inside

/-- **The first closing mark** of a text is the one behind `inside`. -/
theorem afterClose?_append {inside : Text} (h : ¬ closing <:+: inside) (rest : Text) :
    afterClose? (inside ++ closing ++ rest) = some rest := by
  induction inside with
  | nil => simp
  | cons c inside ih =>
      rw [List.infix_cons_iff, not_or] at h
      rw [List.cons_append, List.cons_append, afterClose?_cons (mt closing_prefix_append h.1)]
      exact ih h.2

/-- A text with a closing mark has a first one. -/
theorem exists_first_closing {t : Text} (h : closing <:+: t) :
    ∃ inside rest, ¬ closing <:+: inside ∧ t = inside ++ closing ++ rest := by
  induction t with
  | nil => simp [closing] at h
  | cons c t ih =>
      by_cases hhere : closing <+: c :: t
      · obtain ⟨rest, hrest⟩ := hhere
        exact ⟨[], rest, by simp [closing], hrest.symm⟩
      · have hlater := (List.infix_cons_iff.mp h).resolve_left hhere
        obtain ⟨inside, rest, hinside, rfl⟩ := ih hlater
        have hfree : ¬ closing <+: c :: inside := fun hpre => hhere (hpre.trans (by simp))
        refine ⟨c :: inside, rest, ?_, rfl⟩
        rw [List.infix_cons_iff, not_or]
        exact ⟨hfree, hinside⟩

theorem afterClose?_eq_none {t : Text} (h : ¬ closing <:+: t) : afterClose? t = none := by
  induction t with
  | nil => rfl
  | cons c t ih =>
      rw [List.infix_cons_iff, not_or] at h
      rw [afterClose?_cons h.1, ih h.2]

/-- Where a closing mark is read, there is one. -/
theorem isSome_afterClose?_iff {t : Text} : (afterClose? t).isSome ↔ closing <:+: t := by
  constructor
  · intro hsome
    by_cases hmark : closing <:+: t
    · exact hmark
    · rw [afterClose?_eq_none hmark] at hsome
      contradiction
  · intro hmark
    obtain ⟨inside, rest, hinside, rfl⟩ := exists_first_closing hmark
    rw [afterClose?_append hinside rest]
    rfl

/-! ## block comments -/

/-- Behind white space a text begins with a block comment: `inside` stands between its
opener and the first closing mark behind that, and `rest` follows the mark. -/
def BlockComment (inside rest t : Text) : Prop :=
  ¬ closing <:+: inside ∧ ∃ lead, Blank lead ∧ t = lead ++ (opener ++ (inside ++ closing ++ rest))

theorem BlockComment.trimStart {inside rest t : Text} (h : BlockComment inside rest t) :
    Text.trimStart t = opener ++ (inside ++ closing ++ rest) := by
  obtain ⟨-, lead, hlead, rfl⟩ := h
  exact trimStart_append (skips_cons hlead rfl)

/-- A text from whose beginning a banner is taken begins with a block comment. -/
theorem exists_blockComment {block : Bool} {t after : Text}
    (h : afterBlock? block (Text.trimStart t) = some after) :
    ∃ inside rest, BlockComment inside rest t := by
  obtain ⟨lead, ht, hlead, -⟩ := exists_trimStart t
  have hclosed : ∃ behind, Text.trimStart t = opener ++ behind ∧ closing <:+: behind := by
    revert h
    fun_cases afterBlock? block (Text.trimStart t) with
    | case1 behind hblock =>
        intro h
        exact ⟨behind, rfl, isSome_afterClose?_iff.mp (Option.isSome_of_eq_some h)⟩
    | case2 => simp
    | case3 => simp
    | case4 hblock c behind hmark =>
        intro h
        have hinfix := isSome_afterClose?_iff.mp (Option.isSome_of_eq_some h)
        exact ⟨c :: behind, rfl, List.infix_cons hinfix⟩
    | case5 => simp
  obtain ⟨behind, hbehind, hinfix⟩ := hclosed
  obtain ⟨inside, rest, hinside, rfl⟩ := exists_first_closing hinfix
  exact ⟨inside, rest, hinside, lead, hlead, by rw [← hbehind, ← ht]⟩

/-- What follows the comment, where every block comment counts. -/
theorem BlockComment.afterBlock?_any {inside rest t : Text} (h : BlockComment inside rest t) :
    afterBlock? true (Text.trimStart t) = some rest := by
  rw [h.trimStart]
  exact afterClose?_append h.1 rest

/-- What follows the comment, where plain comments count. -/
theorem BlockComment.afterBlock?_plain {c : Char} {inside rest t : Text}
    (h : BlockComment (c :: inside) rest t) :
    afterBlock? false (Text.trimStart t) = if c = '!' then none else some rest := by
  have hinside := not_or.mp (mt List.infix_cons_iff.mpr h.1)
  rw [h.trimStart, ← afterClose?_append hinside.2 rest]
  rfl

/-- What follows an empty comment, where plain comments count. -/
theorem BlockComment.afterBlock?_empty {rest t : Text} (h : BlockComment [] rest t) :
    afterBlock? false (Text.trimStart t) = afterClose? rest := by
  rw [h.trimStart]
  rfl

theorem strip_of_some {block : Bool} {t rest : Text}
    (h : afterBlock? block (Text.trimStart t) = some rest) :
    strip { block := block } t = Text.trimStart rest := by
  simp [strip, h]

theorem strip_of_none {block : Bool} {t : Text} (h : afterBlock? block (Text.trimStart t) = none) :
    strip { block := block } t = t := by
  simp [strip, h]

/-- **What a block banner is.**  The banner of a text is the block comment that it
begins with, up to its first closing mark, with the white space on both sides.  Without
one the text stays as it is; so it does with a comment that opens with `/*!`, unless
every block comment counts.  The one exception is an empty comment where plain comments
count: from there the banner reaches to the next closing mark, whatever stands before
it, and there is none without such a mark. -/
theorem strip_block (block : Bool) (t : Text) :
    (∀ inside rest, BlockComment inside rest t →
        (block = false → inside ≠ [] ∧ inside.head? ≠ some '!') →
        strip { block := block } t = Text.trimStart rest) ∧
      (∀ inside rest, BlockComment inside rest t → block = false → inside.head? = some '!' →
        strip { block := block } t = t) ∧
      ((∀ inside rest, ¬ BlockComment inside rest t) → strip { block := block } t = t) ∧
      (∀ rest, BlockComment [] rest t → block = false →
        (∀ more after, ¬ closing <:+: more → rest = more ++ closing ++ after →
          strip { block := block } t = Text.trimStart after) ∧
        (¬ closing <:+: rest → strip { block := block } t = t)) := by
  refine ⟨?_, ?_, ?_, ?_⟩
  · intro inside rest h hplain
    cases block with
    | true => exact strip_of_some h.afterBlock?_any
    | false =>
        obtain ⟨hne, hmark⟩ := hplain rfl
        obtain ⟨c, inside, rfl⟩ := List.exists_cons_of_ne_nil hne
        have hc : c ≠ '!' := by simpa using hmark
        refine strip_of_some ?_
        rw [h.afterBlock?_plain, if_neg hc]
  · rintro inside rest h rfl hmark
    obtain ⟨inside, rfl⟩ := List.head?_eq_some_iff.mp hmark
    refine strip_of_none ?_
    rw [h.afterBlock?_plain, if_pos rfl]
  · intro hnone
    cases hread : afterBlock? block (Text.trimStart t) with
    | none => exact strip_of_none hread
    | some after =>
        obtain ⟨inside, rest, h⟩ := exists_blockComment hread
        exact absurd h (hnone inside rest)
  · rintro rest h rfl
    constructor
    · rintro more after hmore rfl
      refine strip_of_some ?_
      rw [h.afterBlock?_empty, afterClose?_append hmore after]
    · intro hnone
      refine strip_of_none ?_
      rw [h.afterBlock?_empty, afterClose?_eq_none hnone]

/-- An empty comment, code, and a second comment. -/
def emptyComment : Text := "/**/x;/* y */z"

theorem blockComment_emptyComment : BlockComment [] "x;/* y */z" emptyComment :=
  ⟨by decide, [], by simp [Blank], rfl⟩

/-- The banner of `emptyComment` takes the code with it. -/
theorem strip_block_emptyComment :
    BlockComment [] "x;/* y */z" emptyComment ∧
      ¬ closing <:+: ("x;/* y " : Text) ∧ strip { block := false } emptyComment = "z" := by
  have hfree : ¬ closing <:+: ("x;/* y " : Text) := mt isSome_afterClose?_iff.mpr (by decide)
  have hstrip := ((strip_block false emptyComment).2.2.2 _ blockComment_emptyComment rfl).1
    "x;/* y " "z" hfree rfl
  exact ⟨blockComment_emptyComment, hfree, hstrip⟩

/-- So a banner can be more than its comment and white space. -/
theorem strip_block_takes_code :
    ¬ ∀ (block : Bool) (t inside rest : Text), BlockComment inside rest t →
      (block = false → inside.head? ≠ some '!') →
        strip { block := block } t = Text.trimStart rest := by
  intro hall
  have hstrip := hall false emptyComment [] "x;/* y */z" blockComment_emptyComment (by simp)
  have hne : strip { block := false } emptyComment ≠ Text.trimStart ("x;/* y */z" : Text) := by decide
  exact hne hstrip

end SourceMerge.Banner
