import SourceMerge.Proofs.Banner.Block

/-!
# SourceMerge.Proofs.Banner.Lines

Line comments as banners.  Behind white space a banner is a run of whole lines, each
with two slashes somewhere in it, and the white space behind them (`LineBanner`).

```
  // one        a line comment
x(); // two     no line comment, but it holds two slashes
y();            the first line that is kept
```

Whether the slashes begin the line is not asked.  So the banner consists of white space
and comments as soon as all of its lines are line comments; and if none of them holds
the opener of a block comment, that is the only way for it to do so.
-/

namespace SourceMerge.Banner

/-- What begins a line comment. -/
def slashes : Text := ['/', '/']

/-- A whole line, with the line feed that ends it. -/
def Line (t : Text) : Prop := ∃ inside, '\n' ∉ inside ∧ t = inside ++ ['\n']

/-- A whole line whose first characters behind white space are two slashes. -/
def LineComment (t : Text) : Prop :=
  ∃ lead inside, Blank lead ∧ '\n' ∉ lead ∧ '\n' ∉ inside ∧
    t = lead ++ '/' :: '/' :: (inside ++ ['\n'])

/-! ## two slashes -/

theorem hasSlashes_iff {t : Text} : hasSlashes t = true ↔ slashes <:+: t := by
  fun_induction hasSlashes t with
  | case1 rest =>
      have hstart : slashes <:+: '/' :: '/' :: rest := (List.prefix_append slashes rest).isInfix
      simp [hstart]
  | case2 c rest hpair ih =>
      have hfree : ¬ slashes <+: c :: rest := by
        rintro ⟨after, hafter⟩
        obtain ⟨rfl, hrest⟩ := List.cons.inj hafter
        exact hpair after rfl hrest.symm
      rw [ih, List.infix_cons_iff, or_iff_right hfree]
  | case3 => simp [slashes]

/-- The line feed is no slash. -/
theorem slashes_infix_line {inside : Text} : slashes <:+: inside ++ ['\n'] ↔ slashes <:+: inside := by
  have hend : ¬ slashes <:+ inside ++ ['\n'] := by
    rintro ⟨before, hbefore⟩
    have hlast := congrArg List.getLast? hbefore
    simp [slashes] at hlast
  rw [List.infix_concat_iff, or_iff_right hend]

/-! ## runs of lines -/

theorem firstLine_append {inside : Text} (h : '\n' ∉ inside) (rest : Text) :
    firstLine (inside ++ ['\n'] ++ rest) = (inside, some rest) := by
  rw [List.append_assoc]
  exact Text.cutAt_append h rest

/-- A text does not begin with a whole line that holds two slashes. -/
def EndsRun (t : Text) : Prop := ∀ line rest, t = line ++ rest → Line line → ¬ slashes <:+: line

/-- A text without two slashes does not begin with a line that holds them. -/
theorem endsRun_of_free {t : Text} (h : hasSlashes t = false) : EndsRun t := by
  rintro line rest rfl - hslashes
  have hinfix : slashes <:+: line ++ rest := hslashes.trans (List.prefix_append line rest).isInfix
  rw [← hasSlashes_iff, h] at hinfix
  contradiction

theorem afterLines_line {line : Text} (hline : Line line) (hslashes : slashes <:+: line)
    (rest : Text) : afterLines (line ++ rest) = afterLines rest := by
  obtain ⟨inside, hinside, rfl⟩ := hline
  have hcut := firstLine_append hinside rest
  have hhas : hasSlashes inside = true := hasSlashes_iff.mpr (slashes_infix_line.mp hslashes)
  rw [afterLines]
  split
  next line' rest' heq =>
    obtain ⟨rfl, hrest⟩ := Prod.mk.inj (hcut.symm.trans heq)
    rw [if_pos hhas, Option.some.inj hrest]
  next heq =>
    rw [hcut] at heq
    simp at heq

theorem afterLines_of_endsRun {t : Text} (h : EndsRun t) : afterLines t = t := by
  rw [afterLines]
  split
  next line rest heq =>
    obtain ⟨rfl, hline⟩ := Text.cutAt_eq_some heq
    have hfree := h (line ++ ['\n']) rest (by simp) ⟨line, hline, rfl⟩
    rw [slashes_infix_line, ← hasSlashes_iff] at hfree
    rw [if_neg hfree]
  next => rfl

theorem afterLines_flatten {run : List Text} (h : ∀ line ∈ run, Line line ∧ slashes <:+: line)
    {rest : Text} (hrest : EndsRun rest) : afterLines (run.flatten ++ rest) = rest := by
  induction run with
  | nil => exact afterLines_of_endsRun hrest
  | cons line run ih =>
      obtain ⟨hline, hslashes⟩ := h line List.mem_cons_self
      rw [List.flatten_cons, List.append_assoc, afterLines_line hline hslashes]
      exact ih fun l hl => h l (List.mem_cons_of_mem line hl)

/-- A text begins with a run of lines that hold two slashes. -/
theorem exists_lines (t : Text) :
    ∃ run : List Text, t = run.flatten ++ afterLines t ∧
      (∀ line ∈ run, Line line ∧ slashes <:+: line) ∧ EndsRun (afterLines t) := by
  fun_induction afterLines t with
  | case1 t line rest heq hslashes ih =>
      obtain ⟨run, hrun, hlines, hend⟩ := ih
      obtain ⟨rfl, hline⟩ := Text.cutAt_eq_some heq
      have hfirst : Line (line ++ ['\n']) ∧ slashes <:+: line ++ ['\n'] :=
        ⟨⟨line, hline, rfl⟩, slashes_infix_line.mpr (hasSlashes_iff.mp hslashes)⟩
      refine ⟨(line ++ ['\n']) :: run, ?_, ?_, hend⟩
      · rw [List.flatten_cons, List.append_assoc, ← hrun]
        simp
      · intro l hl
        cases List.mem_cons.mp hl with
        | inl hhead => exact hhead ▸ hfirst
        | inr hlater => exact hlines l hlater
  | case2 t line rest heq hslashes =>
      refine ⟨[], rfl, by simp, ?_⟩
      rintro _ more rfl ⟨inside, hinside, rfl⟩
      have hcut := firstLine_append hinside more
      obtain ⟨rfl, -⟩ := Prod.mk.inj (hcut.symm.trans heq)
      rwa [slashes_infix_line, ← hasSlashes_iff]
  | case3 t line heq =>
      refine ⟨[], rfl, by simp, ?_⟩
      rintro _ more rfl ⟨inside, hinside, rfl⟩
      have hnone := (firstLine_append hinside more).symm.trans heq
      simp at hnone

/-! ## banners -/

/-- A text begins with white space, whole lines that hold two slashes, as many as there
are, and white space again; `rest` is what follows. -/
structure LineBanner (lead : Text) (run : List Text) (trail rest t : Text) : Prop where
  text : t = lead ++ (run.flatten ++ (trail ++ rest))
  lead : Skips lead (run.flatten ++ (trail ++ rest))
  lines : ∀ line ∈ run, Line line ∧ slashes <:+: line
  last : EndsRun (trail ++ rest)
  trail : Skips trail rest

theorem strip_of_line (block : Bool) (t : Text) :
    strip { block := block, line := true } t =
      Text.trimStart (afterLines (Text.trimStart t)) := by
  simp [strip]

theorem exists_lineBanner (block : Bool) (t : Text) :
    ∃ lead run trail, LineBanner lead run trail (strip { block := block, line := true } t) t := by
  obtain ⟨lead, ht, hlead⟩ := exists_trimStart t
  obtain ⟨run, hrun, hlines, hend⟩ := exists_lines (Text.trimStart t)
  obtain ⟨trail, htrail, hskips⟩ := exists_trimStart (afterLines (Text.trimStart t))
  have hstrip := strip_of_line block t
  have hbehind : trail ++ strip { block := block, line := true } t =
      afterLines (Text.trimStart t) := by rw [hstrip, ← htrail]
  refine ⟨lead, run, trail, ?_, ?_, hlines, hbehind ▸ hend, hstrip ▸ hskips⟩
  · rw [hbehind, ← hrun, ← ht]
  · rwa [hbehind, ← hrun]

theorem LineBanner.strip_eq {lead : Text} {run : List Text} {trail rest t : Text}
    (h : LineBanner lead run trail rest t) (block : Bool) :
    strip { block := block, line := true } t = rest := by
  rw [strip_of_line, h.text, trimStart_append h.lead, afterLines_flatten h.lines h.last,
    trimStart_append h.trail]

/-! ## remarks -/

/-- A text of white space, line comments and `n` block comments. -/
inductive Remarks : Nat → Text → Prop where
  | nil : Remarks 0 []
  | blank {n : Nat} {c : Char} {t : Text} : Text.isBlank c = true → Remarks n t → Remarks n (c :: t)
  | line {n : Nat} {inside t : Text} : '\n' ∉ inside → Remarks n t →
      Remarks n ('/' :: '/' :: (inside ++ '\n' :: t))
  | block {n : Nat} {inside t : Text} : ¬ closing <:+: inside → Remarks n t →
      Remarks (n + 1) ('/' :: '*' :: (inside ++ closing ++ t))

theorem Remarks.of_blank {n : Nat} {c : Char} {t : Text} (hc : Text.isBlank c = true)
    (h : Remarks n (c :: t)) : Remarks n t := by
  cases h with
  | blank _ ht => exact ht
  | line => contradiction
  | block => contradiction

/-- White space at the beginning is no matter. -/
theorem remarks_append_iff {n : Nat} {lead t : Text} (hlead : Blank lead) :
    Remarks n (lead ++ t) ↔ Remarks n t := by
  induction lead with
  | nil => rfl
  | cons c lead ih =>
      have hc : Text.isBlank c = true := hlead c List.mem_cons_self
      have hlater := ih fun d hd => hlead d (List.mem_cons_of_mem c hd)
      rw [List.cons_append, ← hlater]
      exact ⟨.of_blank hc, .blank hc⟩

theorem Remarks.line_append {n : Nat} {line t : Text} (hline : LineComment line)
    (ht : Remarks n t) : Remarks n (line ++ t) := by
  obtain ⟨lead, inside, hlead, -, hinside, rfl⟩ := hline
  have hsplit : lead ++ '/' :: '/' :: (inside ++ ['\n']) ++ t =
      lead ++ '/' :: '/' :: (inside ++ '\n' :: t) := by simp
  rw [hsplit, remarks_append_iff hlead]
  exact .line hinside ht

/-- The last character of a line is its line feed, also behind its white space. -/
theorem Line.exists_behind {lead more : Text} {c : Char} (h : Line (lead ++ c :: more))
    (hc : Text.isBlank c = false) :
    ∃ behind, more = behind ++ ['\n'] ∧ '\n' ∉ lead ∧ '\n' ∉ behind := by
  obtain ⟨inside, hinside, heq⟩ := h
  cases List.eq_nil_or_concat more with
  | inl hnil =>
      rw [hnil] at heq
      obtain ⟨-, hlast⟩ := List.append_inj' heq rfl
      obtain rfl : c = '\n' := List.head_eq_of_cons_eq hlast
      contradiction
  | inr hconcat =>
      obtain ⟨behind, e, rfl⟩ := hconcat
      have hsplit : (lead ++ c :: behind) ++ [e] = inside ++ ['\n'] := by
        rw [← heq]
        simp
      obtain ⟨rfl, hlast⟩ := List.append_inj' hsplit rfl
      rw [List.mem_append, List.mem_cons, not_or, not_or] at hinside
      exact ⟨behind, by rw [List.concat_eq_append, hlast], hinside.1, hinside.2.2⟩

/-- Where a whole line without the opener of a block comment begins some remarks, it is
a line comment. -/
theorem Remarks.of_line {n : Nat} {line t : Text} (hline : Line line)
    (hslashes : slashes <:+: line) (hopener : ¬ opener <:+: line) (h : Remarks n (line ++ t)) :
    LineComment line ∧ Remarks n t := by
  obtain ⟨lead, more, rfl, hlead, hmore⟩ := Text.exists_run Text.isBlank line
  rw [List.append_assoc, remarks_append_iff hlead] at h
  cases more with
  | nil =>
      have hslash : '/' ∈ lead ++ [] := hslashes.subset List.mem_cons_self
      rw [List.append_nil] at hslash
      exact absurd (hlead _ hslash) (by decide)
  | cons c more =>
      have hc : Text.isBlank c = false := hmore c rfl
      obtain ⟨behind, rfl, hlead', hbehind⟩ := hline.exists_behind hc
      rw [List.cons_append] at h
      generalize hu : behind ++ ['\n'] ++ t = u at h
      cases h with
      | blank hblank => rw [hc] at hblank; contradiction
      | @line _ inside later hinside hlater =>
          cases behind with
          | nil => simp at hu
          | cons d behind =>
              rw [List.mem_cons, not_or] at hbehind
              obtain ⟨rfl, hrest⟩ := List.cons.inj hu
              have hcut := firstLine_append hbehind.2 t
              have hcut' := Text.cutAt_append hinside later
              have hsame : (behind, some t) = (inside, some later) := by
                rw [← hcut, ← hcut', firstLine]
                exact congrArg _ hrest
              obtain ⟨rfl, ht⟩ := Prod.mk.inj hsame
              obtain rfl := Option.some.inj ht
              exact ⟨⟨lead, behind, hlead, hlead', hinside, rfl⟩, hlater⟩
      | @block _ inside later _ _ =>
          cases behind with
          | nil => simp at hu
          | cons d behind =>
              obtain ⟨rfl, -⟩ := List.cons.inj hu
              exact absurd ⟨lead, behind ++ ['\n'], by simp [opener]⟩ hopener

/-- Runs of line comments are remarks, and without the opener of a block comment no
other run of lines that hold two slashes is. -/
theorem remarks_flatten {run : List Text} (hlines : ∀ line ∈ run, Line line ∧ slashes <:+: line)
    {trail : Text} (htrail : Blank trail) :
    ((∀ line ∈ run, LineComment line) → Remarks 0 (run.flatten ++ trail)) ∧
      ((∀ line ∈ run, ¬ opener <:+: line) → ∀ n, Remarks n (run.flatten ++ trail) →
        ∀ line ∈ run, LineComment line) := by
  induction run with
  | nil =>
      have hnil : Remarks 0 (trail ++ []) := (remarks_append_iff htrail).mpr .nil
      rw [List.append_nil] at hnil
      exact ⟨fun _ => hnil, fun _ _ _ line hline => absurd hline List.not_mem_nil⟩
  | cons line run ih =>
      obtain ⟨hline, hslashes⟩ := hlines line List.mem_cons_self
      obtain ⟨hforth, hback⟩ := ih fun l hl => hlines l (List.mem_cons_of_mem line hl)
      rw [List.flatten_cons, List.append_assoc]
      constructor
      · intro hcomments
        have hlater := hforth fun l hl => hcomments l (List.mem_cons_of_mem line hl)
        exact .line_append (hcomments line List.mem_cons_self) hlater
      · intro hopeners n hremarks l hl
        obtain ⟨hfirst, hlater⟩ :=
          hremarks.of_line hline hslashes (hopeners line List.mem_cons_self)
        cases List.mem_cons.mp hl with
        | inl hhead => exact hhead ▸ hfirst
        | inr hmem => exact hback (fun l hl => hopeners l (List.mem_cons_of_mem line hl)) n hlater l hmem

/-- **What a line banner is.**  With line comments on, the rest of a text is what
follows its white space, the run of whole lines that hold two slashes, and the white
space behind them, whichever block comments count.  Where the lines of the run are line
comments, nothing but white space and whole line comments is taken.  Where none of them
holds the opener of a block comment, this is the only case in which what is taken
consists of white space and comments. -/
theorem strip_lines (block : Bool) (t : Text) :
    (∀ rest, strip { block := block, line := true } t = rest ↔
        ∃ lead run trail, LineBanner lead run trail rest t) ∧
      (∀ lead run trail rest, LineBanner lead run trail rest t →
        ((∀ line ∈ run, LineComment line) → Remarks 0 (lead ++ (run.flatten ++ trail))) ∧
        ((∀ line ∈ run, ¬ opener <:+: line) → ∀ n, Remarks n (lead ++ (run.flatten ++ trail)) →
          ∀ line ∈ run, LineComment line)) := by
  constructor
  · intro rest
    constructor
    · rintro rfl
      exact exists_lineBanner block t
    · rintro ⟨lead, run, trail, h⟩
      exact h.strip_eq block
  · intro lead run trail rest h
    simp only [remarks_append_iff h.lead.1]
    exact remarks_flatten h.lines h.trail.1

/-- Two line comments, the second of them indented, and code. -/
def commentedCode : Text := "// one\n  // two\n\nbody();\n"

theorem lineBanner_commentedCode :
    LineBanner [] ["// one\n", "  // two\n"] "\n" "body();\n" commentedCode where
  text := by decide
  lead := skips_cons (by simp [Blank]) rfl
  lines := by
    have hfirst : Line "// one\n" := ⟨"// one", by decide, by decide⟩
    have hsecond : Line "  // two\n" := ⟨"  // two", by decide, by decide⟩
    simp only [List.mem_cons, List.not_mem_nil, or_false, forall_eq_or_imp, forall_eq,
      ← hasSlashes_iff]
    exact ⟨⟨hfirst, by decide⟩, hsecond, by decide⟩
  last := endsRun_of_free (by decide)
  trail := skips_cons (by simp [Blank]; decide) rfl

/-- Of `commentedCode` the two comments are taken, and white space. -/
theorem strip_lines_commentedCode :
    LineBanner [] ["// one\n", "  // two\n"] "\n" "body();\n" commentedCode ∧
      (∀ line ∈ (["// one\n", "  // two\n"] : List Text), LineComment line) ∧
      strip { block := true, line := true } commentedCode = "body();\n" ∧
      Remarks 0 "// one\n  // two\n\n" := by
  have hfirst : LineComment "// one\n" :=
    ⟨[], " one", by simp [Blank], by decide, by decide, by decide⟩
  have hsecond : LineComment "  // two\n" :=
    ⟨"  ", " two", by simp [Blank]; decide, by decide, by decide, by decide⟩
  have hcomments : ∀ line ∈ (["// one\n", "  // two\n"] : List Text), LineComment line := by
    simp only [List.mem_cons, List.not_mem_nil, or_false, forall_eq_or_imp, forall_eq]
    exact ⟨hfirst, hsecond⟩
  obtain ⟨hstrip, htaken⟩ := strip_lines true commentedCode
  exact ⟨lineBanner_commentedCode, hcomments,
    (hstrip _).mpr ⟨_, _, _, lineBanner_commentedCode⟩,
    (htaken _ _ _ _ lineBanner_commentedCode).1 hcomments⟩

/-- Code with a line comment behind it, and more code. -/
def remarkedCode : Text := "go(); // now\nbody();\n"

theorem lineBanner_remarkedCode : LineBanner [] ["go(); // now\n"] [] "body();\n" remarkedCode where
  text := by decide
  lead := skips_cons (by simp [Blank]) rfl
  lines := by
    have hline : Line "go(); // now\n" := ⟨"go(); // now", by decide, by decide⟩
    simp only [List.mem_singleton, forall_eq, ← hasSlashes_iff]
    exact ⟨hline, by decide⟩
  last := endsRun_of_free (by decide)
  trail := skips_cons (by simp [Blank]) rfl

/-- So a line banner can hold code. -/
theorem strip_lines_takes_code :
    ¬ ∀ (block : Bool) (t : Text), ∃ removed n,
      t = removed ++ strip { block := block, line := true } t ∧ n ≤ 1 ∧ Remarks n removed := by
  intro hall
  obtain ⟨removed, n, ht, -, hremarks⟩ := hall false remarkedCode
  have hstrip := lineBanner_remarkedCode.strip_eq false
  have hremoved : "go(); // now\n" = removed := by
    have hsplit : remarkedCode = "go(); // now\n" ++ "body();\n" := by decide
    rw [hstrip, hsplit] at ht
    exact List.append_cancel_right ht
  subst hremoved
  cases hremarks with
  | blank hblank _ => contradiction

end SourceMerge.Banner
