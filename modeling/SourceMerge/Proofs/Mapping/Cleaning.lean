import SourceMerge.Proofs.Directive.Lines
import SourceMerge.Proofs.Mapping.Attribution

/-!
# SourceMerge.Proofs.Mapping.Cleaning

Where the characters of a file stand when the comment that names its map is gone.
What stands in front of the comment stays.  What stands behind it moves: a line up, if
the comment took the end of its line with it, or else to the left, on the rest of that
line (`beforeRemoval` is the way back).  So the removal leaves every place alone just
if nothing stands behind the comment, as in a file that ends with it.

The lines of a map are those of the file as it was.  A directive moves what is behind
it in the same way, but a unit keeps where its lines began; of the removed comment no
such record is kept.
-/

namespace SourceMerge

/-! ## places behind a piece of text -/

namespace Position

/-- Lines further down, the same text is walked through in the same columns. -/
theorem after_line_add (p : Position) (k : Int) (t : Text) :
    (⟨p.line + k, p.column⟩ : Position).after t = ⟨(p.after t).line + k, (p.after t).column⟩ := by
  induction t generalizing p with
  | nil => rfl
  | cons c t ih =>
      have hstep : (⟨p.line + k, p.column⟩ : Position).step c =
          ⟨(p.step c).line + k, (p.step c).column⟩ := by
        unfold step
        split
        · simp only [mk.injEq, and_true]
          omega
        · rfl
      rw [after_cons, hstep, ih, after_cons]

/-- Behind a line feed it does not matter in which column the text began. -/
theorem after_of_mem {t : Text} (h : '\n' ∈ t) (line column column' : Int) :
    (⟨line, column⟩ : Position).after t = (⟨line, column'⟩ : Position).after t := by
  induction t generalizing column column' with
  | nil => simp at h
  | cons c t ih =>
      rw [after_cons, after_cons, step, step]
      by_cases hc : c = '\n'
      · rw [if_pos hc, if_pos hc]
      · rw [if_neg hc, if_neg hc]
        exact ih ((List.mem_cons.mp h).resolve_left (Ne.symm hc)) _ _

end Position

/-- Where a character of a text stands, by its offset. -/
def Text.placeOf (t : Text) (i : Nat) : Position := Position.start.after (t.take i)

namespace Mapping

/-- Where a character stood before a comment was removed that ended `between` in front
of it: a line further down if the comment took a line feed with it, or else further to
the right if it is still on the line of the comment. -/
def beforeRemoval (comment between : Text) (p : Position) : Position :=
  if comment.getLast? = some '\n' then ⟨p.line + 1, p.column⟩
  else if '\n' ∈ between then p
  else ⟨p.line, p.column + comment.length⟩

/-- Next to the comment every place is another one. -/
theorem beforeRemoval_nil_ne {comment : Text} (h : comment ≠ []) (p : Position) :
    beforeRemoval comment [] p ≠ p := by
  have hlength := List.length_pos_iff.mpr h
  obtain ⟨line, column⟩ := p
  unfold beforeRemoval
  split
  · simp
  · simp only [List.not_mem_nil, if_false, ne_eq, Position.mk.injEq]
    omega

/-- **What is removed from the beginning of a line** moves what is behind it. -/
theorem after_append_comment {before comment : Text} (hstart : Text.LineStart before)
    (hone : OneLine comment) (x : Text) :
    Position.start.after (before ++ (comment ++ x)) =
      beforeRemoval comment x (Position.start.after (before ++ x)) := by
  rw [Position.after_append, Position.after_append, Position.after_append]
  have hcolumn : (Position.start.after before).column = 0 := by
    rw [Text.after_of_lineStart hstart]
    split <;> rfl
  generalize Position.start.after before = p at hcolumn
  obtain ⟨body, hbody, rfl | rfl⟩ := hone
  · have hlast : comment.getLast? ≠ some '\n' := fun h => hbody (List.mem_of_getLast? h)
    rw [beforeRemoval, if_neg hlast, Position.after_of_notMem hbody]
    split
    · next hfeed => exact Position.after_of_mem hfeed _ _ _
    · next hline =>
      rw [Position.after_of_notMem hline, Position.after_of_notMem hline]
      simp only [Position.mk.injEq, true_and]
      omega
  · have hfeed : p.after (body ++ ['\n']) = ⟨p.line + 1, p.column⟩ := by
      rw [Position.after_append, Position.after_of_notMem hbody, hcolumn]
      rfl
    rw [beforeRemoval, if_pos (by simp), hfeed, Position.after_line_add]

/-! ## the last comment of a text -/

theorem ne_nil_of_mem_linesWithEnds {t line : Text} (h : line ∈ linesWithEnds t) : line ≠ [] := by
  fun_induction linesWithEnds t with
  | case1 => simp at h
  | case2 rest ih =>
      rcases List.mem_cons.mp h with rfl | h
      · simp
      · exact ih h
  | case3 => simp_all
  | case4 c rest _ first lines hlines ih =>
      rcases List.mem_cons.mp h with rfl | h
      · simp
      · exact ih (hlines ▸ List.mem_cons_of_mem first h)

/-- Lines that are followed by others end with a line feed. -/
theorem lineStart_flatten {t line : Text} {earlier later : List Text}
    (h : linesWithEnds t = earlier ++ line :: later) : Text.LineStart earlier.flatten := by
  fun_induction linesWithEnds t generalizing earlier with
  | case1 => simp at h
  | case2 rest ih =>
      cases earlier with
      | nil => exact Text.lineStart_nil
      | cons first earlier =>
          obtain ⟨rfl, hlines⟩ := List.cons.inj h
          rw [List.flatten_cons, List.singleton_append, Text.lineStart_cons]
          by_cases hnil : earlier.flatten = []
          · exact .inl ⟨hnil, rfl⟩
          · exact .inr ⟨hnil, ih hlines⟩
  | case3 c rest _ hnil ih =>
      cases earlier with
      | nil => exact Text.lineStart_nil
      | cons first earlier => simp at h
  | case4 c rest _ first lines hlines ih =>
      cases earlier with
      | nil => exact Text.lineStart_nil
      | cons second earlier =>
          obtain ⟨rfl, rfl⟩ := List.cons.inj h
          have hne : first ≠ [] :=
            ne_nil_of_mem_linesWithEnds (t := rest) (hlines ▸ List.mem_cons_self)
          have hfirst : Text.LineStart (first :: earlier).flatten := ih hlines
          rw [List.flatten_cons] at hfirst ⊢
          rw [List.cons_append, Text.lineStart_cons]
          exact .inr ⟨List.append_ne_nil_of_left_ne_nil hne _, hfirst⟩

/-- A text is what stands in front of the last of its comments that name a map, the
comment, and what stands behind it. -/
def LastComment (t before comment after : Text) : Prop :=
  ∃ earlier name left later, linesWithEnds t = earlier ++ (comment ++ left) :: later ∧
    NamesMap name left (comment ++ left) ∧
    (∀ line ∈ later, ∀ name left, ¬ NamesMap name left line) ∧
    before = earlier.flatten ∧ after = left ++ later.flatten

section LastComment

variable {t before comment after : Text}

theorem LastComment.text (h : LastComment t before comment after) :
    t = before ++ (comment ++ after) := by
  obtain ⟨earlier, name, left, later, hlines, -, -, rfl, rfl⟩ := h
  rw [← flatten_linesWithEnds t, hlines]
  simp

theorem LastComment.lineStart (h : LastComment t before comment after) : Text.LineStart before := by
  obtain ⟨earlier, name, left, later, hlines, -, -, rfl, -⟩ := h
  exact lineStart_flatten hlines

theorem LastComment.oneLine (h : LastComment t before comment after) :
    comment ≠ [] ∧ OneLine comment := by
  obtain ⟨earlier, name, left, later, -, hnames, -, -, -⟩ := h
  obtain ⟨found, heq, hfound⟩ := hnames.exists_comment
  exact List.append_cancel_right heq ▸ hfound

/-- What is left without the last comment stands in front of it and behind it. -/
theorem WithoutReference.exists_lastComment {name cleaned : Text}
    (h : WithoutReference t name cleaned) :
    ∃ before comment after, LastComment t before comment after ∧ cleaned = before ++ after := by
  obtain ⟨earlier, comment, left, later, hlines, hnames, hlast, rfl⟩ := h
  exact ⟨_, comment, _, ⟨earlier, name, left, later, hlines, hnames, hlast, rfl, rfl⟩, rfl⟩

end LastComment

section Run

variable {σ : Type} [FileStore (StateM σ)] [Journal (StateM σ)]

/-- A file with a reference loses it, whatever its map is. -/
theorem runAt_inherit_cleaned {content name cleaned : Text}
    (href : findReference? content = some (name, cleaned)) (file : Text) (s : σ) :
    ∃ s', runAt (inherit content file) s = (.error .mappingsNotText, s') ∨
      ∃ map, runAt (inherit content file) s = (.ok (cleaned, map), s') := by
  obtain ⟨found, s₁, hfetch⟩ : ∃ found s₁,
      StateT.run ((locate file name).fetch : StateM σ _) s = (found, s₁) := ⟨_, _, rfl⟩
  rw [runAt_inherit_reference href hfetch]
  split
  · exact ⟨_, .inr ⟨_, rfl⟩⟩
  · exact ⟨_, .inl rfl⟩
  · exact ⟨_, .inr ⟨none, rfl⟩⟩

/-- **What removing a comment moves.**  A file that has comments which name a map loses
the last of them, and if an answer comes at all, it holds the text in front of that
comment and the text behind it.  Every character in front of the comment keeps its
place.  A character behind it stood where `beforeRemoval` says: so the characters that
are left have all kept their places exactly if none of them is behind the comment. -/
theorem inherit_moves {content : Text}
    (hcomment : ∃ line ∈ linesWithEnds content, ∃ name left, NamesMap name left line)
    (file : Text) :
    ∃ before comment after cleaned, LastComment content before comment after ∧
      content = before ++ (comment ++ after) ∧ cleaned = before ++ after ∧
      (∀ s : σ, ∃ s', runAt (inherit content file) s = (.error .mappingsNotText, s') ∨
        ∃ map, runAt (inherit content file) s = (.ok (cleaned, map), s')) ∧
      (∀ i < before.length, cleaned[i]? = content[i]? ∧
        Text.placeOf content i = Text.placeOf cleaned i) ∧
      (∀ i < after.length,
        cleaned[before.length + i]? = content[before.length + comment.length + i]? ∧
        Text.placeOf content (before.length + comment.length + i) =
          beforeRemoval comment (after.take i) (Text.placeOf cleaned (before.length + i))) ∧
      ((∀ i < after.length, Text.placeOf content (before.length + comment.length + i) =
        Text.placeOf cleaned (before.length + i)) ↔ after = []) := by
  obtain ⟨⟨name, cleaned⟩, href⟩ : ∃ found, findReference? content = some found := by
    refine Option.ne_none_iff_exists'.mp fun hnone => ?_
    obtain ⟨line, hline, name, left, hnames⟩ := hcomment
    exact findReference?_eq_none.mp hnone line hline name left hnames
  obtain ⟨before, comment, after, hlast, rfl⟩ :=
    (findReference?_eq_some.mp href).exists_lastComment
  obtain ⟨hne, hone⟩ := hlast.oneLine
  have hmoves : ∀ i, Text.placeOf content (before.length + comment.length + i) =
      beforeRemoval comment (after.take i)
        (Text.placeOf (before ++ after) (before.length + i)) := by
    intro i
    rw [hlast.text, Text.placeOf, Text.placeOf, Nat.add_assoc, List.take_length_add_append,
      List.take_length_add_append, List.take_length_add_append]
    exact after_append_comment hlast.lineStart hone _
  refine ⟨before, comment, after, _, hlast, hlast.text, rfl, runAt_inherit_cleaned href file,
    fun i hi => ?_, fun i _ => ⟨?_, hmoves i⟩, fun hstays => ?_, ?_⟩
  · rw [hlast.text, Text.placeOf, Text.placeOf, List.getElem?_append_left hi,
      List.getElem?_append_left hi, List.take_append_of_le_length (Nat.le_of_lt hi),
      List.take_append_of_le_length (Nat.le_of_lt hi)]
    exact ⟨rfl, rfl⟩
  · rw [hlast.text, Nat.add_assoc, List.getElem?_append_right (Nat.le_add_right _ _),
      List.getElem?_append_right (Nat.le_add_right _ _), Nat.add_sub_cancel_left,
      Nat.add_sub_cancel_left, List.getElem?_append_right (Nat.le_add_right _ _),
      Nat.add_sub_cancel_left]
  · by_contra hafter
    have hfirst := hmoves 0
    rw [hstays 0 (List.length_pos_iff.mpr hafter), List.take_zero] at hfirst
    exact beforeRemoval_nil_ne hne _ hfirst.symm
  · rintro rfl i hi
    simp at hi

end Run

/-- A file whose only line begins with the comment. -/
def leadText : Text := "/*# sourceMappingURL=min.js.map */x;\n"

/-- The rest of that line has moved to its beginning. -/
theorem inherit_moves_lead :
    (∃ line ∈ linesWithEnds leadText, ∃ name left, NamesMap name left line) ∧
      ∃ before comment after, leadText = before ++ (comment ++ after) ∧ before ++ after = "x;\n" ∧
        ¬ ∀ i < after.length, Text.placeOf leadText (before.length + comment.length + i) =
          Text.placeOf "x;\n" (before.length + i) := by
  have hcomment : ∃ line ∈ linesWithEnds leadText, ∃ name left, NamesMap name left line :=
    ⟨leadText, by decide +kernel, "min.js.map", "x;\n",
      namesMap_of_readReference? (by decide +kernel)⟩
  have href : findReference? leadText = some ("min.js.map".toList, "x;\n".toList) := by
    decide +kernel
  have hrun : (runAt (inherit leadText "min.js") ({} : MemoryWorld)).1 = .ok ("x;\n", none) := by
    rw [runAt_inherit_reference href rfl]
    rfl
  obtain ⟨before, comment, after, cleaned, -, htext, rfl, hends, -, -, hstays⟩ :=
    inherit_moves (σ := MemoryWorld) hcomment "min.js"
  have hcleaned : before ++ after = "x;\n" := by
    obtain ⟨w, herror | ⟨map, hok⟩⟩ := hends {}
    · rw [herror] at hrun
      cases hrun
    · rw [hok] at hrun
      exact (Prod.mk.inj (Except.ok.inj hrun)).1
  refine ⟨hcomment, before, comment, after, htext, hcleaned, ?_⟩
  rw [← hcleaned, hstays]
  rintro rfl
  rw [List.append_nil] at hcleaned
  rw [hcleaned] at htext
  exact absurd (List.cons.inj htext).1 (by decide)

/-- A file with the comment between two lines of code, and its map. -/
def midwayText : Text := "a;\n//# sourceMappingURL=min.js.map\nb;\n"

def midwayMap : Document :=
  { file := "min.js"
    sources := ["orig.js"]
    contents := some [.null]
    lines := [[⟨0, 0, 0, 0, none⟩], [], [⟨0, 0, 1, 0, none⟩]] }

/-- **A comment between lines** is removed with its line: what stood on the third line,
and is there for the map, is on the second one. -/
theorem inherit_moves_midway :
    (∃ w map, runAt (inherit midwayText "min.js") (Recorder.strayWorld midwayMap) =
        (.ok ("a;\nb;\n", some map), w) ∧ map.segmentsFor 3 = [⟨0, 0, 1, 0, none⟩]) ∧
      Text.charAt? midwayText ⟨3, 0⟩ = some 'b' ∧ Text.charAt? "a;\nb;\n" ⟨3, 0⟩ = none ∧
      Text.charAt? "a;\nb;\n" ⟨2, 0⟩ = some 'b' := by
  have href : findReference? midwayText = some ("min.js.map".toList, "a;\nb;\n".toList) := by
    decide +kernel
  obtain ⟨w, hrun⟩ : ∃ w, runAt (inherit midwayText "min.js") (Recorder.strayWorld midwayMap) =
      (.ok ("a;\nb;\n", some ⟨["orig.js"], [.null], midwayMap.lines⟩), w) :=
    runAt_inherit_stored (d := midwayMap) href rfl rfl rfl rfl (by simp [Json.Kept.null])
      (by decide)
  exact ⟨⟨w, _, hrun, rfl⟩, by decide, by decide, by decide⟩

end Mapping

end SourceMerge
