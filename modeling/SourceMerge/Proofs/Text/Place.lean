import SourceMerge.Text.Position

/-!
# SourceMerge.Proofs.Text.Place

Places and the characters that stand there.  Every character moves a place
forward, so no two characters of a text stand at one place, and the character
behind a beginning of the text stands where that beginning ends:

```
t = s ++ c :: rest   ⟹   t.charAt? (Position.start.after s) = some c
```

A line begins behind a text that is empty or ends with a line feed
(`Text.LineStart`); where it begins is known from the number of line feeds.
-/

namespace SourceMerge

namespace Position

/-- A place comes before another one. -/
def Before (p q : Position) : Prop := p.line < q.line ∨ p.line = q.line ∧ p.column < q.column

theorem Before.trans {p q r : Position} (h : p.Before q) (h' : q.Before r) : p.Before r := by
  unfold Before at *
  omega

theorem Before.ne {p q : Position} (h : p.Before q) : p ≠ q := by
  rintro rfl
  unfold Before at h
  omega

/-- A character moves the place forward. -/
theorem before_step (p : Position) (c : Char) : p.Before (p.step c) := by
  unfold Before step
  split
  · exact .inl (Int.lt_succ p.line)
  · exact .inr ⟨rfl, Int.lt_succ p.column⟩

theorem before_after_cons (p : Position) (c : Char) (t : Text) : p.Before (p.after (c :: t)) := by
  induction t generalizing p c with
  | nil => exact before_step p c
  | cons d t ih => exact (before_step p c).trans (ih (p.step c) d)

/-- Every line feed begins a line. -/
theorem line_after (p : Position) (t : Text) : (p.after t).line = p.line + t.count '\n' := by
  induction t generalizing p with
  | nil => simp
  | cons c t ih =>
      rw [after_cons, ih, step]
      by_cases hc : c = '\n'
      · rw [if_pos hc, hc, List.count_cons_self]
        simp only [Int.natCast_add, Int.cast_ofNat_Int]
        omega
      · rw [if_neg hc, List.count_cons_of_ne hc]

end Position

namespace Text

theorem charFrom?_after (here : Position) (s : Text) (c : Char) (t : Text) :
    charFrom? here (here.after s) (s ++ c :: t) = some c := by
  induction s generalizing here with
  | nil => simp [charFrom?]
  | cons d s ih =>
      rw [List.cons_append, charFrom?, if_neg (Position.before_after_cons here d s).ne]
      exact ih (here.step d)

/-- **The character behind a beginning** stands where the beginning ends. -/
theorem charAt?_after (s : Text) (c : Char) (t : Text) :
    charAt? (s ++ c :: t) (Position.start.after s) = some c :=
  charFrom?_after Position.start s c t

/-! ## where lines begin -/

/-- A line begins behind the text. -/
def LineStart (t : Text) : Prop := t = [] ∨ t.getLast? = some '\n'

theorem lineStart_nil : LineStart [] := .inl rfl

theorem lineStart_cons {c : Char} {t : Text} :
    LineStart (c :: t) ↔ t = [] ∧ c = '\n' ∨ t ≠ [] ∧ LineStart t := by
  cases t with
  | nil => simp [LineStart]
  | cons d t => simp [LineStart]

/-- Behind a line feed the column is zero. -/
theorem after_of_lineStart {t : Text} (h : LineStart t) (p : Position) :
    p.after t = if t.count '\n' = 0 then p else ⟨p.line + t.count '\n', 0⟩ := by
  rcases h with rfl | hlast
  · simp
  · obtain ⟨s, rfl⟩ := List.getLast?_eq_some_iff.mp hlast
    have hcount : (s ++ ['\n']).count '\n' = s.count '\n' + 1 := by simp
    rw [if_neg (by omega), Position.after_append, hcount]
    simp only [Position.after_cons, Position.after_nil, Position.step, if_true,
      Position.line_after, Position.mk.injEq, and_true]
    omega

instance (t : Text) : Decidable (LineStart t) := inferInstanceAs (Decidable (_ ∨ _))

/-- How many lines hold a character; a line feed belongs to the line that it
ends. -/
def lineCount (t : Text) : Nat := if LineStart t then t.count '\n' else t.count '\n' + 1

theorem lineCount_cons_lineFeed (t : Text) : lineCount ('\n' :: t) = lineCount t + 1 := by
  have hstart : LineStart ('\n' :: t) ↔ LineStart t := by
    rw [lineStart_cons]
    by_cases ht : t = [] <;> simp [ht, lineStart_nil]
  unfold lineCount
  by_cases h : LineStart t
  · rw [if_pos h, if_pos (hstart.mpr h), List.count_cons_self]
  · rw [if_neg h, if_neg fun hcons => h (hstart.mp hcons), List.count_cons_self]

theorem lineCount_cons_of_ne {d : Char} (hd : d ≠ '\n') (t : Text) :
    lineCount (d :: t) = if t = [] then 1 else lineCount t := by
  unfold lineCount
  by_cases ht : t = []
  · simp [ht, lineStart_cons, hd]
  · have hstart : LineStart (d :: t) ↔ LineStart t := by simp [lineStart_cons, ht]
    rw [if_neg ht, List.count_cons_of_ne hd]
    by_cases h : LineStart t
    · rw [if_pos h, if_pos (hstart.mpr h)]
    · rw [if_neg h, if_neg fun hcons => h (hstart.mp hcons)]

/-- Every line that holds a character begins behind as many line feeds as there
are lines before it. -/
theorem exists_lineStart_of_lt {t : Text} {i : Nat} (h : i < lineCount t) :
    ∃ x c y, t = x ++ c :: y ∧ LineStart x ∧ x.count '\n' = i := by
  induction t generalizing i with
  | nil => simp [lineCount, lineStart_nil] at h
  | cons d t ih =>
      cases i with
      | zero => exact ⟨[], d, t, rfl, lineStart_nil, rfl⟩
      | succ i =>
          by_cases hd : d = '\n'
          · subst hd
            rw [lineCount_cons_lineFeed] at h
            obtain ⟨x, c, y, rfl, hx, hcount⟩ := ih (Nat.lt_of_succ_lt_succ h)
            refine ⟨'\n' :: x, c, y, rfl, ?_, by rw [List.count_cons_self, hcount]⟩
            rw [lineStart_cons]
            by_cases hnil : x = []
            · exact .inl ⟨hnil, rfl⟩
            · exact .inr ⟨hnil, hx⟩
          · rw [lineCount_cons_of_ne hd] at h
            by_cases ht : t = []
            · rw [if_pos ht] at h
              omega
            rw [if_neg ht] at h
            obtain ⟨x, c, y, rfl, hx, hcount⟩ := ih h
            have hne : x ≠ [] := by
              rintro rfl
              simp at hcount
            exact ⟨d :: x, c, y, rfl, lineStart_cons.mpr (.inr ⟨hne, hx⟩), by
              rw [List.count_cons_of_ne hd, hcount]⟩

/-- Behind the beginning of a line comes a character of one more line. -/
theorem count_lt_lineCount (x : Text) (c : Char) (y : Text) :
    x.count '\n' < lineCount (x ++ c :: y) := by
  unfold lineCount
  rw [List.count_append]
  by_cases h : LineStart (x ++ c :: y)
  · rw [if_pos h]
    have hlast : (c :: y).getLast? = some '\n' := by simpa [LineStart] using h
    have hpos := List.count_pos_iff.mpr (List.mem_of_getLast? hlast)
    omega
  · rw [if_neg h]
    omega

end Text

end SourceMerge
