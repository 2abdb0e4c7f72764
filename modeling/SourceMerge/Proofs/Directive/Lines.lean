import SourceMerge.Proofs.Directive.Origin

/-!
# SourceMerge.Proofs.Directive.Lines

The lines of a stripped text and the lines of the full text.  Every line of the
stripped text begins on another line of the full text than the lines before it,
for a line feed stands between them.  So what is known of a line of the full
text belongs to one line of the stripped text at most.
-/

namespace SourceMerge

namespace Position

theorem after_of_notMem {t : Text} (h : '\n' ∉ t) (p : Position) :
    p.after t = ⟨p.line, p.column + t.length⟩ := by
  induction t generalizing p with
  | nil => simp
  | cons c t ih =>
      rw [List.mem_cons, not_or] at h
      rw [after_cons, ih h.2, step, if_neg (Ne.symm h.1), List.length_cons]
      simp only [mk.injEq, true_and]
      omega

/-- Walking on never leads back to an earlier line. -/
theorem line_le_line_after (p : Position) (t : Text) : p.line ≤ (p.after t).line := by
  rw [line_after]
  omega

end Position

namespace Directive

theorem scan_of_none {marker : Text} {c : Char} {rest : Text}
    (h : read? marker (c :: rest) = none) : scan marker (c :: rest) = .plain c :: scan marker rest := by
  rw [scan, h]

theorem scan_of_some {marker : Text} {c : Char} {rest : Text} {d : Directive}
    (h : read? marker (c :: rest) = some d) :
    scan marker (c :: rest) = .directive d :: scan marker (rest.drop (d.lexeme.length - 1)) := by
  rw [scan, h]

/-- No directive stands between the beginning of a line and what follows the
tokens. -/
def Unbroken (before : List Token) : Prop :=
  ∃ (earlier : List Token) (line : Text), before = earlier ++ line.map Token.plain ∧ '\n' ∉ line ∧
    Text.LineStart (plainText earlier)

theorem flatMap_lexeme_plain (line : Text) : (line.map Token.plain).flatMap Token.lexeme = line := by
  induction line with
  | nil => rfl
  | cons c line ih => rw [List.map_cons, List.flatMap_cons, ih]; rfl

theorem plainText_plain (line : Text) : plainText (line.map Token.plain) = line := by
  induction line with
  | nil => rfl
  | cons c line ih =>
      rw [List.map_cons, plainText, List.flatMap_cons]
      exact congrArg (c :: ·) ih

theorem plainText_append (s t : List Token) : plainText (s ++ t) = plainText s ++ plainText t :=
  List.flatMap_append

/-- The plain text is what the full text keeps. -/
theorem plainText_sublist (tokens : List Token) :
    (plainText tokens).Sublist (tokens.flatMap Token.lexeme) := by
  induction tokens with
  | nil => exact List.Sublist.refl _
  | cons token tokens ih =>
      cases token with
      | directive d => exact ih.trans (List.sublist_append_right _ _)
      | plain c => exact ih.cons_cons c

/-- There is an origin for each line of the plain text, also for the empty rest
behind its last line feed. -/
theorem length_originsFrom (here : Position) (fresh : Bool) (tokens : List Token) :
    (originsFrom here fresh tokens).length =
      (plainText tokens).count '\n' + (if fresh then 1 else 0) := by
  induction tokens generalizing here fresh with
  | nil => cases fresh <;> rfl
  | cons token tokens ih =>
      cases token with
      | directive d => exact ih (here.after d.lexeme) fresh
      | plain c =>
          have hplain : plainText (.plain c :: tokens) = c :: plainText tokens := rfl
          have hlater := ih (here.step c) (c == '\n')
          rw [hplain, List.count_cons, originsFrom]
          cases fresh with
          | true =>
              simp only [if_true, List.length_cons, hlater]
          | false =>
              simp only [Bool.false_eq_true, if_false, hlater, Nat.add_zero]

/-- Origins lie on different lines, and ascend. -/
theorem pairwise_originsFrom (here : Position) (fresh : Bool) (tokens : List Token) :
    (originsFrom here fresh tokens).Pairwise (·.line < ·.line) ∧
      ∀ o ∈ originsFrom here fresh tokens,
        if fresh then here.line ≤ o.line else here.line < o.line := by
  induction tokens generalizing here fresh with
  | nil => cases fresh <;> simp [originsFrom]
  | cons token tokens ih =>
      cases token with
      | directive d =>
          obtain ⟨hpairwise, hlater⟩ := ih (here.after d.lexeme) fresh
          refine ⟨hpairwise, fun o ho => ?_⟩
          have hline := here.line_le_line_after d.lexeme
          have hbound := hlater o ho
          cases fresh <;> simp only [Bool.false_eq_true, if_false, if_true] at hbound ⊢ <;> omega
      | plain c =>
          obtain ⟨hpairwise, hlater⟩ := ih (here.step c) (c == '\n')
          have hbehind : ∀ o ∈ originsFrom (here.step c) (c == '\n') tokens, here.line < o.line := by
            intro o ho
            have hbound := hlater o ho
            by_cases hc : c = '\n'
            · simp only [hc, Position.step, beq_self_eq_true, if_true] at hbound
              omega
            · simpa only [Position.step, if_neg hc, beq_eq_false_iff_ne.mpr hc, Bool.false_eq_true,
                if_false] using hbound
          rw [originsFrom]
          cases fresh with
          | true =>
              simp only [if_true]
              refine ⟨List.pairwise_cons.mpr ⟨hbehind, hpairwise⟩, fun o ho => ?_⟩
              rcases List.mem_cons.mp ho with rfl | ho
              · exact Int.le_refl _
              · exact Int.le_of_lt (hbehind o ho)
          | false =>
              simp only [Bool.false_eq_true, if_false]
              exact ⟨hpairwise, hbehind⟩

end Directive

end SourceMerge
