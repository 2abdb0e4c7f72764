import SourceMerge.Directive
import SourceMerge.Proofs.Text.Place
import SourceMerge.Proofs.Text.Split

/-!
# SourceMerge.Proofs.Directive.Origin

Where the lines of a stripped text come from.  Scanning cuts a text without
losing a character (`flatMap_lexeme_scan`), so a character that is in no
directive stands in the text behind the lexemes of all tokens before its own.
The origins list just these places for the characters that begin a line, one for
each line, whatever directives stand in front of them.
-/

namespace SourceMerge.Directive

/-! ## tokens and their text -/

theorem eq_of_reference? {t reference after : Text} (h : reference? t = some (reference, after)) :
    t = reference ++ '"' :: ')' :: after := by
  fun_induction reference? t generalizing reference after with
  | case1 rest => simp_all
  | case2 => contradiction
  | case3 => contradiction
  | case4 c rest hc ih =>
      obtain ⟨⟨body, rest'⟩, hbody, heq⟩ := Option.map_eq_some_iff.mp h
      obtain ⟨rfl, rfl⟩ := Prod.mk.inj heq
      rw [ih hbody]
      rfl
  | case5 => contradiction
  | case6 c rest _ _ _ _ ih =>
      obtain ⟨⟨body, rest'⟩, hbody, heq⟩ := Option.map_eq_some_iff.mp h
      obtain ⟨rfl, rfl⟩ := Prod.mk.inj heq
      rw [ih hbody]
      rfl
  | case7 => contradiction

/-- The end of a directive is a beginning of what follows its reference. -/
theorem tail_prefix (t : Text) : tail t <+: t := by
  unfold tail
  split
  next semicolon rest heq =>
    have ht : t = semicolon ++ rest := by
      split at heq <;> obtain ⟨rfl, rfl⟩ := Prod.mk.inj heq <;> rfl
    rw [ht]
    split <;> simp

/-- A directive that begins a text is a beginning of it, and has a character. -/
theorem read?_prefix {marker t : Text} {d : Directive} (h : read? marker t = some d) :
    d.lexeme <+: t ∧ d.lexeme ≠ [] := by
  unfold read? at h
  cases hdrop : Text.dropStart? (marker ++ ['(', '"']) t with
  | none => simp [hdrop] at h
  | some rest =>
      cases href : reference? rest with
      | none => simp [hdrop, href] at h
      | some found =>
          obtain ⟨reference, after⟩ := found
          simp only [hdrop, href, Option.some.injEq] at h
          subst h
          obtain ⟨left, hleft⟩ := tail_prefix after
          refine ⟨⟨left, ?_⟩, by simp⟩
          conv => rhs; rw [Text.eq_of_dropStart? hdrop, eq_of_reference? href, ← hleft]
          simp

/-- **Scanning loses nothing.** -/
theorem flatMap_lexeme_scan (marker t : Text) : (scan marker t).flatMap Token.lexeme = t := by
  fun_induction scan marker t with
  | case1 => rfl
  | case2 c rest d hread ih =>
      obtain ⟨⟨left, hleft⟩, hne⟩ := read?_prefix hread
      obtain ⟨e, lexeme, hlex⟩ := List.exists_cons_of_ne_nil hne
      have hrest : d.lexeme ++ rest.drop (d.lexeme.length - 1) = c :: rest := by
        rw [hlex] at hleft ⊢
        obtain ⟨rfl, rfl⟩ := List.cons.inj hleft
        simp
      rw [List.flatMap_cons, ih]
      exact hrest
  | case3 c rest hread ih =>
      rw [List.flatMap_cons, ih]
      rfl

/-! ## characters outside of directives -/

/-- A character of the plain text is a token of its own. -/
theorem exists_token_of_plainText {tokens : List Token} {x y : Text} {c : Char}
    (h : plainText tokens = x ++ c :: y) :
    ∃ before after, tokens = before ++ .plain c :: after ∧ plainText before = x := by
  induction tokens generalizing x with
  | nil => simp [plainText] at h
  | cons token tokens ih =>
      cases token with
      | directive d =>
          obtain ⟨before, after, rfl, hbefore⟩ := ih h
          exact ⟨.directive d :: before, after, rfl, hbefore⟩
      | plain e =>
          cases x with
          | nil =>
              obtain ⟨rfl, -⟩ := List.cons.inj h
              exact ⟨[], tokens, rfl, rfl⟩
          | cons d x =>
              obtain ⟨rfl, htail⟩ := List.cons.inj h
              obtain ⟨before, after, rfl, rfl⟩ := ih htail
              exact ⟨.plain e :: before, after, rfl, rfl⟩

/-- A line feed behind a character ends the rest, or is the character itself. -/
theorem lineEnd_of_cons {e : Char} {t : Text} (h : (e :: t).getLast? = some '\n') :
    (e == '\n') = true ∧ t = [] ∨ t.getLast? = some '\n' := by
  cases t with
  | nil => simpa using h
  | cons d t => simpa using h

/-- A character takes one line feed off the count: its own, or the one that has to
come before the next line begins. -/
theorem exists_count_cons {e : Char} {t : Text}
    (h : (e == '\n') = true ∧ t = [] ∨ t.getLast? = some '\n') :
    ∃ j, j + (if e == '\n' then 0 else 1) = t.count '\n' ∧ (e :: t).count '\n' = j + 1 := by
  by_cases he : e = '\n'
  · refine ⟨t.count '\n', by simp [he], ?_⟩
    rw [he, List.count_cons_self]
  · have hend : t.getLast? = some '\n' := h.resolve_left (by simp [he])
    have hpos : 0 < t.count '\n' := List.count_pos_iff.mpr (List.mem_of_getLast? hend)
    have hne : (e == '\n') = false := beq_eq_false_iff_ne.mpr he
    refine ⟨t.count '\n' - 1, ?_, ?_⟩
    · rw [hne, if_neg Bool.false_ne_true]
      omega
    · rw [List.count_cons_of_ne he]
      omega

/-- The origins list the place of every character that begins a line, and the end
of the text if a line begins there: where a line begins, no directive comes next.
Where the first token does not begin a line, the first line that they list is the
one behind the first line feed. -/
theorem getElem?_originsFrom {before after : List Token} {here : Position} {fresh : Bool}
    (hafter : ∀ d rest, after ≠ .directive d :: rest)
    (h : fresh = true ∧ plainText before = [] ∨ (plainText before).getLast? = some '\n') {i : Nat}
    (hi : i + (if fresh then 0 else 1) = (plainText before).count '\n') :
    (originsFrom here fresh (before ++ after))[i]? =
      some (here.after (before.flatMap Token.lexeme)) := by
  induction before generalizing here fresh i with
  | nil =>
      obtain rfl : fresh = true := by simpa [plainText] using h
      obtain rfl : i = 0 := by simpa [plainText] using hi
      cases after with
      | nil => simp [originsFrom]
      | cons token rest =>
          cases token with
          | directive d => exact absurd rfl (hafter d rest)
          | plain c => simp [originsFrom]
  | cons token before ih =>
      cases token with
      | directive d =>
          rw [List.flatMap_cons, Position.after_append]
          exact ih h hi
      | plain e =>
          have hplain : plainText (.plain e :: before) = e :: plainText before := rfl
          rw [hplain] at h hi
          -- Behind this character the next line is a new one exactly if it is a line feed.
          have hnext := lineEnd_of_cons (e := e) (t := plainText before) (by simpa using h)
          obtain ⟨j, hj, hcount⟩ := exists_count_cons hnext
          have hij : i + (if fresh then 0 else 1) = j + 1 := hi.trans hcount
          have htail : (originsFrom (here.step e) (e == '\n') (before ++ after))[j]? =
              some ((here.step e).after (before.flatMap Token.lexeme)) := ih hnext hj
          have hplace : here.after ((Token.plain e :: before).flatMap Token.lexeme) =
              (here.step e).after (before.flatMap Token.lexeme) := rfl
          rw [List.cons_append, originsFrom, hplace, ← htail]
          cases fresh with
          | true =>
              obtain rfl : i = j + 1 := by simpa using hij
              simp
          | false =>
              obtain rfl : i = j := by simpa using hij
              simp

/-- **Where a line comes from.**  The place that the origins list for a line of
the stripped text shows the character with which that line begins. -/
theorem charAt?_origin {marker raw x y : Text} {c : Char}
    (h : (strip marker raw).content = x ++ c :: y) (hx : Text.LineStart x) :
    ∃ place, (strip marker raw).origins[x.count '\n']? = some place ∧
      Text.charAt? raw place = some c := by
  obtain ⟨before, after, htokens, rfl⟩ := exists_token_of_plainText h
  refine ⟨Position.start.after (before.flatMap Token.lexeme), ?_, ?_⟩
  · have horigins : (strip marker raw).origins =
        originsFrom Position.start true (before ++ .plain c :: after) := by rw [← htokens]; rfl
    rw [horigins]
    exact getElem?_originsFrom (by simp) (hx.imp_left fun hnil => ⟨rfl, hnil⟩) rfl
  · have hraw : raw = before.flatMap Token.lexeme ++ c :: after.flatMap Token.lexeme := by
      rw [← flatMap_lexeme_scan marker raw, htokens, List.flatMap_append, List.flatMap_cons]
      rfl
    conv => lhs; rw [hraw]
    exact Text.charAt?_after _ c _

end SourceMerge.Directive
