import SourceMerge.Proofs.Directive.Removal

/-!
# SourceMerge.Proofs.Directive.Seams

Directives in a stripped text.  A text is stripped in one pass, and what a
directive leaves joined on its two sides is not read again:

```
dependsdependsOn("a");On("b");      a directive among the text of another one
depends|On("b");                    what is left, and its seam
```

Such a seam is the only way for a directive to be left over: whether one begins
at an offset shows in the text up to its closing bracket (`read?_core`), and where
no seam lies in that text, it stands in the full text as well, where it would have
been taken out.
-/

namespace SourceMerge.Directive

/-! ## what makes a directive -/

/-- A directive up to its closing bracket, without the optional end. -/
def core (marker reference : Text) : Text := marker ++ ['(', '"'] ++ reference ++ ['"', ')']

/-- Most characters of a reference stand for themselves. -/
theorem reference?_cons {c : Char} (hquote : c ≠ '"') (hslash : c ≠ '\\') (t : Text) :
    reference? (c :: t) = (reference? t).map fun (body, after) => (c :: body, after) := by
  rw [reference?] <;> simp [hquote, hslash]

/-- A reference is read the same whatever follows its end. -/
theorem reference?_append {t reference after : Text} (h : reference? t = some (reference, after))
    (other : Text) : reference? (reference ++ '"' :: ')' :: other) = some (reference, other) := by
  fun_induction reference? t generalizing reference after with
  | case1 rest =>
      obtain ⟨rfl, -⟩ := Prod.mk.inj (Option.some.inj h)
      rfl
  | case2 => contradiction
  | case3 => contradiction
  | case4 c rest hc ih =>
      obtain ⟨⟨body, rest'⟩, hbody, heq⟩ := Option.map_eq_some_iff.mp h
      obtain ⟨rfl, -⟩ := Prod.mk.inj heq
      simp [reference?, hc, ih hbody]
  | case5 => contradiction
  | case6 c rest hclose hquote hpair hlast ih =>
      obtain ⟨⟨body, rest'⟩, hbody, heq⟩ := Option.map_eq_some_iff.mp h
      obtain ⟨rfl, -⟩ := Prod.mk.inj heq
      have hslash : c ≠ '\\' := fun hc => by
        cases rest with
        | nil => exact hlast hc rfl
        | cons next rest => exact hpair next rest hc rfl
      rw [List.cons_append, reference?_cons hquote hslash, ih hbody]
      rfl
  | case7 => contradiction

/-- A directive begins with its core, and wherever that core stands one can be
read. -/
theorem read?_core {marker t : Text} {d : Directive} (h : read? marker t = some d) :
    ∃ rest, t = core marker d.reference ++ rest ∧
      ∀ other, read? marker (core marker d.reference ++ other) ≠ none := by
  unfold read? at h
  cases hdrop : Text.dropStart? (marker ++ ['(', '"']) t with
  | none => simp [hdrop] at h
  | some body =>
      cases href : reference? body with
      | none => simp [hdrop, href] at h
      | some found =>
          obtain ⟨reference, rest⟩ := found
          simp only [hdrop, href, Option.some.injEq] at h
          subst h
          refine ⟨rest, ?_, fun other => ?_⟩
          · rw [Text.eq_of_dropStart? hdrop, eq_of_reference? href]
            simp [core]
          · have hother : core marker reference ++ other =
                (marker ++ ['(', '"']) ++ (reference ++ '"' :: ')' :: other) := by simp [core]
            simp only [read?, hother, Text.dropStart?_append, reference?_append href]
            exact Option.some_ne_none _

theorem core_ne_nil (marker reference : Text) : core marker reference ≠ [] := by simp [core]

/-! ## seams -/

/-- Plain text is read off plain characters one after the other, unless a
directive stands among them. -/
theorem exists_run_or_directive {tokens : List Token} {x y : Text} (h : plainText tokens = x ++ y) :
    (∃ after, tokens = x.map Token.plain ++ after) ∨
      ∃ (opened closed : Text) (d : Directive) (after : List Token),
        tokens = opened.map Token.plain ++ .directive d :: after ∧
          x = opened ++ closed ∧ closed ≠ [] := by
  induction x generalizing tokens with
  | nil => exact .inl ⟨tokens, rfl⟩
  | cons c x ih =>
      cases tokens with
      | nil => simp [plainText] at h
      | cons token tokens =>
          cases token with
          | directive d => exact .inr ⟨[], c :: x, d, tokens, rfl, rfl, List.cons_ne_nil c x⟩
          | plain e =>
              obtain ⟨rfl, hrest⟩ := List.cons.inj h
              cases ih hrest with
              | inl hrun =>
                  obtain ⟨after, rfl⟩ := hrun
                  exact .inl ⟨after, rfl⟩
              | inr hbroken =>
                  obtain ⟨opened, closed, d, after, rfl, rfl, hclosed⟩ := hbroken
                  exact .inr ⟨e :: opened, closed, d, after, rfl, rfl, hclosed⟩

/-- The characters of a directive do not stand one after the other among the plain
characters of a scanned text. -/
theorem scan_ne_core {marker raw reference : Text} {before after : List Token}
    (hread : ∀ other, read? marker (core marker reference ++ other) ≠ none) :
    scan marker raw ≠ before ++ ((core marker reference).map Token.plain ++ after) := by
  intro htokens
  obtain ⟨c, rest, hcore⟩ := List.exists_cons_of_ne_nil (core_ne_nil marker reference)
  have hdrop := drop_cut htokens
  have hlexemes : lexemes ((core marker reference).map Token.plain ++ after) =
      core marker reference ++ lexemes after := by
    rw [lexemes_append]
    exact congrArg (· ++ lexemes after) (flatMap_lexeme_plain _)
  refine hread (lexemes after) ?_
  rw [← hlexemes, ← hdrop]
  rw [hcore, List.map_cons] at htokens
  exact read?_cut_plain htokens

/-- **What stripping leaves over.**  Stripping reads a text once, so a directive
can be left in it; but only one that a removal has put together.  Every directive
of the stripped text has two parts: the first one ends what is kept of the full
text in front of a directive there, and the second one is what follows when that
directive is taken out. -/
theorem strip_leaves_seams (marker raw : Text) :
    let content := (strip marker raw).content
    ∀ n ∈ findAll marker content, ∃ m ∈ findAll marker raw, ∃ opened closed rest,
      opened ≠ [] ∧ closed ≠ [] ∧ core marker n.reference = opened ++ closed ∧
        kept (findAll marker raw) (raw.take m.first) = content.take n.first ++ opened ∧
        content = kept (findAll marker raw) (raw.take m.first) ++ closed ++ rest := by
  intro content n hn
  obtain ⟨d, hd, -, href⟩ := read?_of_mem_findAll hn
  obtain ⟨rest, hrest, hread⟩ := read?_core hd
  rw [← href] at hrest hread
  have hcontent : plainText (scan marker raw) = content.take n.first ++ content.drop n.first :=
    (List.take_append_drop n.first _).symm
  obtain ⟨before, after, htokens, hbefore, hafter⟩ := exists_cut hcontent
  have hbehind : plainText after = core marker n.reference ++ rest := by
    rw [htokens, plainText_append, hbefore] at hcontent
    rw [List.append_cancel_left hcontent, hrest]
  cases exists_run_or_directive hbehind with
  | inl hrun =>
      obtain ⟨later, rfl⟩ := hrun
      exact absurd htokens (scan_ne_core hread)
  | inr hbroken =>
      obtain ⟨opened, closed, e, later, rfl, hcore, hclosed⟩ := hbroken
      have hopened : opened ≠ [] := fun hnil => hafter e later (by simp [hnil])
      have hcut : scan marker raw = (before ++ opened.map Token.plain) ++ .directive e :: later := by
        rw [htokens, List.append_assoc]
      have hkept : kept (findAll marker raw)
          (raw.take (0 + (lexemes (before ++ opened.map Token.plain)).length)) =
            content.take n.first ++ opened := by
        rw [Nat.zero_add, take_cut hcut, findAll, hcut, kept_append, plainText_append,
          plainText_plain, hbefore]
      refine ⟨_, mem_matchesFrom.mpr ⟨_, e, later, hcut, rfl⟩, opened, closed, rest, hopened,
        hclosed, hcore, hkept, ?_⟩
      calc content
        _ = content.take n.first ++ content.drop n.first := (List.take_append_drop _ _).symm
        _ = content.take n.first ++ (opened ++ closed ++ rest) := by rw [hrest, hcore]
        _ = kept _ _ ++ closed ++ rest := by rw [hkept]; simp only [List.append_assoc]

/-- A directive between the two halves of another one. -/
def nested : Text := "dependsdependsOn(\"a\");On(\"b\");"

theorem findAll_nested : findAll defaultMarker (strip defaultMarker nested).content =
    [⟨0, 15, "b"⟩] := by cbv

/-- Of `nested` the directive in the middle is taken out, and its two halves are put
together at the seam. -/
theorem strip_leaves_seams_nested :
    let content := (strip defaultMarker nested).content
    ⟨0, 15, "b"⟩ ∈ findAll defaultMarker content ∧
      ∃ m ∈ findAll defaultMarker nested, ∃ opened closed rest,
        opened ≠ [] ∧ closed ≠ [] ∧ core defaultMarker "b" = opened ++ closed ∧
          kept (findAll defaultMarker nested) (nested.take m.first) = content.take 0 ++ opened ∧
          content = kept (findAll defaultMarker nested) (nested.take m.first) ++ closed ++ rest := by
  have hleft : ⟨0, 15, "b"⟩ ∈ findAll defaultMarker (strip defaultMarker nested).content := by
    rw [findAll_nested]
    exact List.mem_singleton_self _
  exact ⟨hleft, strip_leaves_seams defaultMarker nested _ hleft⟩

/-- So a stripped text can hold a directive. -/
theorem strip_leaves_directive :
    ¬ ∀ marker raw, findAll marker (strip marker raw).content = [] := by
  intro hnone
  have hleft := hnone defaultMarker nested
  rw [findAll_nested] at hleft
  contradiction

end SourceMerge.Directive
