import SourceMerge.Proofs.Directive.Lines

/-!
# SourceMerge.Proofs.Directive.Removal

Stripping said by offsets.  A text and the places of its directives
(`findAll`) determine the stripped text: it is what is left of the text when the
characters at the offsets that a directive covers are taken out (`kept`).

```
raw      a b [ d i r e c t i v e ] c [ d i r ]
offset   0 1  2 ...                n  n+1 ...
kept     a b                       c
```

Tokens carry both views.  Those in front of a token fill the text up to an
offset, and their plain text is what is kept up to there (`kept_append`); so what
stands at an offset, how much was kept before it and where a line of the stripped
text begins are read off one and the same cut of the tokens.
-/

namespace SourceMerge.Directive

/-! ## covered offsets -/

/-- An offset lies inside one of the matches. -/
def Covered (ms : List Match) (i : Nat) : Prop := ∃ m ∈ ms, m.first ≤ i ∧ i < m.last

instance (ms : List Match) (i : Nat) : Decidable (Covered ms i) :=
  inferInstanceAs (Decidable (∃ m ∈ ms, m.first ≤ i ∧ i < m.last))

@[simp] theorem covered_nil (i : Nat) : ¬ Covered [] i := by simp [Covered]

@[simp] theorem covered_cons {m : Match} {ms : List Match} {i : Nat} :
    Covered (m :: ms) i ↔ m.first ≤ i ∧ i < m.last ∨ Covered ms i := by simp [Covered]

@[simp] theorem covered_append {ms ns : List Match} {i : Nat} :
    Covered (ms ++ ns) i ↔ Covered ms i ∨ Covered ns i := by
  simp [Covered, or_and_right, exists_or]

/-- The characters of a text that begins at `offset`, without the covered ones. -/
def keptFrom (ms : List Match) (offset : Nat) (t : Text) : Text :=
  ((t.zipIdx offset).filter fun e => !decide (Covered ms e.2)).map (·.1)

/-- **What is left of a text** when the characters inside the matches are taken
out. -/
def kept (ms : List Match) (t : Text) : Text := keptFrom ms 0 t

theorem keptFrom_append (ms : List Match) (offset : Nat) (s t : Text) :
    keptFrom ms offset (s ++ t) = keptFrom ms offset s ++ keptFrom ms (offset + s.length) t := by
  simp [keptFrom, List.zipIdx_append]

theorem keptFrom_cons (ms : List Match) (offset : Nat) (c : Char) (t : Text) :
    keptFrom ms offset (c :: t) =
      (if Covered ms offset then [] else [c]) ++ keptFrom ms (offset + 1) t := by
  by_cases h : Covered ms offset <;> simp [keptFrom, h]

/-- Only the offsets of the text itself count. -/
theorem keptFrom_congr {ms ns : List Match} {offset : Nat} {t : Text}
    (h : ∀ i, offset ≤ i → i < offset + t.length → (Covered ms i ↔ Covered ns i)) :
    keptFrom ms offset t = keptFrom ns offset t := by
  induction t generalizing offset with
  | nil => rfl
  | cons c t ih =>
      have hhere := h offset (Nat.le_refl _) (by simp)
      have hlater : keptFrom ms (offset + 1) t = keptFrom ns (offset + 1) t :=
        ih fun i hi hlt => h i (by omega) (by simp; omega)
      rw [keptFrom_cons, keptFrom_cons, hlater]
      simp only [hhere]

/-- Nothing is left of a text inside a match. -/
theorem keptFrom_of_covered {ms : List Match} {offset : Nat} {t : Text}
    (h : ∀ i, offset ≤ i → i < offset + t.length → Covered ms i) : keptFrom ms offset t = [] := by
  induction t generalizing offset with
  | nil => rfl
  | cons c t ih =>
      have hlater : keptFrom ms (offset + 1) t = [] :=
        ih fun i hi hlt => h i (by omega) (by simp; omega)
      rw [keptFrom_cons, if_pos (h offset (Nat.le_refl _) (by simp)), hlater, List.nil_append]

/-! ## the matches among tokens -/

/-- The characters that tokens were read from. -/
def lexemes (tokens : List Token) : Text := tokens.flatMap Token.lexeme

@[simp] theorem lexemes_nil : lexemes [] = [] := rfl

@[simp] theorem lexemes_plain (c : Char) (tokens : List Token) :
    lexemes (.plain c :: tokens) = c :: lexemes tokens := rfl

@[simp] theorem lexemes_directive (d : Directive) (tokens : List Token) :
    lexemes (.directive d :: tokens) = d.lexeme ++ lexemes tokens := rfl

@[simp] theorem lexemes_append (s t : List Token) : lexemes (s ++ t) = lexemes s ++ lexemes t :=
  List.flatMap_append

theorem matchesFrom_append (offset : Nat) (s t : List Token) :
    matchesFrom offset (s ++ t) =
      matchesFrom offset s ++ matchesFrom (offset + (lexemes s).length) t := by
  induction s generalizing offset with
  | nil => rfl
  | cons token s ih =>
      cases token with
      | plain c => simp [matchesFrom, ih, Nat.add_assoc, Nat.add_comm]
      | directive d => simp [matchesFrom, ih, Nat.add_assoc]

/-- Matches lie where the tokens stand. -/
theorem bounds_of_mem_matchesFrom {offset : Nat} {tokens : List Token} {m : Match}
    (h : m ∈ matchesFrom offset tokens) :
    offset ≤ m.first ∧ m.first ≤ m.last ∧ m.last ≤ offset + (lexemes tokens).length := by
  induction tokens generalizing offset with
  | nil => simp [matchesFrom] at h
  | cons token tokens ih =>
      cases token with
      | plain c =>
          have hlater : offset + 1 ≤ m.first ∧ m.first ≤ m.last ∧
              m.last ≤ offset + 1 + (lexemes tokens).length := ih h
          simp only [lexemes_plain, List.length_cons]
          omega
      | directive d =>
          simp only [lexemes_directive, List.length_append]
          rcases List.mem_cons.mp h with rfl | hrest
          · simp
          · have hlater := ih hrest
            omega

theorem covered_matchesFrom {offset : Nat} {tokens : List Token} {i : Nat}
    (h : Covered (matchesFrom offset tokens) i) :
    offset ≤ i ∧ i < offset + (lexemes tokens).length := by
  obtain ⟨m, hm, hfirst, hlast⟩ := h
  have hbounds := bounds_of_mem_matchesFrom hm
  omega

/-- What is kept of the characters of tokens is their plain text. -/
theorem keptFrom_matchesFrom (offset : Nat) (tokens : List Token) :
    keptFrom (matchesFrom offset tokens) offset (lexemes tokens) = plainText tokens := by
  induction tokens generalizing offset with
  | nil => rfl
  | cons token tokens ih =>
      cases token with
      | plain c =>
          have hfree : ¬ Covered (matchesFrom (offset + 1) tokens) offset := fun h => by
            have hbounds := covered_matchesFrom h
            omega
          change keptFrom (matchesFrom (offset + 1) tokens) offset (c :: lexemes tokens) = _
          rw [keptFrom_cons, if_neg hfree, ih]
          rfl
      | directive d =>
          have hinside : keptFrom (matchesFrom offset (.directive d :: tokens)) offset d.lexeme =
              [] := keptFrom_of_covered fun i hi hlt => covered_cons.mpr (.inl ⟨hi, hlt⟩)
          have hbehind : keptFrom (matchesFrom offset (.directive d :: tokens))
              (offset + d.lexeme.length) (lexemes tokens) = plainText tokens := by
            rw [← ih (offset + d.lexeme.length)]
            refine keptFrom_congr fun i hi _ => ?_
            have hpast : ¬ (offset ≤ i ∧ i < offset + d.lexeme.length) := by omega
            simp only [matchesFrom, covered_cons, hpast, false_or]
          rw [lexemes_directive, keptFrom_append, hinside, hbehind]
          rfl

/-! ## a cut between tokens -/

section Cut

variable {marker raw : Text} {before after : List Token}

theorem lexemes_scan (marker t : Text) : lexemes (scan marker t) = t := flatMap_lexeme_scan marker t

/-- **Up to a cut** the plain text of the tokens is kept. -/
theorem kept_append (before after : List Token) :
    kept (matchesFrom 0 (before ++ after)) (lexemes before) = plainText before := by
  rw [← keptFrom_matchesFrom 0 before]
  refine keptFrom_congr fun i _ hlt => ?_
  rw [matchesFrom_append, covered_append]
  refine or_iff_left fun h => ?_
  have hbounds := covered_matchesFrom h
  omega

/-- Where no directive comes next, the offset of a cut is not covered. -/
theorem not_covered_cut (hafter : ∀ d rest, after ≠ .directive d :: rest) :
    ¬ Covered (matchesFrom 0 (before ++ after)) (lexemes before).length := by
  rw [matchesFrom_append, covered_append]
  intro h
  cases h with
  | inl hfront =>
      have hbounds := covered_matchesFrom hfront
      omega
  | inr hback =>
      cases after with
      | nil => simp [matchesFrom] at hback
      | cons token rest =>
          cases token with
          | directive d => exact hafter d rest rfl
          | plain c =>
              have hlater : Covered (matchesFrom (0 + (lexemes before).length + 1) rest)
                  (lexemes before).length := hback
              have hbounds := covered_matchesFrom hlater
              omega

/-- Scanning goes on from a cut as it would from the beginning of a text. -/
theorem scan_cut (h : scan marker raw = before ++ after) : scan marker (lexemes after) = after := by
  induction before generalizing raw with
  | nil =>
      have hafter : scan marker raw = after := h
      rw [← hafter, lexemes_scan]
  | cons token before ih =>
      cases raw with
      | nil => simp [scan] at h
      | cons c rest =>
          cases hread : read? marker (c :: rest) with
          | none =>
              rw [scan_of_none hread] at h
              exact ih (List.cons.inj h).2
          | some d =>
              rw [scan_of_some hread] at h
              exact ih (List.cons.inj h).2

/-- A cut divides the text. -/
theorem eq_append_cut (h : scan marker raw = before ++ after) :
    raw = lexemes before ++ lexemes after := by
  rw [← lexemes_append, ← h, lexemes_scan]

theorem drop_cut (h : scan marker raw = before ++ after) :
    raw.drop (lexemes before).length = lexemes after := by
  rw [eq_append_cut h, List.drop_left]

theorem take_cut (h : scan marker raw = before ++ after) :
    raw.take (lexemes before).length = lexemes before := by
  rw [eq_append_cut h, List.take_left]

/-- A directive stands where one can be read. -/
theorem read?_cut_directive {d : Directive} (h : scan marker raw = before ++ .directive d :: after) :
    read? marker (raw.drop (lexemes before).length) = some d := by
  have hscan := scan_cut h
  rw [drop_cut h]
  cases hlex : lexemes (.directive d :: after) with
  | nil => simp [hlex, scan] at hscan
  | cons c rest =>
      rw [hlex] at hscan
      cases hread : read? marker (c :: rest) with
      | none => simp [scan_of_none hread] at hscan
      | some e =>
          rw [scan_of_some hread] at hscan
          obtain ⟨hsame, -⟩ := List.cons.inj hscan
          rw [Token.directive.inj hsame]

/-- A character stands by itself where no directive can be read. -/
theorem read?_cut_plain {c : Char} (h : scan marker raw = before ++ .plain c :: after) :
    read? marker (raw.drop (lexemes before).length) = none := by
  have hscan := scan_cut h
  rw [drop_cut h]
  cases hread : read? marker (c :: lexemes after) with
  | none => exact hread
  | some e =>
      rw [lexemes_plain, scan_of_some hread] at hscan
      simp at hscan

end Cut

/-! ## the directives of a text -/

theorem map_reference_matchesFrom (offset : Nat) (tokens : List Token) :
    (matchesFrom offset tokens).map (·.reference) = references tokens := by
  induction tokens generalizing offset with
  | nil => rfl
  | cons token tokens ih =>
      cases token with
      | plain c => exact ih (offset + 1)
      | directive d => exact congrArg (d.reference :: ·) (ih (offset + d.lexeme.length))

/-- Matches do not overlap, and ascend. -/
theorem pairwise_matchesFrom (offset : Nat) (tokens : List Token) :
    (matchesFrom offset tokens).Pairwise fun a b => a.last ≤ b.first := by
  induction tokens generalizing offset with
  | nil => exact List.Pairwise.nil
  | cons token tokens ih =>
      cases token with
      | plain c => exact ih (offset + 1)
      | directive d =>
          refine List.pairwise_cons.mpr ⟨fun m hm => ?_, ih _⟩
          exact (bounds_of_mem_matchesFrom hm).1

/-- A match is a directive among the tokens, at the offset of its cut. -/
theorem mem_matchesFrom {offset : Nat} {tokens : List Token} {m : Match} :
    m ∈ matchesFrom offset tokens ↔
      ∃ before d after, tokens = before ++ .directive d :: after ∧
        m = ⟨offset + (lexemes before).length, offset + (lexemes before).length + d.lexeme.length,
          d.reference⟩ := by
  constructor
  · intro h
    induction tokens generalizing offset with
    | nil => simp [matchesFrom] at h
    | cons token tokens ih =>
        cases token with
        | plain c =>
            have hrest : m ∈ matchesFrom (offset + 1) tokens := h
            obtain ⟨before, d, after, rfl, rfl⟩ := ih hrest
            exact ⟨.plain c :: before, d, after, rfl, by simp [Nat.add_assoc, Nat.add_comm]⟩
        | directive e =>
            cases List.mem_cons.mp h with
            | inl hfirst => exact ⟨[], e, tokens, rfl, hfirst⟩
            | inr hrest =>
                obtain ⟨before, d, after, rfl, rfl⟩ := ih hrest
                exact ⟨.directive e :: before, d, after, rfl, by simp [Nat.add_assoc]⟩
  · intro h
    obtain ⟨before, d, after, rfl, rfl⟩ := h
    rw [matchesFrom_append]
    exact List.mem_append_right _ List.mem_cons_self

/-- Every match is the directive that can be read at its offset. -/
theorem read?_of_mem_findAll {marker raw : Text} {m : Match} (h : m ∈ findAll marker raw) :
    ∃ d, read? marker (raw.drop m.first) = some d ∧ m.last = m.first + d.lexeme.length ∧
      m.reference = d.reference := by
  obtain ⟨before, d, after, htokens, rfl⟩ := mem_matchesFrom.mp h
  refine ⟨d, ?_, rfl, rfl⟩
  rw [Nat.zero_add]
  exact read?_cut_directive htokens

/-- An offset that is not covered is that of a character by itself. -/
theorem exists_plain_of_not_covered {offset i : Nat} {tokens : List Token}
    (h : ¬ Covered (matchesFrom offset tokens) (offset + i)) (hi : i < (lexemes tokens).length) :
    ∃ before c after, tokens = before ++ .plain c :: after ∧ (lexemes before).length = i := by
  induction tokens generalizing offset i with
  | nil => simp at hi
  | cons token tokens ih =>
      cases token with
      | plain c =>
          cases i with
          | zero => exact ⟨[], c, tokens, rfl, rfl⟩
          | succ i =>
              have hlater : ¬ Covered (matchesFrom (offset + 1) tokens) (offset + 1 + i) := by
                rw [Nat.add_assoc, Nat.add_comm 1 i]
                exact h
              obtain ⟨before, e, after, rfl, hlength⟩ := ih hlater (by simpa using hi)
              exact ⟨.plain c :: before, e, after, rfl, by simp [hlength]⟩
      | directive d =>
          have hsplit := not_or.mp (mt covered_cons.mpr h)
          have hpast : d.lexeme.length ≤ i := by
            have hfirst := hsplit.1
            simp only at hfirst
            omega
          obtain ⟨j, rfl⟩ := Nat.exists_eq_add_of_le hpast
          have hlater : ¬ Covered (matchesFrom (offset + d.lexeme.length) tokens)
              (offset + d.lexeme.length + j) := by
            rw [Nat.add_assoc]
            exact hsplit.2
          have hj : j < (lexemes tokens).length := by simpa using hi
          obtain ⟨before, e, after, rfl, hlength⟩ := ih hlater hj
          exact ⟨.directive d :: before, e, after, rfl, by simp [hlength]⟩

/-- No directive is passed over: outside of the matches none can be read. -/
theorem read?_of_not_covered {marker raw : Text} {i : Nat}
    (h : ¬ Covered (findAll marker raw) i) : read? marker (raw.drop i) = none := by
  by_cases hi : i < raw.length
  · have hat : ¬ Covered (matchesFrom 0 (scan marker raw)) (0 + i) := by rwa [Nat.zero_add]
    obtain ⟨before, c, after, htokens, rfl⟩ :=
      exists_plain_of_not_covered hat (by rwa [lexemes_scan])
    exact read?_cut_plain htokens
  · rw [List.drop_eq_nil_of_le (by omega)]
    simp [read?, Text.dropStart?]

/-! ## where lines come from -/

/-- The offset `p` of a text is where its stripped text has the offset `start`:
that many characters are kept in front of it, it is in no match, and the same
character stands at both, or both are the ends. -/
structure OriginOf (ms : List Match) (raw content : Text) (start p : Nat) : Prop where
  precede : (kept ms (raw.take p)).length = start
  free : ¬ Covered ms p
  same : (∃ c, raw[p]? = some c ∧ content[start]? = some c) ∨
    p = raw.length ∧ start = content.length

/-- A character that is kept counts from there on. -/
theorem length_kept_take_lt {ms : List Match} {raw : Text} {p q : Nat} (hp : p < raw.length)
    (hfree : ¬ Covered ms p) (hpq : p < q) :
    (kept ms (raw.take p)).length < (kept ms (raw.take q)).length := by
  obtain ⟨k, rfl⟩ : ∃ k, q = p + (k + 1) := ⟨q - p - 1, by omega⟩
  have hsplit : raw.take (p + (k + 1)) = raw.take p ++ raw[p] :: (raw.drop (p + 1)).take k := by
    rw [List.take_add, List.drop_eq_getElem_cons hp, List.take_succ_cons]
  have hlength : 0 + (raw.take p).length = p := by
    rw [List.length_take]
    omega
  rw [hsplit, kept, kept, keptFrom_append, keptFrom_cons, hlength, if_neg hfree]
  simp

/-- There is one such offset at most. -/
theorem OriginOf.unique {ms : List Match} {raw content : Text} {start p q : Nat}
    (hp : OriginOf ms raw content start p) (hq : OriginOf ms raw content start q) : p = q := by
  have hle : ∀ {r}, OriginOf ms raw content start r → r ≤ raw.length := fun {r} hr => by
    cases hr.same with
    | inl hchar =>
        obtain ⟨c, hc, -⟩ := hchar
        exact Nat.le_of_lt (List.getElem?_eq_some_iff.mp hc).1
    | inr hend => exact Nat.le_of_eq hend.1
  have hnot : ∀ {r s}, OriginOf ms raw content start r → OriginOf ms raw content start s →
      ¬ r < s := fun {r s} hr hs hlt => by
    have hinside : r < raw.length := Nat.lt_of_lt_of_le hlt (hle hs)
    have hcount := length_kept_take_lt hinside hr.free hlt
    rw [hr.precede, hs.precede] at hcount
    exact Nat.lt_irrefl _ hcount
  have hforth := hnot hp hq
  have hback := hnot hq hp
  omega

/-- A cut at which no directive comes next shows where its plain text ends in the
stripped text. -/
theorem originOf_cut {marker raw : Text} {before after : List Token}
    (h : scan marker raw = before ++ after) (hafter : ∀ d rest, after ≠ .directive d :: rest) :
    OriginOf (findAll marker raw) raw (plainText (scan marker raw)) (plainText before).length
      (lexemes before).length where
  precede := by rw [take_cut h, findAll, h, kept_append]
  free := by
    rw [findAll, h]
    exact not_covered_cut hafter
  same := by
    have hraw := eq_append_cut h
    have hcontent : plainText (scan marker raw) = plainText before ++ plainText after := by
      rw [h, plainText_append]
    cases after with
    | nil =>
        refine .inr ⟨?_, ?_⟩
        · rw [hraw]
          simp
        · rw [hcontent]
          simp [plainText]
    | cons token rest =>
        cases token with
        | directive d => exact absurd rfl (hafter d rest)
        | plain c =>
            refine .inl ⟨c, ?_, ?_⟩
            · rw [hraw]
              simp
            · rw [hcontent]
              simp [plainText]

/-- A line of the plain text begins at a cut where no directive comes next. -/
theorem exists_cut {tokens : List Token} {x y : Text} (h : plainText tokens = x ++ y) :
    ∃ before after, tokens = before ++ after ∧ plainText before = x ∧
      ∀ d rest, after ≠ .directive d :: rest := by
  cases y with
  | nil => exact ⟨tokens, [], by simp, by simpa using h, by simp⟩
  | cons c y =>
      obtain ⟨before, after, htokens, hbefore⟩ := exists_token_of_plainText h
      exact ⟨before, .plain c :: after, htokens, hbefore, by simp⟩

/-- **What stripping leaves, and where its lines come from.**  The directives of a
text do not overlap, and none can be read outside of them; the stripped text is
what is kept of it without them, and they make the references, in order.  There is one origin for each line of the
stripped text, also for the empty rest behind its last line feed; it is the place
of the one offset of the full text where the line begins.  No two lines begin on
the same line of the full text, and the origins ascend. -/
theorem strip_keeps (marker raw : Text) :
    let s := strip marker raw
    let ms := findAll marker raw
    (∀ m ∈ ms, ∃ d, read? marker (raw.drop m.first) = some d ∧
        m.last = m.first + d.lexeme.length ∧ m.reference = d.reference) ∧
      ms.Pairwise (fun a b => a.last ≤ b.first) ∧
      (∀ i, ¬ Covered ms i → read? marker (raw.drop i) = none) ∧
      s.content = kept ms raw ∧
      s.references = ms.map (·.reference) ∧
      s.origins.length = s.content.count '\n' + 1 ∧
      (∀ start ≤ s.content.length, Text.LineStart (s.content.take start) →
        ∃ p, OriginOf ms raw s.content start p ∧
          (∀ q, OriginOf ms raw s.content start q → q = p) ∧
          s.origins[(s.content.take start).count '\n']? =
            some (Position.start.after (raw.take p))) ∧
      s.origins.Pairwise (fun a b => a.line < b.line) := by
  intro s ms
  have hkept : s.content = kept ms raw := by
    have hall := kept_append (scan marker raw) []
    rw [List.append_nil, lexemes_scan] at hall
    exact hall.symm
  have hcount : s.origins.length = s.content.count '\n' + 1 :=
    length_originsFrom Position.start true (scan marker raw)
  refine ⟨fun m => read?_of_mem_findAll, pairwise_matchesFrom 0 _, fun i => read?_of_not_covered,
    hkept, (map_reference_matchesFrom 0 _).symm, hcount, ?_, (pairwise_originsFrom _ true _).1⟩
  intro start hstart hline
  have hcontent : plainText (scan marker raw) = s.content.take start ++ s.content.drop start :=
    (List.take_append_drop start s.content).symm
  obtain ⟨before, after, htokens, hbefore, hafter⟩ := exists_cut hcontent
  have horigin : OriginOf ms raw s.content start (lexemes before).length := by
    have hlength : (plainText before).length = start := by
      rw [hbefore, List.length_take]
      omega
    rw [← hlength]
    exact originOf_cut htokens hafter
  refine ⟨_, horigin, fun q hq => hq.unique horigin, ?_⟩
  have hplace : (originsFrom Position.start true (before ++ after))[(plainText before).count '\n']? =
      some (Position.start.after (lexemes before)) :=
    getElem?_originsFrom hafter (hbefore ▸ hline.imp_left fun hnil => ⟨rfl, hnil⟩) (Nat.add_zero _)
  rw [take_cut htokens, ← hbefore, ← hplace, ← htokens]
  rfl

/-- A directive takes its line end with it, so what follows stays on its line. -/
example : (strip defaultMarker "x;dependsOn(\"a\");\ny\ndependsOn(\"b\");z").content = "x;y\nz" ∧
    (strip defaultMarker "x;dependsOn(\"a\");\ny\ndependsOn(\"b\");z").origins =
      [⟨1, 0⟩, ⟨3, 15⟩] := by cbv

end SourceMerge.Directive
