import Mathlib.Data.List.Perm.Basic
import SourceMerge.Proofs.Directive.Lines
import SourceMerge.Proofs.Mapping.Inherited
import SourceMerge.Proofs.Mapping.Recording
import SourceMerge.Proofs.Mapping.Walk

/-!
# SourceMerge.Proofs.Mapping.Compose

What is recorded of a unit whose source brought a map along.  Each segment of
that map is moved with the line of the unit that begins on the segment's line of
the source, and there is one such line at most, so a segment makes one entry or
none (`made`).

A line knows only where it began in the source, and moves as a whole.  So an
entry is exact for the characters that stand on their line before any directive
(`Unbroken`), and a segment inside of a directive makes no entry if the directive
begins its line; behind a directive in the middle of a line the segments of the
source keep the distance that they had there.
-/

namespace SourceMerge.Mapping

/-! ## segments by line -/

/-- The segments of a map, each with its line. -/
def InheritedMap.placed (map : InheritedMap) : List (Int × Segment) :=
  map.lines.zipIdx.flatMap fun (segments, i) => segments.map ((i : Int) + 1, ·)

/-- Of numbered lines, one is gone through if the others are passed over. -/
theorem flatMap_zipIdx_lines {α : Type} (lines : List (List Segment)) (k : Nat) (line : Int)
    (f : Segment → List α) :
    (lines.zipIdx k).flatMap (fun (segments, i) =>
        segments.flatMap fun s => if line = (i : Int) + 1 then f s else []) =
      if (k : Int) + 1 ≤ line then (lines.getD (line - 1 - k).toNat []).flatMap f else [] := by
  induction lines generalizing k with
  | nil => simp
  | cons segments lines ih =>
      rw [List.zipIdx_cons, List.flatMap_cons, ih]
      simp only
      by_cases hline : line = (k : Int) + 1
      · rw [if_neg (by omega), if_pos (by omega), List.append_nil,
          show (line - 1 - k).toNat = 0 by omega]
        simp [hline]
      · have hnone : segments.flatMap (fun s => if line = (k : Int) + 1 then f s else []) = [] := by
          simp [hline]
        rw [hnone, List.nil_append]
        by_cases hbehind : (k : Int) + 1 ≤ line
        · rw [if_pos (by omega), if_pos hbehind,
            show (line - 1 - k).toNat = (line - 1 - (k + 1 : Nat)).toNat + 1 by omega,
            List.getD_cons_succ]
        · rw [if_neg (by omega), if_neg hbehind]

/-- Going through the segments of a line is going through all segments and
passing over those of other lines. -/
theorem InheritedMap.flatMap_segmentsFor {α : Type} (map : InheritedMap) (line : Int)
    (f : Segment → List α) :
    (map.segmentsFor line).flatMap f =
      map.placed.flatMap fun p => if line = p.1 then f p.2 else [] := by
  have hplaced : map.placed.flatMap (fun p => if line = p.1 then f p.2 else []) =
      map.lines.zipIdx.flatMap (fun (segments, i) =>
        segments.flatMap fun s => if line = (i : Int) + 1 then f s else []) := by
    rw [placed, List.flatMap_assoc]
    simp only [List.flatMap_map]
  rw [hplaced, flatMap_zipIdx_lines, segmentsFor]
  by_cases hline : 1 ≤ line
  · simp [hline]
  · simp [hline]

theorem InheritedMap.exists_line_of_mem {map : InheritedMap} {line : Int} {s : Segment}
    (h : s ∈ map.segmentsFor line) : ∃ segments ∈ map.lines, s ∈ segments := by
  unfold segmentsFor at h
  split at h
  · rw [List.getD_eq_getElem?_getD] at h
    cases hget : map.lines[(line - 1).toNat]? with
    | none =>
        rw [hget] at h
        exact absurd h List.not_mem_nil
    | some segments =>
        rw [hget, Option.getD_some] at h
        exact ⟨segments, List.mem_of_getElem? hget, h⟩
  · simp at h

namespace Recorder

/-! ## a walk without a fault -/

/-- No segment of a map counts back beyond the first source. -/
def InRange (map : InheritedMap) : Prop :=
  map.sources.length ≤ map.contents.length ∧
    ∀ line ∈ map.lines, ∀ s ∈ line, -(map.sources.length : Int) ≤ s.source

/-- The entries of the lines of a unit, line by line. -/
def entriesOn (map : InheritedMap) (places : List (Position × Position)) : List Entry :=
  places.flatMap fun q => (map.segmentsFor q.2.line).flatMap (entriesAt map q.1 q.2)

/-- The walk along the segments goes line by line. -/
theorem flatMap_entries_visits (map : InheritedMap) (places : List (Position × Position)) :
    (visits map places).flatMap (·.entries map) = entriesOn map places := by
  rw [visits, List.flatMap_assoc, entriesOn]
  simp only [List.flatMap_map]
  rfl

/-- **A unit with an inherited map** is recorded without a fault. -/
theorem addUnit_inherited {map : InheritedMap} (hmap : InRange map) {u : SourceText} {r : Recorder}
    (hr : Table.get? r.inherited u.path = some map) :
    ∃ contents, r.addUnit u =
      ({ r with
        entries := r.entries ++ entriesOn map (linePlaces r.cursor u)
        contents := contents
        cursor := r.cursor.after u.content }, none) := by
  have hfine : ∀ v ∈ visits map (linePlaces r.cursor u), ¬ v.Fails map := by
    intro v hv hfails
    obtain ⟨q, -, hv⟩ := List.mem_flatMap.mp hv
    obtain ⟨s, hs, rfl⟩ := List.mem_map.mp hv
    obtain ⟨line, hline, hmem⟩ := InheritedMap.exists_line_of_mem hs
    exact absurd hfails.2 (Int.not_lt.mpr (hmap.2 line hline s hmem))
  have hnone : ¬ ∃ v ∈ visits map (linePlaces r.cursor u), v.Fails map :=
    fun ⟨v, hv, hfails⟩ => hfine v hv hfails
  obtain ⟨contents, -, hadd⟩ := addUnit_of_map hmap.1 hr
  rw [if_neg hnone, if_neg hnone, List.takeWhile_eq_self_iff.mpr (by simpa using hfine),
    flatMap_entries_visits] at hadd
  exact ⟨contents, hadd⟩

/-! ## what a segment makes -/

/-- The entries that a segment makes on the lines of a unit. -/
def made (map : InheritedMap) (places : List (Position × Position)) (p : Int × Segment) :
    List Entry :=
  places.flatMap fun q => if q.2.line = p.1 then entriesAt map q.1 q.2 p.2 else []

/-- What is recorded line by line is what the segments make, each for itself. -/
theorem perm_flatMap_made (map : InheritedMap) (places : List (Position × Position)) :
    (entriesOn map places).Perm (map.placed.flatMap (made map places)) := by
  induction places with
  | nil => simp [entriesOn, made]
  | cons q places ih =>
      have hcons : made map (q :: places) = fun p =>
          (if q.2.line = p.1 then entriesAt map q.1 q.2 p.2 else []) ++ made map places p := rfl
      rw [hcons, entriesOn, List.flatMap_cons, map.flatMap_segmentsFor]
      exact ((List.Perm.refl _).append ih).trans (List.flatMap_append_perm _ _ _)

/-! ## the lines of a stripped text -/

section Stripped

open Directive

variable {marker raw : Text} {u : SourceText} {cursor : Position}

/-- The origins of the lines of a unit. -/
theorem map_snd_linePlaces (h : (linesOf u.content).length ≤ u.origins.length)
    (cursor : Position) :
    (linePlaces cursor u).map (·.2) = u.origins.take (linesOf u.content).length := by
  refine List.ext_getElem (by simp [linePlaces, h]) fun i hi hi' => ?_
  have hlt : i < u.origins.length := by
    rw [List.length_take] at hi'
    omega
  simp [linePlaces, hlt]

/-- No two lines of a unit began on one line of its source. -/
theorem pairwise_linePlaces (hcontent : u.content = (strip marker raw).content)
    (horigins : u.origins = (strip marker raw).origins) (cursor : Position) :
    (linePlaces cursor u).Pairwise (·.2.line < ·.2.line) := by
  have hcount : (linesOf u.content).length ≤ u.origins.length := by
    have hlength := length_originsFrom Position.start true (scan marker raw)
    rw [length_linesOf, horigins, hcontent]
    change Text.lineCount (plainText _) ≤ (originsFrom _ _ _).length
    rw [hlength, Text.lineCount]
    split <;> simp
  have hpairwise := (pairwise_originsFrom Position.start true (scan marker raw)).1
  have htaken : (u.origins.take (linesOf u.content).length).Pairwise (·.line < ·.line) := by
    rw [horigins]
    exact hpairwise.sublist (List.take_sublist _ _)
  rwa [← map_snd_linePlaces hcount cursor, List.pairwise_map] at htaken

/-- Where the lines of a unit are: each begins with a token that is a character,
behind the tokens before it. -/
theorem mem_linePlaces_strip (hcontent : u.content = (strip marker raw).content)
    (horigins : u.origins = (strip marker raw).origins) {generated origin : Position} :
    (generated, origin) ∈ linePlaces cursor u ↔
      ∃ before c after, scan marker raw = before ++ .plain c :: after ∧
        Text.LineStart (plainText before) ∧ generated = cursor.after (plainText before) ∧
        origin = Position.start.after (before.flatMap Token.lexeme) := by
  have hplace : ∀ before c after, scan marker raw = before ++ .plain c :: after →
      Text.LineStart (plainText before) →
      u.origins.getD ((plainText before).count '\n') ⟨(plainText before).count '\n' + 1, 0⟩ =
        Position.start.after (before.flatMap Token.lexeme) := by
    intro before c after htokens hstart
    have hget : (originsFrom Position.start true (before ++ .plain c :: after))[
        (plainText before).count '\n']? = some (Position.start.after (before.flatMap Token.lexeme)) :=
      getElem?_originsFrom (by simp) (hstart.imp_left fun h => ⟨rfl, h⟩) (Nat.add_zero _)
    rw [horigins, List.getD_eq_getElem?_getD]
    change ((originsFrom _ _ (scan marker raw))[_]?).getD _ = _
    rw [htokens, hget, Option.getD_some]
  rw [mem_linePlaces]
  constructor
  · rintro ⟨x, c, y, hx, hstart, rfl, rfl⟩
    rw [hcontent] at hx
    obtain ⟨before, after, htokens, rfl⟩ := exists_token_of_plainText hx
    exact ⟨before, c, after, htokens, hstart, rfl, hplace before c after htokens hstart⟩
  · rintro ⟨before, c, after, htokens, hstart, rfl, rfl⟩
    refine ⟨plainText before, c, plainText after, ?_, hstart, rfl,
      (hplace before c after htokens hstart).symm⟩
    rw [hcontent]
    change plainText (scan marker raw) = _
    rw [htokens, plainText, List.flatMap_append]
    rfl

end Stripped

/-! ## what segments make on these lines -/

section Made

open Directive

variable {map : InheritedMap} {places : List (Position × Position)}

/-- A segment makes what it makes on the line that began on its line. -/
theorem made_eq_of_mem (h : places.Pairwise (·.2.line < ·.2.line)) {generated origin : Position}
    (hmem : (generated, origin) ∈ places) (s : Segment) :
    made map places (origin.line, s) = entriesAt map generated origin s := by
  induction places with
  | nil => simp at hmem
  | cons q places ih =>
      rw [List.pairwise_cons] at h
      rw [made, List.flatMap_cons]
      rcases List.mem_cons.mp hmem with rfl | hrest
      · have hother : places.flatMap (fun q =>
            if q.2.line = origin.line then entriesAt map q.1 q.2 s else []) = [] := by
          rw [List.flatMap_eq_nil_iff]
          intro q hq
          exact if_neg (Int.ne_of_gt (h.1 q hq))
        rw [if_pos rfl, hother, List.append_nil]
      · have hfirst : q.2.line < origin.line := h.1 _ hrest
        rw [if_neg (Int.ne_of_lt hfirst), List.nil_append]
        exact ih h.2 hrest

theorem made_eq_nil {p : Int × Segment}
    (h : ∀ generated origin, (generated, origin) ∈ places → origin.line = p.1 →
      p.2.column < origin.column) : made map places p = [] := by
  rw [made, List.flatMap_eq_nil_iff]
  intro q hq
  split
  · next hline => exact if_pos (.inl (h q.1 q.2 hq hline))
  · rfl

/-- A segment makes one entry at most. -/
theorem length_made_le (h : places.Pairwise (·.2.line < ·.2.line)) (p : Int × Segment) :
    (made map places p).length ≤ 1 := by
  by_cases hline : ∃ q ∈ places, q.2.line = p.1
  · obtain ⟨q, hq, hp⟩ := hline
    rw [show p = (q.2.line, p.2) by rw [hp], made_eq_of_mem h hq, entriesAt]
    split <;> simp
  · have hnone : made map places p = [] := made_eq_nil fun generated origin hmem heq =>
      absurd ⟨_, hmem, heq⟩ hline
    rw [hnone]
    exact Nat.zero_le 1

variable {marker raw : Text} {u : SourceText} {cursor : Position}

/-- A segment moves with the line of the unit that begins on its line of the source:
from there it keeps the distance that it had in the source. -/
theorem made_on_line (hcontent : u.content = (strip marker raw).content)
    (horigins : u.origins = (strip marker raw).origins) {earlier rest : List Token} {d : Char}
    (htokens : scan marker raw = earlier ++ .plain d :: rest)
    (hstart : Text.LineStart (plainText earlier)) {origin : Position}
    (horigin : origin = Position.start.after (earlier.flatMap Token.lexeme)) {s : Segment}
    (hcolumn : origin.column ≤ s.column) {source : Text} (hpos : 0 ≤ s.source)
    (hsource : map.sources[s.source.toNat]? = some source) :
    made map (linePlaces cursor u) (origin.line, s) =
      [⟨⟨(cursor.after (plainText earlier)).line,
          (cursor.after (plainText earlier)).column + s.column - origin.column⟩,
        source, ⟨s.sourceLine + 1, s.sourceColumn⟩⟩] := by
  have hmem : (cursor.after (plainText earlier),
      Position.start.after (earlier.flatMap Token.lexeme)) ∈ linePlaces cursor u :=
    (mem_linePlaces_strip hcontent horigins).mpr ⟨earlier, d, rest, htokens, hstart, rfl, rfl⟩
  have hrange := (List.getElem?_eq_some_iff.mp hsource).1
  rw [horigin] at hcolumn ⊢
  rw [made_eq_of_mem (pairwise_linePlaces hcontent horigins cursor) hmem, entriesAt,
    if_neg (by omega), itemAt?, if_pos hpos, hsource]
  rfl

/-- A segment at a character that no directive separates from the beginning of its
line makes one entry, at the place of that character in the output. -/
theorem made_unbroken (hcontent : u.content = (strip marker raw).content)
    (horigins : u.origins = (strip marker raw).origins) {before after : List Token} {c : Char}
    (htokens : scan marker raw = before ++ .plain c :: after) (hunbroken : Unbroken before)
    {line : Int} {s : Segment}
    (hplace : (⟨line, s.column⟩ : Position) = Position.start.after (before.flatMap Token.lexeme))
    {source : Text} (hpos : 0 ≤ s.source) (hsource : map.sources[s.source.toNat]? = some source) :
    made map (linePlaces cursor u) (line, s) =
      [⟨cursor.after (plainText before), source, ⟨s.sourceLine + 1, s.sourceColumn⟩⟩] := by
  obtain ⟨earlier, begun, rfl, hfeed, hstart⟩ := hunbroken
  -- The first character of the line is the first of `begun`, or the character itself.
  have hfirst : ∃ d rest, scan marker raw = earlier ++ .plain d :: rest := by
    cases begun with
    | nil => exact ⟨c, after, by simpa using htokens⟩
    | cons d begun => exact ⟨d, begun.map Token.plain ++ .plain c :: after, by simpa using htokens⟩
  obtain ⟨d, rest, hd⟩ := hfirst
  rw [List.flatMap_append, flatMap_lexeme_plain, Position.after_append,
    Position.after_of_notMem hfeed] at hplace
  obtain ⟨rfl, hcolumn⟩ := Position.mk.inj hplace
  rw [made_on_line hcontent horigins hd hstart rfl (by omega) hpos hsource, plainText_append,
    plainText_plain, Position.after_append, Position.after_of_notMem hfeed, hcolumn]
  simp only [List.cons.injEq, Entry.mk.injEq, Position.mk.injEq, and_true, true_and]
  omega

/-- A segment inside of a directive that begins a line makes no entry. -/
theorem made_directive (hcontent : u.content = (strip marker raw).content)
    (horigins : u.origins = (strip marker raw).origins) {before after : List Token} {d : Directive}
    (htokens : scan marker raw = before ++ .directive d :: after)
    (hstart : Text.LineStart (plainText before)) {x y : Text} {c : Char}
    (hlexeme : d.lexeme = x ++ c :: y) {line : Int} {s : Segment}
    (hplace : (⟨line, s.column⟩ : Position) =
      Position.start.after (before.flatMap Token.lexeme ++ x)) :
    made map (linePlaces cursor u) (line, s) = [] := by
  refine made_eq_nil fun generated origin hmem hline => ?_
  obtain ⟨b, e, a, htokens', hstart', -, rfl⟩ :=
    (mem_linePlaces_strip hcontent horigins).mp hmem
  rw [htokens, List.append_eq_append_iff] at htokens'
  rcases htokens' with ⟨m, rfl, hm⟩ | ⟨m, rfl, hm⟩
  · -- The line begins behind the directive, and so behind the segment.
    cases m with
    | nil => simp at hm
    | cons token m =>
        obtain ⟨rfl, -⟩ := List.cons.inj hm
        have hbehind : Position.start.after
            ((before ++ .directive d :: m).flatMap Token.lexeme) =
              (⟨line, s.column⟩ : Position).after (c :: (y ++ m.flatMap Token.lexeme)) := by
          rw [hplace, ← Position.after_append, List.flatMap_append, List.flatMap_cons]
          simp [Token.lexeme, hlexeme]
        have hbefore := Position.before_after_cons ⟨line, s.column⟩ c (y ++ m.flatMap Token.lexeme)
        rw [hbehind] at hline ⊢
        rcases hbefore with hless | ⟨-, hless⟩
        · exact absurd hline (Int.ne_of_gt hless)
        · exact hless
  · -- The line begins before the directive, and a line feed stands between them.
    cases m with
    | nil => simp at hm
    | cons token m =>
        obtain ⟨rfl, -⟩ := List.cons.inj hm
        have hfeed : '\n' ∈ plainText (.plain e :: m) := by
          rw [plainText_append] at hstart
          have hlast := hstart.resolve_left (by simp [plainText])
          rw [List.getLast?_append_of_ne_nil _ (by simp [plainText])] at hlast
          exact List.mem_of_getLast? hlast
        have hcount := List.count_pos_iff.mpr ((plainText_sublist (.plain e :: m)).subset hfeed)
        have hlines := congrArg Position.line hplace
        rw [List.flatMap_append, List.append_assoc, Position.after_append, Position.line_after,
          List.count_append, hline] at hlines
        simp only at hlines
        omega

end Made

end Recorder

/-! ## composition -/

/-- There is a content for each source, a missing one if the document has none. -/
theorem length_le_of_contentsOf? {count : Nat} {document : Data} {contents : List Data}
    (h : contentsOf? count document = some contents) : count ≤ contents.length := by
  unfold contentsOf? at h
  simp only at h
  split at h
  · contradiction
  · rw [← Option.some.inj h, List.length_append, List.length_replicate]
    omega

/-- A map that was read has the sources and the contents of its document. -/
theorem InheritedMap.exists_document {base t : Text} {map : InheritedMap}
    (h : InheritedMap.ofText base t = .ok map) : ∃ document,
    sourcesOf? base document = some map.sources ∧
      contentsOf? map.sources.length document = some map.contents := by
  unfold InheritedMap.ofText at h
  cases hjson : Json.parse? t with
  | none => simp [hjson] at h
  | some document =>
      simp only [hjson] at h
      unfold InheritedMap.ofDocument at h
      -- Behind every other test there is a fault.
      repeat' split at h
      all_goals cases h
      exact ⟨_, ‹_›, ‹_›⟩

theorem InheritedMap.length_sources_le {base t : Text} {map : InheritedMap}
    (h : InheritedMap.ofText base t = .ok map) : map.sources.length ≤ map.contents.length := by
  obtain ⟨document, -, hcontents⟩ := InheritedMap.exists_document h
  exact length_le_of_contentsOf? hcontents

/-- **An inherited map moves with its unit.**  Let a unit be a text without its
directives, whose source brought a map along that nowhere counts back beyond its
first source.  Recording the unit adds what the segments make, each for itself:

* a segment makes one entry or none;
* one at a source of the map moves with the line of the unit that begins on its
  line of the text, and keeps its distance from where that line begins;
* so at a character that no directive separates from the beginning of its line, it
  makes an entry at the place of that character in the output;
* inside of a directive that begins a line, it makes no entry. -/
theorem Recorder.addUnit_composes {base json key marker raw : Text} {map : InheritedMap}
    (hread : InheritedMap.ofText base json = .ok map)
    (hrange : ∀ segments ∈ map.lines, ∀ s ∈ segments, -(map.sources.length : Int) ≤ s.source)
    {u : SourceText} (hu : u = SourceText.ofStripped key raw (Directive.strip marker raw))
    {r : Recorder} (hr : Table.get? r.inherited key = some map) :
    ∃ (added : List Entry) (made : Int × Segment → List Entry),
      (r.addUnit u).2 = none ∧ (r.addUnit u).1.entries = r.entries ++ added ∧
      (r.addUnit u).1.cursor = r.cursor.after u.content ∧
      added.Perm (map.placed.flatMap made) ∧ (∀ p, (made p).length ≤ 1) ∧
      (∀ earlier d rest, Directive.scan marker raw = earlier ++ .plain d :: rest →
        Text.LineStart (Directive.plainText earlier) →
        ∀ generated origin, generated = r.cursor.after (Directive.plainText earlier) →
        origin = Position.start.after (earlier.flatMap Directive.Token.lexeme) →
        ∀ (s : Segment) (source : Text), origin.column ≤ s.column → 0 ≤ s.source →
        map.sources[s.source.toNat]? = some source →
        made (origin.line, s) =
          [⟨⟨generated.line, generated.column + s.column - origin.column⟩, source,
            ⟨s.sourceLine + 1, s.sourceColumn⟩⟩]) ∧
      (∀ before c after, Directive.scan marker raw = before ++ .plain c :: after →
        Directive.Unbroken before → ∀ (line : Int) (s : Segment) (source : Text),
        (⟨line, s.column⟩ : Position) =
          Position.start.after (before.flatMap Directive.Token.lexeme) →
        0 ≤ s.source → map.sources[s.source.toNat]? = some source →
        made (line, s) =
          [⟨r.cursor.after (Directive.plainText before), source,
            ⟨s.sourceLine + 1, s.sourceColumn⟩⟩]) ∧
      (∀ before d after, Directive.scan marker raw = before ++ .directive d :: after →
        Text.LineStart (Directive.plainText before) → ∀ x c y, d.lexeme = x ++ c :: y →
        ∀ (line : Int) (s : Segment),
        (⟨line, s.column⟩ : Position) =
          Position.start.after (before.flatMap Directive.Token.lexeme ++ x) →
        made (line, s) = []) := by
  have hcontent : u.content = (Directive.strip marker raw).content := by rw [hu]; rfl
  have horigins : u.origins = (Directive.strip marker raw).origins := by rw [hu]; rfl
  have hpath : u.path = key := by rw [hu]; rfl
  obtain ⟨contents, hadd⟩ := addUnit_inherited (u := u)
    ⟨InheritedMap.length_sources_le hread, hrange⟩ (hpath ▸ hr)
  refine ⟨_, made map (linePlaces r.cursor u), by rw [hadd], by rw [hadd], by rw [hadd],
    perm_flatMap_made map _, length_made_le (pairwise_linePlaces hcontent horigins r.cursor),
    ?_, ?_, ?_⟩
  · rintro earlier d rest htokens hstart _ origin rfl horigin s source hcolumn hpos hsource
    exact made_on_line hcontent horigins htokens hstart horigin hcolumn hpos hsource
  · intro before c after htokens hunbroken line s source hplace hpos hsource
    exact made_unbroken hcontent horigins htokens hunbroken hplace hpos hsource
  · intro before d after htokens hstart x c y hlexeme line s hplace
    exact made_directive hcontent horigins htokens hstart hlexeme hplace

/-! ## a directive in the middle of a line -/

/-- A line that has a directive between its two other parts. -/
def brokenLine : Text := 'a' :: ';' :: 'd' :: "ependsOn(\"b\");c".toList

/-- A map of that line, with segments before, in and behind the directive. -/
def brokenMap : Document :=
  { file := "min.js"
    sources := ["orig.js"]
    contents := some [.null]
    lines := [[⟨0, 0, 0, 0, none⟩, ⟨2, 0, 0, 2, none⟩, ⟨17, 0, 0, 17, none⟩]] }

theorem ofText_brokenMap :
    InheritedMap.ofText [] brokenMap.serialized = .ok ⟨["orig.js"], [.null], brokenMap.lines⟩ :=
  InheritedMap.ofText_serialized [] rfl rfl (by simp [Json.Kept.null]) (by decide)

theorem scan_brokenLine : Directive.scan Directive.defaultMarker brokenLine =
    [.plain 'a', .plain ';', .directive ⟨"dependsOn(\"b\");", "b"⟩, .plain 'c'] := by
  rw [brokenLine, Directive.scan_of_none rfl, Directive.scan_of_none rfl, Directive.scan_of_some
    (show _ = some ⟨"dependsOn(\"b\");", "b"⟩ from rfl),
    show List.drop _ _ = ['c'] from rfl, Directive.scan_of_none rfl, Directive.scan]

/-- The recorder of an output, when the source of that line has brought the map
along. -/
def brokenRecorder : Recorder :=
  { Recorder.start "out.js" .embed none with
    inherited := [("min.js", ⟨["orig.js"], [.null], brokenMap.lines⟩)] }

/-- The unit of that line. -/
def brokenUnit : SourceText :=
  SourceText.ofStripped "min.js" brokenLine (Directive.strip Directive.defaultMarker brokenLine)

theorem content_brokenUnit : brokenUnit.content = "a;c" := by
  unfold brokenUnit Directive.strip
  rw [scan_brokenLine]
  rfl

/-- Of this line `a;c` is left, but the entry of `c` is made where `c` stood in the
source, and the segment inside of the directive makes an entry as well. -/
theorem Recorder.addUnit_composes_brokenLine :
    brokenUnit.content = "a;c" ∧ brokenRecorder.cursor = ⟨1, 0⟩ ∧
      (brokenRecorder.addUnit brokenUnit).2 = none ∧
      (brokenRecorder.addUnit brokenUnit).1.entries.Perm
        [⟨⟨1, 0⟩, "orig.js", ⟨1, 0⟩⟩, ⟨⟨1, 2⟩, "orig.js", ⟨1, 2⟩⟩,
          ⟨⟨1, 17⟩, "orig.js", ⟨1, 17⟩⟩] := by
  obtain ⟨added, made, hnone, hentries, -, hperm, -, hmoves, -⟩ :=
    Recorder.addUnit_composes (u := brokenUnit) (r := brokenRecorder) ofText_brokenMap (by decide)
      rfl rfl
  have hmade : ∀ s : Segment, 0 ≤ s.column → s.source = 0 →
      made (1, s) = [⟨⟨1, s.column⟩, "orig.js", ⟨s.sourceLine + 1, s.sourceColumn⟩⟩] := by
    intro s hcolumn hsource
    have hmoved := hmoves [] 'a' _ scan_brokenLine (.inl rfl) _ _ rfl rfl s "orig.js" hcolumn
      (by omega) (by rw [hsource]; rfl)
    refine hmoved.trans ?_
    simp [brokenRecorder, Recorder.start, Position.start, Directive.plainText]
  refine ⟨content_brokenUnit, rfl, hnone, ?_⟩
  rw [hentries]
  refine hperm.trans (List.Perm.of_eq ?_)
  change List.flatMap made
    [(1, ⟨0, 0, 0, 0, none⟩), (1, ⟨2, 0, 0, 2, none⟩), (1, ⟨17, 0, 0, 17, none⟩)] = _
  simp only [List.flatMap_cons, List.flatMap_nil]
  rw [hmade _ (by decide) rfl, hmade _ (by decide) rfl, hmade _ (by decide) rfl]
  rfl

theorem Recorder.entries_brokenUnit :
    (brokenRecorder.addUnit brokenUnit).1.entries =
      [⟨⟨1, 0⟩, "orig.js", ⟨1, 0⟩⟩, ⟨⟨1, 2⟩, "orig.js", ⟨1, 2⟩⟩, ⟨⟨1, 17⟩, "orig.js", ⟨1, 17⟩⟩] := by
  have horigins : brokenUnit.origins = [⟨1, 0⟩] := by
    unfold brokenUnit Directive.strip
    rw [scan_brokenLine]
    rfl
  have hplaces : linePlaces brokenRecorder.cursor brokenUnit = [(⟨1, 0⟩, ⟨1, 0⟩)] := by
    rw [linePlaces, content_brokenUnit, horigins]
    rfl
  have hmap : Recorder.InRange ⟨["orig.js"], [.null], brokenMap.lines⟩ := ⟨by decide, by decide⟩
  obtain ⟨contents, hadd⟩ :=
    Recorder.addUnit_inherited hmap (u := brokenUnit) (r := brokenRecorder) rfl
  rw [hadd, hplaces]
  rfl

/-- The segment at `c` makes no entry at the place where `c` stands in the output. -/
theorem Recorder.addUnit_misplaces_brokenLine :
    ∃ (map : InheritedMap) (before : List Directive.Token) (s : Segment),
      InheritedMap.ofText [] brokenMap.serialized = .ok map ∧
      Table.get? brokenRecorder.inherited brokenUnit.path = some map ∧
      Directive.scan Directive.defaultMarker brokenLine = before ++ [.plain 'c'] ∧
      s ∈ map.segmentsFor 1 ∧ 0 ≤ s.source ∧ s.source < map.sources.length ∧
      (⟨1, s.column⟩ : Position) = Position.start.after (before.flatMap Directive.Token.lexeme) ∧
      ∀ e ∈ (brokenRecorder.addUnit brokenUnit).1.entries,
        e.shown = ⟨s.sourceLine + 1, s.sourceColumn⟩ →
          e.generated ≠ brokenRecorder.cursor.after (Directive.plainText before) := by
  refine ⟨_, [.plain 'a', .plain ';', .directive ⟨"dependsOn(\"b\");", "b"⟩], ⟨17, 0, 0, 17, none⟩,
    ofText_brokenMap, rfl, scan_brokenLine, by decide, by decide, by decide, by decide, ?_⟩
  rw [Recorder.entries_brokenUnit]
  decide

end SourceMerge.Mapping
