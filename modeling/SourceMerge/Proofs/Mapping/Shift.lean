import SourceMerge.Proofs.Directive.Removal
import SourceMerge.Proofs.Mapping.Payload

/-!
# SourceMerge.Proofs.Mapping.Shift

A file without directives is taken over as it is, and the map that it brought along
moves with it as a whole (`shifted`).  Each line of the file is one of the unit
(`linePlaces_of_free`); the first one begins where the cursor is, the others begin
lines of the output.  Lines of the map behind those of the file go nowhere, and lines
of the file behind those of the map have nothing to show.

What was recorded so stays until the map is finished, and is found there under the
same places (`shifted_lasts`).
-/

namespace SourceMerge

/-! ## texts without directives -/

namespace Directive

variable {marker t : Text}

/-- Without a match there is no directive among tokens. -/
theorem eq_plain_of_matchesFrom {offset : Nat} {tokens : List Token}
    (h : matchesFrom offset tokens = []) : tokens = (lexemes tokens).map .plain := by
  induction tokens generalizing offset with
  | nil => rfl
  | cons token rest ih =>
      cases token with
      | plain c => exact congrArg (.plain c :: ·) (ih h)
      | directive d => cases h

theorem scan_of_free (h : findAll marker t = []) : scan marker t = t.map .plain := by
  have hplain := eq_plain_of_matchesFrom h
  rwa [lexemes_scan] at hplain

theorem strip_content_of_free (h : findAll marker t = []) : (strip marker t).content = t := by
  change plainText (scan marker t) = t
  rw [scan_of_free h, plainText_plain]

/-- Every line began where it is. -/
theorem strip_origins_of_free (h : findAll marker t = []) {i : Nat} (hi : i < Text.lineCount t) :
    (strip marker t).origins[i]? = some ⟨i + 1, 0⟩ := by
  obtain ⟨x, c, y, ht, hx, rfl⟩ := Text.exists_lineStart_of_lt hi
  have hscan : scan marker t = x.map .plain ++ .plain c :: y.map .plain := by
    rw [scan_of_free h, ht, List.map_append, List.map_cons]
  change (originsFrom Position.start true (scan marker t))[x.count '\n']? = _
  rw [hscan, getElem?_originsFrom (by simp) (by rw [plainText_plain]; exact hx.imp_left (⟨rfl, ·⟩))
    (by rw [plainText_plain]; rfl), flatMap_lexeme_plain, Text.after_of_lineStart hx]
  split
  · next hzero => rw [hzero]; rfl
  · simp [Position.start, Int.add_comm]

end Directive

namespace Mapping

open Directive

namespace Recorder

variable {marker cleaned : Text} {u : SourceText} {map : InheritedMap}

/-! ## the entries of a file without directives -/

/-- The lines of a unit are those of the file. -/
theorem linePlaces_of_free (hfree : findAll marker cleaned = [])
    (hcontent : u.content = (strip marker cleaned).content)
    (horigins : u.origins = (strip marker cleaned).origins) (cursor : Position) :
    linePlaces cursor u = (List.range (Text.lineCount cleaned)).map fun (i : Nat) =>
      (if i = 0 then cursor else ⟨cursor.line + i, 0⟩, ⟨i + 1, 0⟩) := by
  rw [strip_content_of_free hfree] at hcontent
  refine List.ext_getElem (by simp [linePlaces, length_linesOf, hcontent]) fun i hi _ => ?_
  have hlt : i < Text.lineCount cleaned := by
    rw [linePlaces, List.length_mapIdx, length_linesOf, hcontent] at hi
    exact hi
  have horigin : u.origins[i]? = some ⟨i + 1, 0⟩ := by
    rw [horigins]
    exact strip_origins_of_free hfree hlt
  simp [linePlaces, horigin]

/-- The segments of a map, moved to where the lines of a file begin in the output. -/
def shifted (map : InheritedMap) (cursor : Position) (lineCount : Nat) : List Entry :=
  (List.range lineCount).flatMap fun i => (map.lines.getD i []).map fun s =>
    { generated := ⟨cursor.line + i, (if i = 0 then cursor.column else 0) + s.column⟩
      source := map.sources.getD s.source.toNat []
      shown := ⟨s.sourceLine + 1, s.sourceColumn⟩ }

/-- A map all of whose segments name a source and stand in their line. -/
def Proper (map : InheritedMap) : Prop :=
  ∀ line ∈ map.lines, ∀ s ∈ line, 0 ≤ s.column ∧ 0 ≤ s.source ∧ s.source < map.sources.length

instance (map : InheritedMap) : Decidable (Proper map) :=
  inferInstanceAs (Decidable (∀ line ∈ map.lines, ∀ s ∈ line, _))

theorem entriesAt_of_proper {s : Segment} (hcolumn : 0 ≤ s.column) (hlow : 0 ≤ s.source)
    (hhigh : s.source < map.sources.length) (generated : Position) (line : Int) :
    entriesAt map generated ⟨line, 0⟩ s =
      [{ generated := ⟨generated.line, generated.column + s.column⟩
         source := map.sources.getD s.source.toNat []
         shown := ⟨s.sourceLine + 1, s.sourceColumn⟩ }] := by
  unfold entriesAt
  rw [if_neg (by simp; omega), itemAt?, if_pos hlow, List.getD_eq_getElem?_getD]
  simp

/-- What a file without directives adds is its map, shifted. -/
theorem entriesOn_of_free (hfree : findAll marker cleaned = [])
    (hcontent : u.content = (strip marker cleaned).content)
    (horigins : u.origins = (strip marker cleaned).origins) (hproper : Proper map)
    (cursor : Position) :
    entriesOn map (linePlaces cursor u) = shifted map cursor (Text.lineCount cleaned) := by
  rw [linePlaces_of_free hfree hcontent horigins, entriesOn, List.flatMap_map, shifted]
  refine List.flatMap_congr fun i _ => ?_
  have hline : map.segmentsFor ((i : Int) + 1) = map.lines.getD i [] := by
    rw [InheritedMap.segmentsFor, if_pos (by omega)]
    congr 1
    omega
  have hsegments : ∀ s ∈ map.lines.getD i [],
      0 ≤ s.column ∧ 0 ≤ s.source ∧ s.source < map.sources.length := fun s hs => by
    rw [← hline] at hs
    obtain ⟨line, hmem, hs⟩ := InheritedMap.exists_line_of_mem hs
    exact hproper line hmem s hs
  simp only
  rw [hline, List.map_eq_flatMap]
  refine List.flatMap_congr fun s hs => ?_
  obtain ⟨hcolumn, hlow, hhigh⟩ := hsegments s hs
  rw [entriesAt_of_proper hcolumn hlow hhigh]
  split
  · next hzero => simp [hzero]
  · rfl

/-! ## in the finished map -/

/-- What is among the recorded entries is found on the lines that are read back, as
often as it is there. -/
theorem Spells.subperm {sources : List Text} {entries among : List Entry}
    {lines : List (List Segment)} (h : Spells sources entries lines)
    (hamong : among.Sublist entries) {i : Nat} {line : List Segment} (hi : lines[i]? = some line) :
    ((among.filter (·.generated.line = (i : Int) + 1)).map fun e =>
      ⟨e.generated.column, sources.idxOf e.source, e.shown.line - 1, e.shown.column, none⟩).Subperm
      line :=
  ((hamong.filter _).map _).subperm.trans (h.perm i line hi).symm.subperm

section Run

variable {σ : Type} [FileStore (StateM σ)] [Journal (StateM σ)]

/-- **A map moves with its file.**  After any steps, let a file have brought a map along
whose segments all name a source and stand in their line, and let there be no directive
in the text of the file.  Then recording the unit of the file adds the shifted map, line
by line and segment by segment, and nothing else.  Whatever steps come later: once they
are taken, a map can be finished (if neither the output nor a unit has an empty path),
and there is a numbering of the sources such that, read back, this map has on each line
the segments of those entries, and under the number of an entry's source the way to it
from the map. -/
theorem addUnit_shifts {dest : Text} {delivery : Delivery} {mapPath : Option Text}
    {before : List Step} {s s' : σ} {r : Recorder} {given : Table Text}
    (hbefore : runAt ((start dest delivery mapPath).takeAll before) s = (.ok (r, given), s'))
    (hmap : Table.get? r.inherited u.path = some map) (hproper : Proper map)
    (hfree : findAll marker cleaned = []) (hcontent : u.content = (strip marker cleaned).content)
    (horigins : u.origins = (strip marker cleaned).origins) :
    ∃ (next : Recorder) (added : List Entry),
      added = shifted map r.cursor (Text.lineCount cleaned) ∧
      r.addUnit u = (next, none) ∧ next.entries = r.entries ++ added ∧
      ∀ (later : List Step) (s₁ s₂ : σ) (last : Recorder) (given' : Table Text),
        runAt (next.takeAll later) s₁ = (.ok (last, given'), s₂) → ∀ wd,
        (dest ≠ [] → (∀ v, Step.addUnit v ∈ before ++ .addUnit u :: later → v.path ≠ []) →
          ∃ d, last.document? wd = some d) ∧
        ∀ d, last.document? wd = some d → ∃ (lines : List (List Segment)) (index : Text → Nat),
          decodeMappings d.mappings = .ok lines ∧
          (∀ e ∈ added, 1 ≤ e.generated.line ∧ e.generated.line ≤ lines.length ∧
            d.sources[index e.source]? = some
              (Path.relativeTo wd (Path.directory (orBeside dest mapPath)) e.source)) ∧
          ∀ (i : Nat) (line : List Segment), lines[i]? = some line →
            ((added.filter (·.generated.line = (i : Int) + 1)).map fun e =>
              ⟨e.generated.column, index e.source, e.shown.line - 1, e.shown.column,
                none⟩).Subperm line := by
  have hstart : Sound before given r := (sound_start dest delivery mapPath).takeAll hbefore
  have hsame := (grows_takeAll (sound_start dest delivery mapPath) hbefore).sameMap
  have hrange : InRange map := by
    refine ⟨(hstart.maps u.path map hmap).contents, fun line hline s hs => ?_⟩
    obtain ⟨-, hlow, -⟩ := hproper line hline s hs
    omega
  obtain ⟨contents, hadd⟩ := addUnit_inherited hrange hmap
  have hadded := entriesOn_of_free hfree hcontent horigins hproper r.cursor
  refine ⟨_, _, rfl, hadd, congrArg (r.entries ++ ·) hadded,
    fun later s₁ s₂ last given' hlater wd => ?_⟩
  have hunit : Sound (before ++ [.addUnit u]) (given ++ []) _ :=
    hstart.take (take_addUnit_eq_ok.mpr ⟨hadd, rfl, rfl⟩ : runAt _ s₁ = _)
  have hsound := hunit.takeAll hlater
  obtain ⟨hsame', hentries⟩ := grows_takeAll hunit hlater
  have hdest : last.dest = dest := hsame'.dest.trans hsame.dest
  have hmapPath : last.mapPath = orBeside dest mapPath := hsame'.mapPath.trans hsame.mapPath
  -- The entries of the unit stay between those before and those behind them.
  have hkept : (shifted map r.cursor (Text.lineCount cleaned)).Sublist last.entries := by
    rw [← hadded]
    exact (List.sublist_append_right _ _).trans hentries.sublist
  refine ⟨fun hne hpaths => hsound.exists_document? (hdest ▸ hne) fun v hv =>
    hpaths v (by simpa using hv), fun d hd => ?_⟩
  obtain ⟨lines, hdecode, hspells⟩ := spells_document hd hsound.lines
  refine ⟨lines, last.sources.idxOf, hdecode, fun e he => ?_, fun i line hi =>
    hspells.subperm hkept hi⟩
  have hrecorded := hkept.subset he
  obtain ⟨hfirst, hlast⟩ := hspells.covers e hrecorded
  have hindex : last.sources[last.sources.idxOf e.source]? = some e.source :=
    List.getElem?_idxOf (mem_sources.mpr ⟨e, hrecorded, rfl⟩)
  refine ⟨hfirst, hlast, ?_⟩
  rw [(document?_paths hd).2, List.getElem?_map, hindex, hmapPath]
  rfl

end Run

/-- A file is taken over behind a comment, and once more on the next line: the last
source has the first segment, and it is found where it was recorded. -/
theorem addUnit_shifts_stray :
    let files := strayWorld (strayMap ["one.js", "two.js"] [1, 0])
    ∃ r given w next, runAt ((start "out.js" .embed none).takeAll
        [.register "min.js" strayText, .add "/**/"]) files = (.ok (r, given), w) ∧
      findAll defaultMarker "abcd\n" = [] ∧ r.addUnit strayUnit = (next, none) ∧
      next.entries = [⟨⟨1, 4⟩, "two.js", ⟨1, 0⟩⟩, ⟨⟨1, 5⟩, "one.js", ⟨1, 1⟩⟩] ∧
      ∃ last given', runAt (next.takeAll [.add " ", .addUnit strayUnit]) w =
          (.ok (last, given'), w) ∧
        ∃ d lines, ∃ index : Text → Nat, last.document? "/w" = some d ∧
          decodeMappings d.mappings = .ok lines ∧
          d.sources[index "two.js"]? = some ("two.js" : Text) ∧
          ∀ line, lines[0]? = some line →
            [⟨4, index "two.js", 0, 0, none⟩, ⟨5, index "one.js", 0, 1, none⟩].Subperm line := by
  intro files
  let map : InheritedMap := ⟨["one.js", "two.js"], [.null, .null],
    (strayMap ["one.js", "two.js"] [1, 0]).lines⟩
  obtain ⟨w, hinherit⟩ : ∃ w, runAt (inherit strayText "min.js") files =
      (.ok ("abcd\n", some map), w) := runAt_inherit_stray
  have hbefore : runAt ((start "out.js" .embed none).takeAll
      [.register "min.js" strayText, .add "/**/"]) files =
      (.ok ((strayRecorder map).add "/**/", [("min.js", "abcd\n")]), w) :=
    takeAll_cons_eq_ok.mpr ⟨_, _, w, _, take_register_eq_ok.mpr ⟨_, _, hinherit, rfl, rfl⟩,
      takeAll_cons_eq_ok.mpr ⟨_, _, w, [], take_add_eq_ok.mpr ⟨rfl, rfl, rfl⟩,
        takeAll_nil_eq_ok.mpr ⟨rfl, rfl, rfl⟩, rfl⟩, rfl⟩
  have hfree : findAll defaultMarker "abcd\n" = [] := by decide +kernel
  have hmap : Table.get? ((strayRecorder map).add "/**/").inherited strayUnit.path = some map := rfl
  obtain ⟨next, added, rfl, hadd, hentries, hlater⟩ :=
    addUnit_shifts hbefore hmap (by decide) hfree (by decide +kernel) (by decide +kernel)
  obtain rfl : (((strayRecorder map).add "/**/").addUnit strayUnit).1 = next := congrArg (·.1) hadd
  have hsteps : runAt ((((strayRecorder map).add "/**/").addUnit strayUnit).1.takeAll
      [.add " ", .addUnit strayUnit]) w = (.ok (_, []), w) :=
    takeAll_cons_eq_ok.mpr ⟨_, _, w, [], take_add_eq_ok.mpr ⟨rfl, rfl, rfl⟩,
      takeAll_cons_eq_ok.mpr ⟨_, _, w, [], take_addUnit_eq_ok.mpr ⟨rfl, rfl, rfl⟩,
        takeAll_nil_eq_ok.mpr ⟨rfl, rfl, rfl⟩, rfl⟩, rfl⟩
  obtain ⟨hexists, hall⟩ := hlater _ w w _ _ hsteps "/w"
  have hpaths : ∀ v, Step.addUnit v ∈ ([.register "min.js" strayText, .add "/**/"] : List Step) ++
      .addUnit strayUnit :: [.add " ", .addUnit strayUnit] → v.path ≠ [] := by
    simp only [List.cons_append, List.nil_append, List.mem_cons, reduceCtorEq, Step.addUnit.injEq,
      List.not_mem_nil, false_or, or_false, or_self, forall_eq]
    decide
  obtain ⟨d, hd⟩ := hexists (by decide) hpaths
  obtain ⟨lines, index, hdecode, hplaces, hheld⟩ := hall d hd
  refine ⟨_, _, w, _, hbefore, hfree, hadd, hentries, _, _, hsteps, d, lines, index, hd, hdecode,
    ?_, fun line hline => hheld 0 line hline⟩
  exact (hplaces ⟨⟨1, 4⟩, "two.js", ⟨1, 0⟩⟩ (by decide)).2.2.trans (by decide)

end Recorder

end Mapping

end SourceMerge
