import SourceMerge.Proofs.Mapping.Steps

/-!
# SourceMerge.Proofs.Mapping.Payload

What a finished map says when it is read back.  Entries come in the order of the
output and of the maps that sources brought along, which need not ascend; a finished
map has them by line, sorted, with its sources numbered by first use, and as
differences from one segment to the next.  Nothing is lost on the way, and nothing is
merged: line by line, the segments that are read back are those of the entries, as
often as these were recorded (`Spells`).
-/

namespace SourceMerge.Mapping

/-- Segments are ordered by their columns, then by what they show. -/
def Segment.AtMost (a b : Segment) : Prop :=
  a.column < b.column ∨ a.column = b.column ∧
    (a.source < b.source ∨ a.source = b.source ∧
      (a.sourceLine < b.sourceLine ∨ a.sourceLine = b.sourceLine ∧
        a.sourceColumn ≤ b.sourceColumn))

namespace Recorder

/-- Lines of segments say what was recorded, with sources by their index. -/
structure Spells (sources : List Text) (entries : List Entry) (lines : List (List Segment)) :
    Prop where
  /-- A line holds the segments of the entries on it, and no others. -/
  perm : ∀ (i : Nat) (line : List Segment), lines[i]? = some line →
    line.Perm ((entries.filter (·.generated.line = (i : Int) + 1)).map fun e =>
      ⟨e.generated.column, sources.idxOf e.source, e.shown.line - 1, e.shown.column, none⟩)
  ascending : ∀ line ∈ lines, line.Pairwise Segment.AtMost
  /-- No entry is on any other line. -/
  covers : ∀ e ∈ entries, 1 ≤ e.generated.line ∧ e.generated.line ≤ lines.length
  /-- The last line has an entry, unless nothing at all was recorded. -/
  last : lines = [[]] ∨ ∃ e ∈ entries, e.generated.line = lines.length

theorem foldl_max_mem (lines : List Int) (last : Int) :
    lines.foldl max last = last ∨ lines.foldl max last ∈ lines := by
  induction lines generalizing last with
  | nil => exact .inl rfl
  | cons line lines ih =>
      rw [List.foldl_cons, List.mem_cons]
      rcases ih (max last line) with hmax | hmem
      · rw [hmax]
        exact (max_choice last line).imp id .inl
      · exact .inr (.inr hmem)

/-- The last line is zero or the line of an entry. -/
theorem lastLine_cases (r : Recorder) :
    r.lastLine = 0 ∨ ∃ e ∈ r.entries, e.generated.line = r.lastLine := by
  rcases foldl_max_mem (r.entries.map (·.generated.line)) 0 with hzero | hmem
  · exact .inl hzero
  · obtain ⟨e, he, hline⟩ := List.mem_map.mp hmem
    exact .inr ⟨e, he, hline⟩

variable {r : Recorder} {wd : Text} {d : Document}

/-- **A finished map is read back** as the lines of what was recorded. -/
theorem spells_document (h : r.document? wd = some d)
    (hlines : ∀ e ∈ r.entries, 1 ≤ e.generated.line) :
    ∃ lines, decodeMappings d.mappings = .ok lines ∧ Spells r.sources r.entries lines := by
  have hd := (document?_eq_some h).1
  have hlength : d.lines.length = r.lastLine.toNat := by rw [hd]; simp
  refine ⟨_, decodeMappings_encodeMappings (name_document_lines h), ?_, ?_, ?_, ?_⟩
  · intro i line hi
    have hline := segmentsFor_document h hlines [] [] (i + 1)
    have hnat : ((i : Int) + 1 - 1).toNat = i := by omega
    rw [InheritedMap.segmentsFor, if_pos (by omega), hnat, List.getD_eq_getElem?_getD, hi,
      Option.getD_some] at hline
    rw [hline]
    exact perm_lineSegments _
  · intro line hline
    split at hline
    · rw [List.mem_singleton.mp hline]
      exact .nil
    · rw [hd] at hline
      obtain ⟨i, -, rfl⟩ := List.mem_map.mp hline
      exact (pairwise_lineSegments _).imp segmentLE_iff.mp
  · intro e he
    have hfirst := hlines e he
    have hlast := line_le_lastLine he
    refine ⟨hfirst, ?_⟩
    split
    · next hnil =>
      rw [hnil, List.length_nil] at hlength
      omega
    · omega
  · split
    · exact .inl rfl
    · next hne =>
      have hpos := List.length_pos_iff.mpr hne
      obtain ⟨e, he, hline⟩ := (lastLine_cases r).resolve_left (by omega)
      exact .inr ⟨e, he, by omega⟩

/-- The index of a segment is that of a source. -/
theorem Spells.index_lt {sources : List Text} {entries : List Entry} {lines : List (List Segment)}
    (h : Spells sources entries lines) (hsources : ∀ e ∈ entries, e.source ∈ sources) :
    ∀ line ∈ lines, ∀ s ∈ line, 0 ≤ s.source ∧ s.source < sources.length := by
  intro line hline s hs
  obtain ⟨i, hi⟩ := List.mem_iff_getElem?.mp hline
  obtain ⟨e, he, rfl⟩ := List.mem_map.mp ((h.perm i line hi).mem_iff.mp hs)
  have hlt := List.idxOf_lt_length_of_mem (hsources e (List.mem_filter.mp he).1)
  exact ⟨Int.natCast_nonneg _, Int.ofNat_lt.mpr hlt⟩

/-- What a finished map holds of its sources, if it holds them. -/
theorem contents_document (h : r.document? wd = some d) :
    if r.delivery.embedsSources then
      ∃ contents, d.contents = some contents ∧ contents.length = r.sources.length ∧
        ∀ (i : Nat) (source : Text) (content : Data), r.sources[i]? = some source →
          Table.get? r.contents source = some content → contents[i]? = some content
    else d.contents = none := by
  rw [(document?_eq_some h).2]
  cases r.delivery.embedsSources with
  | false => rfl
  | true =>
      refine ⟨_, rfl, List.length_map _, fun i source content hi hcontent => ?_⟩
      rw [List.getElem?_map, hi, Option.map_some, hcontent, Option.getD_some]

/-- A sound recorder has a finished map, if neither the output nor a recorded unit has
an empty path. -/
theorem Sound.exists_document? {taken : List Step} {given : Table Text} (h : Sound taken given r)
    (hdest : r.dest ≠ []) (hpaths : ∀ u, Step.addUnit u ∈ taken → u.path ≠ []) :
    ∃ d, r.document? wd = some d :=
  Recorder.exists_document? wd hdest (h.named hpaths)

section Run

variable {σ : Type} [FileStore (StateM σ)] [Journal (StateM σ)]

/-- **What is recorded is what is read back.**  After any steps a map can be finished,
if neither the output nor a unit has an empty path (paths of units are canonical, and
such a path is never empty).  Its mappings, decoded, have on each line the segments of
the entries there, each as often as it was recorded, in ascending order, up to the last
line with an entry; every index is that of a source.  The sources are the recorded
ones, each once, by their first use, as the ways to them from the map.  If the map
holds its sources, it holds one content for each, in this order: for a source that was
registered, the text that it was registered with last. -/
theorem payload_of_takeAll {dest : Text} {delivery : Delivery} {mapPath : Option Text}
    {steps : List Step} {s s' : σ} {r : Recorder} {given : Table Text}
    (hrun : runAt ((start dest delivery mapPath).takeAll steps) s = (.ok (r, given), s'))
    (wd : Text) :
    (dest ≠ [] → (∀ u, Step.addUnit u ∈ steps → u.path ≠ []) → ∃ d, r.document? wd = some d) ∧
      ∀ d, r.document? wd = some d → ∃ lines sources,
        decodeMappings d.mappings = .ok lines ∧ Spells sources r.entries lines ∧
        (∀ line ∈ lines, ∀ s ∈ line, 0 ≤ s.source ∧ s.source < d.sources.length) ∧
        sources = (r.entries.map (·.source)).eraseDups ∧
        d.sources = sources.map (Path.relativeTo wd (Path.directory (orBeside dest mapPath))) ∧
        if delivery.embedsSources then
          ∃ contents, d.contents = some contents ∧ contents.length = d.sources.length ∧
            ∀ (i : Nat) (source cleaned : Text), sources[i]? = some source →
              Table.get? given.reverse source = some cleaned → contents[i]? = some (.text cleaned)
        else d.contents = none := by
  have hsound : Sound steps given r := (sound_start dest delivery mapPath).takeAll hrun
  obtain ⟨hdest, hdelivery, hmapPath⟩ :=
    (grows_takeAll (sound_start dest delivery mapPath) hrun).sameMap
  refine ⟨fun hne => hsound.exists_document? (hdest ▸ hne), fun d hd => ?_⟩
  obtain ⟨lines, hdecode, hspells⟩ := spells_document hd hsound.lines
  have hpaths : d.sources =
      r.sources.map (Path.relativeTo wd (Path.directory (orBeside dest mapPath))) := by
    rw [(document?_paths hd).2, hmapPath]
    rfl
  have hlength : d.sources.length = r.sources.length := by rw [hpaths, List.length_map]
  have hcontents := contents_document hd
  rw [hdelivery] at hcontents
  refine ⟨lines, r.sources, hdecode, hspells, ?_, sources_eq_eraseDups, hpaths, ?_⟩
  · rw [hlength]
    exact hspells.index_lt fun e he => mem_sources.mpr ⟨e, he, rfl⟩
  · rw [hlength]
    change if delivery.embedsSources then _ else _ at hcontents
    cases hembeds : delivery.embedsSources with
    | false =>
        rw [hembeds] at hcontents
        exact hcontents
    | true =>
        rw [hembeds] at hcontents
        obtain ⟨contents, hsome, hcount, hall⟩ := hcontents
        exact ⟨contents, hsome, hcount, fun i source cleaned hi hgiven =>
          hall i source _ hi (hsound.contents source cleaned hgiven)⟩

end Run

/-- Two units on one line, the second with a map whose segments name the last source
first. -/
theorem payload_of_takeAll_stray :
    let files := strayWorld (strayMap ["one.js", "two.js"] [1, 0])
    let next : SourceText := { path := "b.js", raw := "b", content := "b", origins := [⟨1, 0⟩] }
    let steps : List Step := [.register "min.js" strayText, .register "b.js" "b", .add "/**/",
      .addUnit next, .addUnit strayUnit]
    ∃ r given w, runAt ((start "out.js" .embed none).takeAll steps) files = (.ok (r, given), w) ∧
      ∃ d lines, r.document? "/w" = some d ∧ decodeMappings d.mappings = .ok lines ∧
        Spells ["b.js", "two.js", "one.js"] r.entries lines ∧
        ∃ contents, d.contents = some contents ∧ contents[0]? = some (.text "b") := by
  intro files next steps
  let map : InheritedMap := ⟨["one.js", "two.js"], [.null, .null],
    (strayMap ["one.js", "two.js"] [1, 0]).lines⟩
  let registered : Recorder := ((start "out.js" .embed none).remember "min.js" "abcd\n"
    (some map)).remember "b.js" "b" none
  obtain ⟨w, hinherit⟩ : ∃ w, runAt (inherit strayText "min.js") files =
      (.ok ("abcd\n", some map), w) := runAt_inherit_stray
  have hunits : runAt (registered.takeAll [.add "/**/", .addUnit next, .addUnit strayUnit]) w =
      (.ok ((((registered.add "/**/").addUnit next).1.addUnit strayUnit).1, []), w) :=
    takeAll_cons_eq_ok.mpr ⟨_, _, w, [], take_add_eq_ok.mpr ⟨rfl, rfl, rfl⟩,
      takeAll_cons_eq_ok.mpr ⟨_, _, w, [], take_addUnit_eq_ok.mpr ⟨rfl, rfl, rfl⟩,
        takeAll_cons_eq_ok.mpr ⟨_, _, w, [], take_addUnit_eq_ok.mpr ⟨rfl, rfl, rfl⟩,
          takeAll_nil_eq_ok.mpr ⟨rfl, rfl, rfl⟩, rfl⟩, rfl⟩, rfl⟩
  have hrun : runAt ((start "out.js" .embed none).takeAll steps) files =
      (.ok ((((registered.add "/**/").addUnit next).1.addUnit strayUnit).1,
        [("min.js", "abcd\n"), ("b.js", "b")]), w) :=
    takeAll_cons_eq_ok.mpr ⟨_, _, w, _, take_register_eq_ok.mpr ⟨_, _, hinherit, rfl, rfl⟩,
      takeAll_cons_eq_ok.mpr ⟨_, _, w, _, take_register_eq_ok.mpr ⟨_, none, rfl, rfl, rfl⟩,
        hunits, rfl⟩, rfl⟩
  obtain ⟨hexists, hall⟩ := payload_of_takeAll hrun "/w"
  have hpaths : ∀ u, Step.addUnit u ∈ steps → u.path ≠ [] := by
    simp only [steps, List.mem_cons, reduceCtorEq, Step.addUnit.injEq, List.not_mem_nil, false_or,
      or_false]
    rintro u (rfl | rfl)
    · decide
    · decide
  obtain ⟨d, hd⟩ := hexists (by decide) hpaths
  obtain ⟨lines, sources, hdecode, hspells, -, rfl, -, contents, hcontents, -, hheld⟩ := hall d hd
  exact ⟨_, _, w, hrun, d, lines, hd, hdecode, hspells, contents, hcontents,
    hheld 0 "b.js" "b" rfl rfl⟩

end Recorder

end SourceMerge.Mapping
