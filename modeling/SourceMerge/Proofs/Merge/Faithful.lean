import SourceMerge.Proofs.Directive.Origin
import SourceMerge.Proofs.Mapping.Document
import SourceMerge.Proofs.Mapping.RoundTrip
import SourceMerge.Proofs.Merge.Composition

/-!
# SourceMerge.Proofs.Merge.Faithful

A map shows what is there.  Where no source brings a map along, each segment of
the map that a merge produces leads from a character of the output to an equal
character of a source, and every line of an emitted unit that holds a character
has a segment at the place where it begins.

Five accounts of the same text have to agree for this: the origins of a stripped
text (`Directive.charAt?_origin`), the cursor that walks over the output
(`Recorder.mem_unitEntries`), the joined contents (`Recorder.exists_joinWith_eq`),
the segments by line (`Recorder.mem_document_line`) and the mapping string
(`decodeMappings_encodeMappings`).
-/

namespace SourceMerge

open Mapping

/-- A segment on a generated line leads from a character of the output to an
equal character of what its source holds. -/
def Mapping.Segment.PointsAt (output : Text) (contents : List Data) (line : Int) (s : Segment) :
    Prop :=
  0 ≤ s.source ∧ ∃ c text, Text.charAt? output ⟨line, s.column⟩ = some c ∧
    contents[s.source.toNat]? = some (.text text) ∧
    Text.charAt? text ⟨s.sourceLine + 1, s.sourceColumn⟩ = some c

namespace Snapshot.Planned

variable {f : Snapshot} {dest : Text} {sources : List Text} {o : Options} {r : Renderer}
  {start : Option Recorder} {gs : List (Text × Snapshot.Given)} {p : Plan} {x : Finished}

/-- The document of a plan is the one that its recorder finishes. -/
theorem document_eq (h : f.Planned dest sources o r start gs p) (hx : p.map = some x) :
    x.recorder.document? f.workingDirectory = some x.document := by
  rcases h.map_cases with ⟨-, -, hnone⟩ | ⟨delivery, path, x', -, -, -, hx', -, -, hdoc, -⟩
  · rw [hx] at hnone
    contradiction
  · obtain rfl : x = x' := Option.some.inj (hx.symm.trans hx')
    exact hdoc

/-- The recorder of a finished map, where no source brought a map along. -/
theorem recorder_eq (h : f.Planned dest sources o r start gs p) (hown : ∀ e ∈ gs, e.2.map = none)
    (hx : p.map = some x) :
    x.recorder.entries =
        Recorder.unitEntries o.separator (Position.start.after p.banner) p.assembly.units ∧
      x.recorder.contents = Table.fill []
        (gs.map fun e => (Path.canonical e.1, .text (e.2.text.getD []))) := by
  rcases h.map_cases with ⟨-, -, hnone⟩ | ⟨delivery, path, x', -, -, -, hx', -, hrecord, -, -⟩
  · rw [hx] at hnone
    contradiction
  · obtain rfl : x = x' := Option.some.inj (hx.symm.trans hx')
    rw [Recorder.rememberAll_eq _ hown] at hrecord
    obtain ⟨cursor, hrun⟩ := Recorder.recordOutput_eq (r := { Recorder.start dest delivery path with
      contents := Table.fill [] (gs.map fun e => (Path.canonical e.1, .text (e.2.text.getD []))) })
      rfl o p.banner p.footer p.assembly.units
    rw [show (Recorder.start dest delivery path).contents = [] from rfl, hrun] at hrecord
    rw [← Except.ok.inj hrecord]
    exact ⟨rfl, rfl⟩

/-- A finished map has the text of every unit. -/
theorem content_of_unit (h : f.Planned dest sources o r start gs p)
    (hown : ∀ e ∈ gs, e.2.map = none) (hx : p.map = some x) {u : SourceText}
    (hu : u ∈ p.assembly.units) :
    Table.get? x.recorder.contents u.path = some (.text (p.textAt u.path)) := by
  have hrow : Table.get? p.loaded.contents u.path = some (some (p.textAt u.path)) := by
    rw [h.contents, Table.get?_map,
      Table.get?_of_mem h.nodup_contents (h.unit_of_mem hu).1, Option.map_some]
  rw [h.loaded, Merge.Loaded.contents_takeAll, Table.get?_fill, Table.get?_nil,
    Option.or_none] at hrow
  have hrows : (gs.map fun e => (Path.canonical e.1, Data.text (e.2.text.getD []))) =
      (gs.map fun e => (Path.canonical e.1, e.2.text)).map fun row =>
        (row.1, Data.text (row.2.getD [])) := by
    rw [List.map_map]
    rfl
  rw [(h.recorder_eq hown hx).2, hrows, Table.get?_fill, ← List.map_reverse,
    Table.get?_map fun text : Option Text => Data.text (text.getD []), hrow]
  rfl

/-- An entry leads from a character of the output to an equal character of the
text of its unit. -/
theorem entry_points (h : f.Planned dest sources o r start gs p)
    (hown : ∀ e ∈ gs, e.2.map = none) (hx : p.map = some x) {e : Entry}
    (he : e ∈ x.recorder.entries) :
    1 ≤ e.generated.line ∧ ∃ c text, Text.charAt? p.output e.generated = some c ∧
      Table.get? x.recorder.contents e.source = some (.text text) ∧
      Text.charAt? text e.shown = some c := by
  rw [(h.recorder_eq hown hx).1] at he
  obtain ⟨before, u, after, t, c, rest, hunits, hcontent, hstart, rfl⟩ :=
    Recorder.mem_unitEntries.mp he
  have hu : u ∈ p.assembly.units := by simp [hunits]
  obtain ⟨-, hstripped, horigins⟩ := h.unit_of_mem hu
  rw [hstripped] at hcontent
  obtain ⟨place, hplace, hchar⟩ := Directive.charAt?_origin hcontent hstart
  refine ⟨?_, c, _, ?_, h.content_of_unit hown hx hu, ?_⟩
  · simp only [Position.line_after, Position.start]
    omega
  · obtain ⟨tail, htail⟩ := Recorder.exists_joinWith_eq o.separator before u after
    have houtput : p.output = (p.banner ++ (Recorder.lead o.separator before ++ t)) ++
        c :: (rest ++ tail ++ p.footer ++ p.comment) := by
      rw [Plan.output, h.output_assembly, hunits, htail, hstripped, hcontent]
      simp
    rw [houtput, ← Position.after_append]
    exact Text.charAt?_after _ c _
  · have hshown : u.origins.getD (t.count '\n') ⟨t.count '\n' + 1, 0⟩ = place := by
      rw [horigins, List.getD_eq_getElem?_getD]
      change ((Directive.strip _ _).origins[_]?).getD _ = _
      rw [hplace, Option.getD_some]
    rw [hshown]
    exact hchar

/-- Every segment of a finished map leads to an equal character. -/
theorem segment_points (h : f.Planned dest sources o r start gs p)
    (hown : ∀ e ∈ gs, e.2.map = none) (hx : p.map = some x)
    (hdoc : x.recorder.document? f.workingDirectory = some x.document)
    (hembeds : x.recorder.delivery.embedsSources = true) :
    ∃ contents, x.document.contents = some contents ∧
      ∀ (i : Nat) segments, x.document.lines[i]? = some segments → ∀ s ∈ segments,
        s.PointsAt p.output contents (i + 1) := by
  refine ⟨_, (Recorder.document?_eq_some hdoc).2.trans (if_pos hembeds), ?_⟩
  intro i segments hi s hs
  obtain ⟨e, he, hline, rfl⟩ := (Recorder.mem_document_line hdoc hi).mp hs
  obtain ⟨-, c, text, hout, htext, hshown⟩ := h.entry_points hown hx he
  obtain ⟨contents, hcontents, hindex⟩ := Recorder.content_of_segment hdoc hembeds he
  rw [(Recorder.document?_eq_some hdoc).2, if_pos hembeds] at hcontents
  obtain rfl := Option.some.inj hcontents
  refine ⟨Int.natCast_nonneg _, c, text, ?_, ?_, ?_⟩
  · rw [← hline]
    exact hout
  · rw [hindex, htext, Option.getD_some]
  · have hplace : (⟨(Recorder.segmentOf x.recorder.sources e).sourceLine + 1,
        (Recorder.segmentOf x.recorder.sources e).sourceColumn⟩ : Position) = e.shown := by
      simp [Recorder.segmentOf]
    rw [hplace]
    exact hshown

/-- What is written before a unit, by the paths before it. -/
theorem lead_eq (h : f.Planned dest sources o r start gs p) {before : List SourceText}
    (hbefore : ∀ u ∈ before, u ∈ p.assembly.units) :
    Recorder.lead o.separator before =
      (before.map (·.path)).flatMap fun key => (p.strippedAt key).content ++ o.separator := by
  rw [Recorder.lead, List.flatMap_map]
  exact List.flatMap_congr fun u hu => by rw [(h.unit_of_mem (hbefore u hu)).2.1]

/-- Every line of an emitted unit that holds a character has a segment. -/
theorem exists_segment (h : f.Planned dest sources o r start gs p)
    (hown : ∀ e ∈ gs, e.2.map = none) (hx : p.map = some x)
    (hdoc : x.recorder.document? f.workingDirectory = some x.document)
    {before after : List Text} {key t rest : Text} {c : Char}
    (hemitted : p.assembly.units.map (·.path) = before ++ key :: after)
    (hcontent : (p.strippedAt key).content = t ++ c :: rest) (hstart : Text.LineStart t) :
    ∃ (i : Nat) (segments : List Segment) (s : Segment),
      x.document.lines[i]? = some segments ∧ s ∈ segments ∧
        (⟨i + 1, s.column⟩ : Position) = Position.start.after
          (p.banner ++ (before.flatMap fun q => (p.strippedAt q).content ++ o.separator) ++ t) := by
  obtain ⟨us, tail, hunits, rfl, htail⟩ := List.map_eq_append_iff.mp hemitted
  obtain ⟨u, vs, rfl, rfl, rfl⟩ := List.map_eq_cons_iff.mp htail
  have hu : u ∈ p.assembly.units := by simp [hunits]
  rw [← (h.unit_of_mem hu).2.1] at hcontent
  obtain ⟨e, hentry⟩ : ∃ e, e = (⟨(Position.start.after p.banner).after
      (Recorder.lead o.separator us ++ t), u.path,
      u.origins.getD (t.count '\n') ⟨t.count '\n' + 1, 0⟩⟩ : Entry) := ⟨_, rfl⟩
  have he : e ∈ x.recorder.entries := by
    rw [(h.recorder_eq hown hx).1]
    exact Recorder.mem_unitEntries.mpr ⟨us, u, vs, t, c, rest, hunits, hcontent, hstart, hentry⟩
  obtain ⟨i, segments, hline, hi, hmem⟩ :=
    Recorder.exists_document_line hdoc he (h.entry_points hown hx he).1
  refine ⟨i, segments, _, hi, hmem, ?_⟩
  have hplace : e.generated = Position.start.after
      (p.banner ++ (Recorder.lead o.separator us ++ t)) := by
    rw [hentry]
    exact (Position.after_append _ _ _).symm
  rw [← h.lead_eq fun v hv => by simp [hunits, hv], List.append_assoc, ← hplace, ← hline]
  rfl

end Snapshot.Planned

/-! ## the map of a merge -/

/-- A map that holds the sources never conflicts with what is done to them. -/
theorem Merge.conflicts_of_embedsSources {o : Options} {delivery : Delivery}
    (hstyle : Delivery.ofName? o.mapStyle = some delivery)
    (hembeds : delivery.embedsSources = true) : Merge.conflicts o = false := by
  have hlink : (o.mapStyle == "link".toList) = false := by
    rw [beq_eq_false_iff_ne]
    intro heq
    rw [heq, show Delivery.ofName? "link".toList = some .link from rfl] at hstyle
    rw [← Option.some.inj hstyle] at hembeds
    contradiction
  rw [Merge.conflicts, hlink, Bool.and_false, Bool.false_and]

/-- **A map shows what is there.**  Take a merge that returns, with a map that
holds the sources, of which none brings a map along.  Each segment that the
mapping string of its map spells leads from a character of the output to an equal
character of what its source holds; and each line of an emitted text that holds a
character has a segment at the place of the output where it begins. -/
theorem merge_maps_faithfully {σ : Type} [FileStore (StateM σ)] [Journal (StateM σ)]
    {I : σ → Prop} {f : Snapshot} (h : Shows I f) {dest : Text} {sources : List Text} {o : Options}
    {force : Bool} {r : Renderer} {s s' : σ} {out : Outcome} {delivery : Delivery} (hs : I s)
    (hrun : runAt (Merge.merge dest sources o force r) s = (.ok out, s'))
    (hmap : o.sourceMap = true) (hstyle : Delivery.ofName? o.mapStyle = some delivery)
    (hembeds : delivery.embedsSources = true)
    (hown : ∀ path ∈ sources, f.found path = true → ∀ g, f.given o r true path = .ok g →
      g.map = none) :
    ∃ (document : Document) (contents : List Data) (lines : List (List Segment))
      (banner footer comment : Text) (text : Text → Directive.Stripped) (output : Text) (s₁ : σ),
      r.render o.banner [] "banner" = .ok banner ∧
      (∀ key ∈ out.emitted, ∃ path raw map, f.lastSource? sources key = some path ∧
        f.given o r true path = .ok ⟨some raw, map⟩ ∧
        text key = Directive.strip Directive.defaultMarker raw) ∧
      output = banner ++ Text.joinWith o.separator (out.emitted.map fun key => (text key).content) ++
        footer ++ comment ∧
      Stores dest output s₁ s' ∧
      (if delivery.isFile then
        ∃ mapPath s₀, out.mapPath = some mapPath ∧ Stores mapPath document.serialized s₀ s₁
      else comment = referenceComment dest
        (Delivery.carriedHead ++ Base64.encode (Text.toUtf8 document.serialized))) ∧
      document.contents = some contents ∧
      decodeMappings document.mappings = .ok lines ∧
      (∀ (i : Nat) segments, lines[i]? = some segments → ∀ g ∈ segments,
        g.PointsAt output contents (i + 1)) ∧
      ∀ before key after t c rest, out.emitted = before ++ key :: after →
        (text key).content = t ++ c :: rest → Text.LineStart t →
        ∃ (i : Nat) (segments : List Segment) (g : Segment),
          lines[i]? = some segments ∧ g ∈ segments ∧
            (⟨i + 1, g.column⟩ : Position) = Position.start.after
              (banner ++ (before.flatMap fun q => (text q).content ++ o.separator) ++ t) := by
  obtain ⟨p, hplan, rfl, s₀, s₁, hs₀, hstored, hstores⟩ := h.stores_of_merge hs hrun
  obtain ⟨o', start, gs, hchecked, hp⟩ := Snapshot.planned_of_plan hplan
  have hconf := Merge.conflicts_of_embedsSources hstyle hembeds
  obtain ⟨rfl, -⟩ := Merge.checked_fields hchecked
  have hmapped : Merge.isMapped o = true := by simp [Merge.isMapped, hmap, hconf]
  have hnone : ∀ e ∈ gs, e.2.map = none := by
    intro e he
    obtain ⟨hpath, hfound⟩ := Snapshot.source_of_mem hp.givens he
    have hgiven := Snapshot.given_of_mem hp.givens he
    rw [hp.isSome_start, hmapped] at hgiven
    exact hown e.1 hpath hfound e.2 hgiven
  have hcomment := hp.comment_eq
  rw [if_pos hmapped] at hcomment
  obtain ⟨x, delivery', hx, hstyle', hdelivery, hurl, hcomment⟩ := hcomment
  obtain rfl : delivery = delivery' := Option.some.inj (hstyle.symm.trans hstyle')
  have hdoc := hp.document_eq hx
  obtain ⟨contents, hcontents, hpoints⟩ :=
    hp.segment_points hnone hx hdoc (hdelivery ▸ hembeds)
  refine ⟨x.document, contents, if x.document.lines = [] then [[]] else x.document.lines,
    p.banner, p.footer, p.comment, p.strippedAt, p.output, s₁, hp.banner, ?_, ?_, hstores, ?_,
    hcontents, decodeMappings_encodeMappings (Recorder.name_document_lines hdoc), ?_, ?_⟩
  · intro key hkey
    obtain ⟨u, hu, rfl⟩ := List.mem_map.mp hkey
    obtain ⟨path, map, hlast, hgiven⟩ := hp.lastSource_of_mem (hp.unit_of_mem hu).1
    rw [hmapped] at hgiven
    exact ⟨path, p.textAt u.path, map, hlast, hgiven, rfl⟩
  · rw [Plan.output, hp.output_assembly, hp.contents_units]
    rfl
  · by_cases hfile : delivery.isFile = true
    · rw [if_pos hfile]
      exact ⟨x.recorder.mapPath, s₀, hstored.file hx (hdelivery ▸ hfile)⟩
    · rw [if_neg hfile, hcomment]
      cases delivery with
      | inline => rw [← Option.some.inj hurl]
      | embed => exact absurd rfl hfile
      | link => exact absurd rfl hfile
  · intro i segments hi g hg
    obtain ⟨line, hline, hmem⟩ := mem_line_decoded.mp ⟨segments, hi, hg⟩
    exact hpoints i line hline g hmem
  · intro before key after t c rest hemitted hcontent hstart
    obtain ⟨i, segments, g, hi, hg, hplace⟩ :=
      hp.exists_segment hnone hx hdoc hemitted hcontent hstart
    obtain ⟨line, hline, hmem⟩ := mem_line_decoded.mpr ⟨segments, hi, hg⟩
    exact ⟨i, line, g, hline, hmem, hplace⟩

theorem merge_maps_faithfully_twoFiles :
    ∃ out w' document contents lines output,
      runAt (Merge.merge "out.js" someSources { sourceMap := true } false Renderer.plain) twoFiles =
        (.ok out, w') ∧
      Document.contents document = some contents ∧ decodeMappings document.mappings = .ok lines ∧
      ∀ (i : Nat) segments, lines[i]? = some segments → ∀ g ∈ segments,
        Segment.PointsAt output contents (i + 1) g := by
  obtain ⟨out, w', hrun⟩ := exists_merge_twoFiles "embed" rfl
  obtain ⟨document, contents, lines, _, _, _, _, output, _, -, -, -, -, -, hcontents, hlines,
    hpoints, -⟩ := merge_maps_faithfully twoFiles.memory.shows rfl hrun rfl
      (show Delivery.ofName? "embed".toList = some .embed from rfl) rfl
      (map_of_given_twoFiles "embed")
  exact ⟨out, w', document, contents, lines, output, hrun, hcontents, hlines, hpoints⟩

end SourceMerge
