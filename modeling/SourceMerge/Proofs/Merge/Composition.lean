import SourceMerge.Proofs.Graph.Settled
import SourceMerge.Proofs.Merge.Return

/-!
# SourceMerge.Proofs.Merge.Composition

What an output is made of.  Ordering emits some of the units of a merge and
leaves the others out, and every unit that is left out waits for something, so
each of them is explained by exactly one diagnostic that says so.  The emitted
texts stand between banner and footer, and the comment that names the map, if
there is one, comes last.
-/

namespace SourceMerge

open Mapping

/-! ## explaining what is left out -/

namespace Graph

/-- A unit is said to be left out if it waits for something. -/
theorem excluded_explain (present : Text → Bool) (g : Graph) (u : SourceText) :
    ((g.explain present u).filter (·.kind = .sourceExcluded)).map (·.path) =
      if u.dependencies = [] then [] else [u.path] := by
  have hdeps : (u.dependencies.map fun d =>
      Diagnostic.ofDependency (present d) (g.contains d) d u.path).filter
        (·.kind = .sourceExcluded) = [] := by
    rw [List.filter_eq_nil_iff]
    intro d hd
    obtain ⟨target, -, rfl⟩ := List.mem_map.mp hd
    unfold Diagnostic.ofDependency
    split
    · simp
    · split <;> simp
  rw [explain, List.filter_append, hdeps, List.nil_append]
  by_cases hnone : u.dependencies = []
  · simp [hnone]
  · simp [hnone, Diagnostic.excluded]

/-- Each unit that an assembly leaves out is said to be left out, once. -/
theorem excluded_diagnose {B : Graph} {order : List Text} (hB : B.paths.Nodup)
    (h : Emission B order) (separator : Text) (present : Text → Bool) :
    (((assembled separator B order).graph.diagnose present).filter
        (·.kind = .sourceExcluded)).map (·.path) = B.paths.filter (· ∉ order) := by
  rw [diagnose, unresolved_assembled, List.filter_flatMap, List.map_flatMap, List.flatMap_map]
  simp only [excluded_explain]
  rw [List.flatMap_congr fun b hb => if_neg (dependencies_settled_ne_nil hB h hb),
    ← List.map_eq_flatMap, paths, List.filter_map]
  rfl

end Graph

/-! ## what a plan emits and leaves out -/

namespace Snapshot.Planned

variable {f : Snapshot} {dest : Text} {sources : List Text} {o : Options} {r : Renderer}
  {start : Option Recorder} {gs : List (Text × Snapshot.Given)} {p : Plan}

/-- The diagnostics of a plan that say that a unit is left out name exactly the
units that are not emitted. -/
theorem excluded_paths (h : f.Planned dest sources o r start gs p) :
    (p.excluded.filter (·.kind = .sourceExcluded)).map (·.path) =
      (p.contents.map (·.1)).filter (· ∉ p.assembly.units.map (·.path)) := by
  obtain ⟨order, horder, hunits, heq⟩ := h.assembly_eq
  rw [h.excluded, hunits, heq, ← h.paths_build]
  exact Graph.excluded_diagnose (Graph.linked_build ..).nodup horder _ _

/-- The paths of the texts are those that are emitted and those that are left
out, each once. -/
theorem partition (h : f.Planned dest sources o r start gs p) :
    (p.assembly.units.map (·.path) ++
        (p.contents.map (·.1)).filter (· ∉ p.assembly.units.map (·.path))).Nodup ∧
      ∀ key, key ∈ p.assembly.units.map (·.path) ++
        (p.contents.map (·.1)).filter (· ∉ p.assembly.units.map (·.path)) ↔
          key ∈ p.contents.map (·.1) := by
  obtain ⟨order, horder, hunits, -⟩ := h.assembly_eq
  have hsub : ∀ key ∈ order, key ∈ p.contents.map (·.1) := h.paths_build ▸ horder.units
  rw [hunits]
  constructor
  · refine horder.nodup.append (h.nodup_contents.filter _) ?_
    intro key hin hout
    exact of_decide_eq_true (List.mem_filter.mp hout).2 hin
  · intro key
    rw [List.mem_append, List.mem_filter]
    constructor
    · rintro (hin | hout)
      · exact hsub key hin
      · exact hout.1
    · intro hmem
      by_cases hin : key ∈ order
      · exact .inl hin
      · exact .inr ⟨hmem, by simpa using hin⟩

/-- The comment that ends the output: nothing without a map; with one, it names
the map in the way in which that is delivered. -/
theorem comment_eq (h : f.Planned dest sources o r start gs p) :
    if o.sourceMap then
      ∃ x delivery, p.map = some x ∧ Delivery.ofName? o.mapStyle = some delivery ∧
        x.recorder.delivery = delivery ∧
        delivery.url? f.workingDirectory dest x.recorder.mapPath x.document.serialized =
          some x.url ∧ p.comment = referenceComment dest x.url
    else p.map = none ∧ p.comment = [] := by
  rcases h.map_cases with ⟨hoff, -, hnone⟩ | ⟨delivery, path, x, hon, hstyle, -, hx, hsame, -, -, hurl⟩
  · simp [hoff, hnone, Plan.comment]
  · have hdelivery : x.recorder.delivery = delivery := hsame.delivery
    have hdest : x.recorder.dest = dest := hsame.dest
    rw [hdelivery, hdest] at hurl
    rw [if_pos hon]
    exact ⟨x, delivery, hx, hstyle, hdelivery, hurl, by simp [Plan.comment, hx, Finished.comment, hdest]⟩

end Snapshot.Planned

/-! ## the map of a mapped merge -/

/-- A finished map is that of an output, in the way and at the path that the options
name, with the document and the url that its recorder has in the end. -/
structure Finished.IsMapOf (x : Finished) (workingDirectory dest : Text) (o : Options) : Prop where
  outputPath : x.recorder.dest = dest
  delivery : Delivery.ofName? o.mapStyle = some x.recorder.delivery
  mapPath : ∃ path, o.mapName.path? dest = .ok path ∧ x.recorder.mapPath = orBeside dest path
  document : x.recorder.document? workingDirectory = some x.document
  url : x.recorder.delivery.url? workingDirectory dest x.recorder.mapPath x.document.serialized =
    some x.url

/-- A merge that is mapped begins with a recorder at the path that its options name. -/
theorem Merge.startRecorder_of_style {o : Options} {dest : Text} {delivery : Delivery}
    {start : Option Recorder} (hmap : o.sourceMap = true)
    (hstyle : Delivery.ofName? o.mapStyle = some delivery)
    (h : Merge.startRecorder o dest = .ok start) :
    ∃ path, o.mapName.path? dest = .ok path ∧
      start = some (Recorder.start dest delivery path) := by
  rw [Merge.startRecorder, hmap, hstyle] at h
  cases hpath : o.mapName.path? dest with
  | error fault => simp [hpath] at h
  | ok path => exact ⟨path, rfl, by simpa [hpath, eq_comm] using h⟩

/-- The map of a mapped plan, recorded from its beginning. -/
theorem Snapshot.Planned.exists_mapped {f : Snapshot} {dest : Text} {sources : List Text}
    {o : Options} {r : Renderer} {start : Option Recorder} {gs : List (Text × Snapshot.Given)}
    {p : Plan} {delivery : Delivery} (h : f.Planned dest sources o r start gs p)
    (hmap : o.sourceMap = true) (hstyle : Delivery.ofName? o.mapStyle = some delivery) :
    ∃ path x, o.mapName.path? dest = .ok path ∧ p.map = some x ∧
      Recorder.SameMap (Recorder.start dest delivery path) x.recorder ∧
      Merge.recordOutput o p.banner p.footer p.assembly.units
        ((Recorder.start dest delivery path).rememberAll gs) = .ok x.recorder := by
  obtain ⟨path, hpath, hstart⟩ := Merge.startRecorder_of_style hmap hstyle h.begins
  rcases h.map_cases with ⟨hoff, -⟩ | ⟨delivery', path', x, -, -, hstart', hx, hsame, hrecord, -⟩
  · rw [hmap] at hoff
    contradiction
  · rw [← Option.some.inj (hstart.symm.trans hstart')] at hsame hrecord
    exact ⟨path, x, hpath, hx, hsame, hrecord⟩

/-- The map of a mapped plan is that of its output, and the comment names it. -/
theorem Snapshot.Planned.exists_isMapOf {f : Snapshot} {dest : Text} {sources : List Text}
    {o : Options} {r : Renderer} {start : Option Recorder} {gs : List (Text × Snapshot.Given)}
    {p : Plan} (h : f.Planned dest sources o r start gs p) (hmap : o.sourceMap = true) :
    ∃ x, p.map = some x ∧ x.IsMapOf f.workingDirectory dest o ∧
      p.comment = referenceComment dest x.url := by
  rcases h.map_cases with ⟨hoff, -⟩ |
    ⟨delivery, path, x, -, hstyle, hstart, hx, hsame, -, hdoc, hurl⟩
  · rw [hmap] at hoff
    contradiction
  · obtain ⟨named, hname, hstart'⟩ := Merge.startRecorder_of_style hmap hstyle h.begins
    have hbeside : orBeside dest path = orBeside dest named :=
      congrArg Recorder.mapPath (Option.some.inj (hstart.symm.trans hstart'))
    have hdest : x.recorder.dest = dest := hsame.dest
    rw [hdest] at hurl
    refine ⟨x, hx, ⟨hdest, ?_, ⟨named, hname, hsame.mapPath.trans hbeside⟩, hdoc, hurl⟩, ?_⟩
    · rw [hstyle, hsame.delivery]
      rfl
    · simp [Plan.comment, hx, Finished.comment, hdest]

/-! ## the output -/

/-- Whether options ask for a map and get one. -/
def Merge.isMapped (o : Options) : Bool := o.sourceMap && !Merge.conflicts o

/-- The options to go on with ask for a map exactly if the given ones get one;
everything else is as given. -/
theorem Merge.checked_fields {o o' : Options} {force : Bool} {label : Text}
    {notice : Option Diagnostic} (h : Merge.checked o force label = .ok (o', notice)) :
    o' = { o with sourceMap := Merge.isMapped o } ∧
      ∀ d ∈ notice, d.kind = .sourceMapDisabled := by
  rcases Merge.checked_eq_ok h with ⟨hconf, rfl, rfl⟩ | ⟨hconf, rfl, rfl⟩
  · simp [Merge.isMapped, hconf]
  · simp [Merge.isMapped, hconf, Merge.disabledNotice]

/-- What an outcome says to be left out. -/
theorem Plan.excluded_outcome {p : Plan} {dest : Text} {mapPath : Option Text}
    (hnotice : ∀ d ∈ p.notice, d.kind = .sourceMapDisabled)
    (hmissing : ∀ d ∈ p.loaded.missing, d.kind = .missingSource) :
    (p.outcome dest mapPath).excluded =
      (p.excluded.filter (·.kind = .sourceExcluded)).map (·.path) := by
  have hfirst : p.notice.toList.filter (·.kind = .sourceExcluded) = [] := by
    rw [List.filter_eq_nil_iff]
    intro d hd
    simp [hnotice d (by simpa using hd)]
  have hsecond : p.loaded.missing.filter (·.kind = .sourceExcluded) = [] := by
    rw [List.filter_eq_nil_iff]
    intro d hd
    simp [hmissing d hd]
  simp only [Outcome.excluded, Plan.outcome, List.filter_append, hfirst, hsecond, List.nil_append]

/-- **What an output is made of.**  The canonical paths of the sources that are
found are emitted or left out, each of them once.  The output is the rendered
banner, the emitted texts without their directives with separators between them,
the rendered footer and the comment that names the map, if there is one.  Each
emitted text was loaded from the last source of its path: read, processed, and
freed from its banners and from the reference to a map of its own. -/
theorem merge_composes {σ : Type} [FileStore (StateM σ)] [Journal (StateM σ)] {I : σ → Prop}
    {f : Snapshot} (h : Shows I f) {dest : Text} {sources : List Text} {o : Options} {force : Bool}
    {r : Renderer} {s s' : σ} {out : Outcome} (hs : I s)
    (hrun : runAt (Merge.merge dest sources o force r) s = (.ok out, s')) :
    (out.emitted ++ out.excluded).Nodup ∧
      (∀ key, key ∈ out.emitted ++ out.excluded ↔
        ∃ path ∈ sources, f.found path = true ∧ Path.canonical path = key) ∧
      ∃ (banner footer comment : Text) (text : Text → Text) (s₁ : σ),
        r.render o.banner [] "banner" = .ok banner ∧
        r.render o.footer [] "footer" = .ok footer ∧
        (∀ key ∈ out.emitted, ∃ path, f.lastSource? sources key = some path ∧
          f.Loads o r (Merge.isMapped o) path (text key)) ∧
        (if Merge.isMapped o then
          ∃ x : Finished, x.IsMapOf f.workingDirectory dest o ∧
            comment = referenceComment dest x.url ∧
            (x.recorder.delivery.isFile = true → out.mapPath = some x.recorder.mapPath ∧
              ∃ s₀, I s₀ ∧ Stores x.recorder.mapPath x.document.serialized s₀ s₁)
        else comment = []) ∧
        Stores dest
          (banner ++ Text.joinWith o.separator (out.emitted.map fun key =>
            (Directive.strip Directive.defaultMarker (text key)).content) ++ footer ++ comment)
          s₁ s' := by
  obtain ⟨p, hplan, rfl, s₀, s₁, hs₀, hmap, hstores⟩ := h.stores_of_merge hs hrun
  obtain ⟨o', start, gs, hchecked, hp⟩ := Snapshot.planned_of_plan hplan
  obtain ⟨rfl, hnotice⟩ := Merge.checked_fields hchecked
  have hmissing : ∀ d ∈ p.loaded.missing, d.kind = .missingSource := by
    rw [hp.loaded, Merge.Loaded.missing_takeAll]
    intro d hd
    obtain ⟨path, -, rfl⟩ := List.mem_map.mp hd
    rfl
  have hemitted : (p.outcome dest p.mapPath?).emitted = p.assembly.units.map (·.path) := rfl
  rw [Plan.excluded_outcome hnotice hmissing, hemitted, hp.excluded_paths]
  obtain ⟨hnodup, hmem⟩ := hp.partition
  refine ⟨hnodup, fun key => (hmem key).trans hp.mem_contents_iff, ?_⟩
  refine ⟨p.banner, p.footer, p.comment, p.textAt, s₁, hp.banner, hp.footer, ?_, ?_, ?_⟩
  · intro key hkey
    obtain ⟨u, hu, rfl⟩ := List.mem_map.mp hkey
    obtain ⟨path, map, hlast, hgiven⟩ := hp.lastSource_of_mem (hp.unit_of_mem hu).1
    exact ⟨path, hlast, Snapshot.loads_of_given hgiven⟩
  · by_cases hmapped : Merge.isMapped o = true
    · rw [if_pos hmapped]
      obtain ⟨x, hx, hof, hcomment⟩ := hp.exists_isMapOf hmapped
      refine ⟨x, ⟨hof.outputPath, hof.delivery, hof.mapPath, hof.document, hof.url⟩, hcomment,
        fun hfile => ?_⟩
      obtain ⟨hpath, hstored⟩ := hmap.file hx hfile
      exact ⟨hpath, s₀, hs₀, hstored⟩
    · have hcomment := hp.comment_eq
      rw [if_neg hmapped] at hcomment ⊢
      exact hcomment.2
  · have houtput : p.output = p.banner ++ Text.joinWith o.separator
        ((p.assembly.units.map (·.path)).map fun key => (p.strippedAt key).content) ++ p.footer ++
          p.comment := by
      rw [Plan.output, hp.output_assembly, hp.contents_units]
    rw [houtput] at hstores
    exact hstores

theorem merge_composes_twoFiles :
    ∃ out w', runAt (Merge.merge "out.js" someSources { sourceMap := true } false Renderer.plain)
      twoFiles =
        (.ok out, w') ∧ (out.emitted ++ out.excluded).Nodup ∧
      (∀ key, key ∈ out.emitted ++ out.excluded ↔ ∃ path ∈ someSources,
        twoFiles.memory.snapshot.found path = true ∧ Path.canonical path = key) ∧
      ∃ (text : Text → Text) (url : Text) (w₁ : MemoryWorld),
        (∀ key ∈ out.emitted, ∃ path,
          twoFiles.memory.snapshot.lastSource? someSources key = some path ∧
            twoFiles.memory.snapshot.Loads { sourceMap := true } .plain true path (text key)) ∧
        Stores "out.js"
          (Text.joinWith "\n" (out.emitted.map fun key =>
            (Directive.strip Directive.defaultMarker (text key)).content) ++
              referenceComment "out.js" url) w₁ w' := by
  obtain ⟨out, w', hrun⟩ := exists_merge_twoFiles "embed" rfl
  obtain ⟨hnodup, hmem, banner, footer, comment, text, w₁, hbanner, hfooter, hloads, hcomment,
    hstores⟩ := merge_composes twoFiles.memory.shows rfl hrun
  obtain ⟨x, -, rfl, -⟩ := hcomment
  obtain rfl : [] = banner := Except.ok.inj hbanner
  obtain rfl : [] = footer := Except.ok.inj hfooter
  exact ⟨out, w', hrun, hnodup, hmem, text, x.url, w₁, hloads, by simpa using hstores⟩

end SourceMerge
