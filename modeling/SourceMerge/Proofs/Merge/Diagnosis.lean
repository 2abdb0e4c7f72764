import SourceMerge.Proofs.Merge.Composition
import SourceMerge.Proofs.Store.Recorded

/-!
# SourceMerge.Proofs.Merge.Diagnosis

What a merge says about the sources that it could not use.  The sources that are
not there come first, as they are listed.  Then each unit that was left out, in
configured order, is explained by what it still waits for, and by one line that
says that it is ignored.  What a unit still waits for is read off the graph after
the assembly, which took the emitted paths out of it; `diagnose_assembled` says the
same of the graph as it was built.

The messages are told as warnings at two moments of the merge, and all other parts
of it are silent about them, so that each is told once.
-/

namespace SourceMerge

open Mapping

/-! ## silent parts -/

/-- The watch on the warnings about sources. -/
def diagnosisWatch {σ : Type} (records : σ → List Record) : Watch σ :=
  ⟨records, .warning, "diagnostics"⟩

namespace Keeps

variable {σ : Type} [FileStore (StateM σ)] [Journal (StateM σ)] {records : σ → List Record}

theorem unseen_note (h : Keeps records) {level : Level} {part : Text}
    (hother : ¬ (level = .warning ∧ speakerName part = speakerName "diagnostics"))
    (message : Text) : Says (diagnosisWatch records) (report level part message) Unseen :=
  h.unseen_report hother message

theorem unseen_notes (h : Keeps records) {level : Level} {part : Text}
    (hother : ¬ (level = .warning ∧ speakerName part = speakerName "diagnostics"))
    (messages : List Text) : Says (diagnosisWatch records) (reportAll level part messages) Unseen :=
  h.unseen_reportAll hother messages

theorem unseen_fetch (h : Keeps records) (location : Location) :
    Says (diagnosisWatch records) location.fetch Unseen := by
  cases location with
  | carried digits => exact Says.pure rfl
  | file path => exact (h.says_read path).bind_unseen fun _ => Says.pure rfl

theorem unseen_loadMap (h : Keeps records) (file : Text) (location : Location) :
    Says (diagnosisWatch records) (location.load file) Unseen :=
  (h.unseen_fetch location).bind_unseen fun _ => Says.pure rfl

theorem unseen_inherit (h : Keeps records) (content file : Text) :
    Tells (diagnosisWatch records) (Mapping.inherit content file) Unseen := by
  unfold Mapping.inherit
  cases findReference? content with
  | none => exact Tells.pure rfl
  | some reference =>
      refine (h.unseen_loadMap file (locate file reference.1)).lift.bind_unseen fun found => ?_
      cases found with
      | ok map => exact (h.unseen_note (by decide) _).lift.bind_unseen fun _ => Tells.pure rfl
      | error fault =>
          cases fault
          case mappingsNotText => exact Tells.throw _
          all_goals exact (h.unseen_note (by decide) _).lift.bind_unseen fun _ => Tells.pure rfl

theorem unseen_register (h : Keeps records) (recorder : Recorder) (path content : Text) :
    Tells (diagnosisWatch records) (recorder.register path content) Unseen :=
  (h.unseen_inherit content (Path.canonical path)).bind_unseen fun _ => Tells.pure rfl

theorem unseen_loadOne (h : Keeps records) (o : Options) (r : Renderer) (l : Merge.Loaded)
    (path : Text) : Tells (diagnosisWatch records) (Merge.loadOne o r l path) Unseen := by
  unfold Merge.loadOne
  refine (h.says_read path).lift.bind_unseen fun found => ?_
  refine (Tells.ofExcept _).bind_unseen fun text => ?_
  rw [Renderer.prepare_inMonad]
  refine (Tells.ofExcept _).bind_unseen fun content => ?_
  cases l.recorder with
  | none => exact Tells.pure rfl
  | some recorder =>
      refine (Tells.ofExcept _).bind_unseen fun content => ?_
      exact ((h.unseen_register recorder path content).adapt _).bind_unseen fun _ => Tells.pure rfl

theorem unseen_loadAll (h : Keeps records) (o : Options) (r : Renderer) (paths : List Text)
    (l : Merge.Loaded) : Tells (diagnosisWatch records) (Merge.loadAll o r l paths) Unseen := by
  induction paths generalizing l with
  | nil => exact Tells.pure rfl
  | cons path rest ih =>
      unfold Merge.loadAll
      refine (h.says_contains path).lift.bind_unseen fun present => ?_
      cases present with
      | false => exact ih _
      | true =>
          refine (h.says_isDirectory path).lift.bind_unseen fun directory => ?_
          cases directory with
          | true => exact (h.unseen_note (by decide) _).lift.bind_unseen fun _ => ih l
          | false => exact (h.unseen_loadOne o r l path).bind_unseen fun l' => ih l'

/-- A conflict is told by another part of the program. -/
theorem tells_checkSourceMap (h : Keeps records) (o : Options) (force : Bool) (label : Text) :
    Tells (diagnosisWatch records) (Merge.checkSourceMap o force label) fun c seen =>
      seen = [] ∧ Merge.checked o force label = .ok c := by
  unfold Merge.checkSourceMap Merge.checked
  by_cases hfit : (!Merge.conflicts o) = true
  · rw [if_pos hfit, if_pos hfit]
    exact Tells.pure ⟨rfl, rfl⟩
  rw [if_neg hfit, if_neg hfit]
  by_cases hforce : (!force) = true
  · rw [if_pos hforce]
    exact (h.unseen_note (by decide) _).lift.bind_unseen fun _ => Tells.throw _
  · rw [if_neg hforce, if_neg hforce]
    exact (h.unseen_note (by decide) _).lift.bind_unseen fun _ => Tells.pure ⟨rfl, rfl⟩

theorem unseen_buildGraph (h : Keeps records) (root marker : Text)
    (contents : List (Text × Text)) :
    Says (diagnosisWatch records) (Merge.buildGraph root marker contents) Unseen :=
  (h.unseen_notes (by decide) _).bind_unseen fun _ => Says.pure rfl

theorem unseen_assembleGraph (h : Keeps records) (separator : Text) (g : Graph) :
    Says (diagnosisWatch records) (Merge.assembleGraph separator g) Unseen := by
  unfold Merge.assembleGraph
  cases g.assemble separator with
  | error fault => exact Says.pure rfl
  | ok a => exact (h.unseen_note (by decide) _).bind_unseen fun _ => Says.pure rfl

theorem unseen_filterAuxM_contains (h : Keeps records) (paths found : List Text) :
    Says (diagnosisWatch records) (List.filterAuxM FileStore.contains paths found) Unseen := by
  induction paths generalizing found with
  | nil => exact Says.pure rfl
  | cons path rest ih => exact (h.says_contains path).bind_unseen fun present => ih _

theorem unseen_store (h : Keeps records) (r : Recorder) (serialized : Text) :
    Tells (diagnosisWatch records) (r.store serialized) Unseen := by
  unfold Recorder.store
  by_cases hfile : r.delivery.isFile = true
  · rw [if_pos hfile]
    refine (h.says_write _ _).lift.bind_unseen fun answer => ?_
    cases answer with
    | error fault => exact Tells.throw _
    | ok _ => exact (h.unseen_note (by decide) _).lift.bind_unseen fun _ => Tells.pure rfl
  · rw [if_neg hfile]
    exact Tells.pure rfl

theorem unseen_finish (h : Keeps records) (r : Recorder) :
    Tells (diagnosisWatch records) r.finish Unseen := by
  unfold Recorder.finish
  refine h.says_workingDirectory.lift.bind_unseen fun workingDirectory => ?_
  cases r.document? workingDirectory with
  | none => exact Tells.throw _
  | some document =>
      refine (h.unseen_store r document.serialized).bind_unseen fun r => ?_
      cases r.delivery.url? workingDirectory r.dest r.mapPath document.serialized with
      | none => exact Tells.throw _
      | some url => exact Tells.pure rfl

theorem unseen_finishMap (h : Keeps records) (o : Options) (banner footer : Text)
    (units : List SourceText) (recorder : Option Recorder) :
    Tells (diagnosisWatch records) (Merge.finishMap o banner footer units recorder) Unseen := by
  cases recorder with
  | none => exact Tells.pure rfl
  | some r =>
      refine (Tells.ofExcept _).bind_unseen fun r => ?_
      exact ((h.unseen_finish r).adapt _).bind_unseen fun _ => Tells.pure rfl

/-! ## what is told -/

/-- What is found about the units that were left out is told, in order. -/
theorem says_explainExcluded (h : Keeps records) (g : Graph) :
    Says (diagnosisWatch records) (Merge.explainExcluded g) fun found seen =>
      seen = found.map (·.message) := by
  have hasked : Says (diagnosisWatch records) (g.awaited.filterM FileStore.contains) Unseen :=
    (h.unseen_filterAuxM_contains _ []).bind_unseen fun _ => Says.pure rfl
  refine hasked.bind_unseen fun present => ?_
  refine (h.says_reportAll _).bind fun _ seen hseen => Says.pure ?_
  rw [hseen, List.append_nil]

/-- A merge tells the messages of its diagnostics, each once and in order. -/
theorem tells_mergeInto (h : Keeps records) (dest : Text) (sources : List Text) (o : Options)
    (r : Renderer) :
    Tells (diagnosisWatch records) (Merge.mergeInto dest sources o r) fun out seen =>
      seen = out.diagnostics.map (·.message) := by
  unfold Merge.mergeInto
  simp only [Renderer.render_inMonad]
  refine ((Tells.ofExcept _).adapt _).bind_unseen fun banner => ?_
  refine ((Tells.ofExcept _).adapt _).bind_unseen fun footer => ?_
  refine (Tells.ofExcept _).bind_unseen fun recorder => ?_
  refine (h.unseen_loadAll o r sources _).bind_unseen fun loaded => ?_
  refine (h.says_reportAll _).lift.bind fun _ missing hmissing => ?_
  refine (Tells.mapM (fun _ => Tells.ofExcept _) _).bind_unseen fun contents => ?_
  refine (h.unseen_buildGraph _ _ _).lift.bind_unseen fun g => ?_
  refine (h.unseen_assembleGraph _ _).lift.bind_unseen fun assembled => ?_
  refine (Tells.ofExcept _).bind_unseen fun assembly => ?_
  refine (h.says_explainExcluded _).lift.bind fun excluded explained hexplained => ?_
  refine (h.unseen_finishMap _ _ _ _ _).bind_unseen fun finished => ?_
  refine (h.says_write _ _).lift.bind_unseen fun answer => ?_
  cases answer with
  | error fault => exact Tells.throw _
  | ok _ =>
      refine (h.unseen_note (by decide) _).lift.bind_unseen fun _ => Tells.pure ?_
      rw [hmissing, hexplained, List.append_nil, ← List.map_append]

/-- The notice about a conflict is not told as one of them. -/
theorem tells_merge (h : Keeps records) (dest : Text) (sources : List Text) (o : Options)
    (force : Bool) (r : Renderer) :
    Tells (diagnosisWatch records) (Merge.merge dest sources o force r) fun out seen =>
      ∃ c reported, Merge.checked o force dest = .ok c ∧
        out.diagnostics = c.2.toList ++ reported ∧ seen = reported.map (·.message) := by
  refine (h.tells_checkSourceMap o force dest).bind fun c before hbefore => ?_
  obtain ⟨rfl, hchecked⟩ := hbefore
  refine (h.tells_mergeInto dest sources c.1 r).bind fun out seen hseen => Tells.pure ?_
  exact ⟨c, out.diagnostics, hchecked, rfl, by simp [hseen]⟩

end Keeps

/-! ## what is found -/

namespace Graph

/-- Why a unit that is left out waits for a path: the path is not there, or it is
there but no unit, or it is a unit, which then was left out as well. -/
def explanation (present : Text → Bool) (B : Graph) (owner path : Text) : Diagnostic :=
  { kind :=
      if present path = false then .missingDependency
      else if path ∉ B.paths then .unconfiguredDependency
      else .circularDependency
    path := path
    message := (Diagnostic.ofDependency (present path) (B.contains path) path owner).message
    referencedBy := some owner }

theorem ofDependency_eq (present : Text → Bool) (B : Graph) (owner path : Text) :
    Diagnostic.ofDependency (present path) (B.contains path) path owner =
      B.explanation present owner path := by
  have hunit : B.contains path = decide (path ∈ B.paths) := by
    rw [Bool.eq_iff_iff, contains_iff, decide_eq_true_eq]
  rw [explanation, hunit, Diagnostic.ofDependency]
  by_cases hpresent : present path = false
  · simp [hpresent]
  · by_cases hmem : path ∈ B.paths <;> simp [hpresent, hmem]

theorem contains_assembled (separator : Text) (B : Graph) (order : List Text) (path : Text) :
    (assembled separator B order).graph.contains path = B.contains path := by
  simp [assembled, contains, List.any_map, Function.comp_def, settled]

/-- It makes no difference to ask for the awaited paths only. -/
theorem diagnose_awaited (present : Text → Bool) (g : Graph) :
    g.diagnose (· ∈ g.awaited.filter present) = g.diagnose present := by
  refine List.flatMap_congr fun u hu => ?_
  unfold explain
  congr 1
  refine List.map_congr_left fun d hd => ?_
  have hawaited : d ∈ g.awaited := List.mem_flatMap.mpr ⟨u, hu, hd⟩
  congr 1
  simp [List.mem_filter, hawaited]

/-- **The explanations of what an assembly left out**, by the graph as it was
built. -/
theorem diagnose_assembled {B : Graph} {order : List Text} (hB : B.paths.Nodup)
    (h : Emission B order) (separator : Text) (present : Text → Bool) :
    (assembled separator B order).graph.diagnose present =
      (B.units.filter (·.path ∉ order)).flatMap fun u =>
        (u.dependencies.filter (· ∉ order)).map (B.explanation present u.path) ++
          [Diagnostic.excluded u.path] := by
  rw [diagnose, unresolved_assembled, List.flatMap_map]
  refine List.flatMap_congr fun u hu => ?_
  rw [explain, if_neg (dependencies_settled_ne_nil hB h hu)]
  congr 1
  refine List.map_congr_left fun d _ => ?_
  rw [contains_assembled]
  exact ofDependency_eq present B u.path d

end Graph

namespace Snapshot.Planned

variable {f : Snapshot} {dest : Text} {sources : List Text} {o : Options} {r : Renderer}
  {start : Option Recorder} {gs : List (Text × Snapshot.Given)} {p : Plan}

/-- The units of a plan in order: the canonical paths of the sources that are found. -/
theorem paths_build_eq (h : f.Planned dest sources o r start gs p) :
    (Graph.build o.root Directive.defaultMarker p.contents).paths =
      ((sources.filter f.found).map Path.canonical).eraseDups := by
  rw [h.paths_build, h.keys_contents, Table.keys_fill, ← map_fst_givens h.givens]
  simp [Table.keys, Function.comp_def]

/-- The explanations of a plan. -/
theorem excluded_eq (h : f.Planned dest sources o r start gs p) :
    let B := Graph.build o.root Directive.defaultMarker p.contents
    let emitted := p.assembly.units.map (·.path)
    p.excluded = (B.units.filter (·.path ∉ emitted)).flatMap fun u =>
      (u.dependencies.filter (· ∉ emitted)).map (B.explanation f.contains u.path) ++
        [Diagnostic.excluded u.path] := by
  intro B emitted
  obtain ⟨order, horder, hunits, heq⟩ := h.assembly_eq
  have hemitted : emitted = order := hunits
  rw [h.excluded, Graph.diagnose_awaited, heq, hemitted]
  exact Graph.diagnose_assembled (Graph.linked_build ..).nodup horder _ _

end Snapshot.Planned

/-- The notice of a merge that is not refused: it was forced over a conflict. -/
theorem Merge.toList_notice {o o' : Options} {force : Bool} {label : Text}
    {notice : Option Diagnostic} (h : Merge.checked o force label = .ok (o', notice)) :
    notice.toList =
      if force = true ∧ Merge.conflicts o = true then [Merge.disabledNotice label] else [] := by
  cases Merge.checked_eq_ok h with
  | inl hfit =>
      obtain ⟨hconf, -, rfl⟩ := hfit
      simp [hconf]
  | inr hforced =>
      obtain ⟨hconf, -, rfl⟩ := hforced
      have hforce : force = true := by
        cases force with
        | false => simp [Merge.checked, hconf] at h
        | true => rfl
      simp [hconf, hforce]

/-- **What a merge says about the sources that it could not use.**  Its diagnostics
are the notice, if it was forced over a conflict; then the sources that are not
there, as they are listed; then, for each unit that is not emitted, in order, an
explanation for each registered dependency that is not emitted, and one line that
says that the unit is left out.  The warnings that it tells are the messages of all
these but the notice, each once and in this order. -/
theorem merge_diagnoses {σ : Type} [FileStore (StateM σ)] [Journal (StateM σ)] {I : σ → Prop}
    {f : Snapshot} (h : Shows I f) {records : σ → List Record} (hkeeps : Keeps records)
    {dest : Text} {sources : List Text} {o : Options} {force : Bool} {r : Renderer} {s s' : σ}
    {out : Outcome} (hs : I s)
    (hrun : runAt (Merge.merge dest sources o force r) s = (.ok out, s')) :
    ∃ (contents : List (Text × Text)) (new : List Record),
      let B := Graph.build o.root Directive.defaultMarker contents
      let reported := (sources.filter (!f.contains ·)).map Diagnostic.missingSource ++
        (B.units.filter (·.path ∉ out.emitted)).flatMap fun u =>
          (u.dependencies.filter (· ∉ out.emitted)).map (B.explanation f.contains u.path) ++
            [Diagnostic.excluded u.path]
      B.paths = ((sources.filter f.found).map Path.canonical).eraseDups ∧
      (∀ e ∈ contents, ∃ path map, f.lastSource? sources e.1 = some path ∧
        f.given o r (Merge.isMapped o) path = .ok ⟨some e.2, map⟩) ∧
      out.diagnostics =
        (if force = true ∧ Merge.conflicts o = true then [Merge.disabledNotice dest] else []) ++
          reported ∧
      records s' = records s ++ new ∧
      messagesOf .warning "diagnostics" new = reported.map (·.message) := by
  obtain ⟨p, hplan, rfl, -⟩ := h.stores_of_merge hs hrun
  obtain ⟨o', start, gs, hchecked, hp⟩ := Snapshot.planned_of_plan hplan
  obtain ⟨rfl, -⟩ := Merge.checked_fields hchecked
  obtain ⟨new, hnew, c, told, hc, hdiagnostics, htold⟩ :=
    hkeeps.tells_merge dest sources o force r s _ s' hrun
  have hnotice : c.2 = p.notice := by rw [Except.ok.inj (hc.symm.trans hchecked)]
  have hmissing : p.loaded.missing = (sources.filter (!f.contains ·)).map Diagnostic.missingSource := by
    rw [hp.loaded, Merge.Loaded.missing_takeAll]
  have hreported : told = p.loaded.missing ++ p.excluded := by
    rw [hnotice] at hdiagnostics
    exact (List.append_cancel_left hdiagnostics).symm
  rw [hmissing, hp.excluded_eq] at hreported
  refine ⟨p.contents, new, hp.paths_build_eq, fun e he => hp.lastSource_of_mem he, ?_, hnew, ?_⟩
  · rw [hdiagnostics, hnotice, Merge.toList_notice hchecked, hreported]
    rfl
  · exact htold.trans (by rw [hreported]; rfl)

/-- Files that wait for each other, for a file that is not there and for one that is
not configured. -/
def stuckFiles : MemoryWorld :=
  { memory :=
      { files :=
          [("a.js", "dependsOn(\"b.js\");\ndependsOn(\"gone.js\");"), ("b.js", "dependsOn(\"a.js\");"),
            ("c.js", "dependsOn(\"lib.js\");"), ("lib.js", "x\n")] } }

def stuckSources : List Text := ["a.js", "none.js", "b.js", "c.js"]

/-- A link to a map of sources that are changed. -/
def changedLink : Options := { stripBanners := some {}, sourceMap := true, mapStyle := "link" }

theorem merge_diagnoses_stuckFiles :
    ∃ (out : Outcome) (w' : MemoryWorld) (left : List Diagnostic),
      runAt (Merge.merge "out.js" stuckSources changedLink true Renderer.plain) stuckFiles =
        (.ok out, w') ∧
      out.diagnostics = Merge.disabledNotice "out.js" :: Diagnostic.missingSource "none.js" :: left ∧
      messagesOf .warning "diagnostics" w'.records =
        (Diagnostic.missingSource "none.js" :: left).map (·.message) := by
  obtain ⟨out, w', hrun⟩ : ∃ out w', runAt (Merge.merge "out.js" stuckSources changedLink true
      Renderer.plain)
      stuckFiles = (.ok out, w') :=
    exists_merge_memory_checked rfl none
      [("a.js", ⟨some "dependsOn(\"b.js\");\ndependsOn(\"gone.js\");", none⟩),
        ("b.js", ⟨some "dependsOn(\"a.js\");", none⟩),
        ("c.js", ⟨some "dependsOn(\"lib.js\");", none⟩)] (by simp) rfl rfl rfl rfl (by simp)
  obtain ⟨contents, new, -, -, hdiagnostics, hrecords, htold⟩ :=
    merge_diagnoses stuckFiles.memory.shows MemoryWorld.keeps rfl hrun
  have hall : w'.records = new := hrecords
  refine ⟨out, w', _, hrun, hdiagnostics, ?_⟩
  rw [hall]
  exact htold

end SourceMerge
