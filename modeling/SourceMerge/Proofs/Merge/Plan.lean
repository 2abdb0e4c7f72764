import SourceMerge.Proofs.Mapping.Recording
import SourceMerge.Proofs.Merge.Loading

/-!
# SourceMerge.Proofs.Merge.Plan

A merge in two parts.  Everything that can be known without writing is a *plan*,
a function of what the store answers (`Snapshot.plan`); what is left is to
deliver it: the map is stored if it is a file, then the output is.  `leads_merge`
says that a merge is its plan followed by its delivery, so a fault of the plan
comes before anything is written, and behind the plan only the store can fail.

That a finished map always has a url is the one thing here that is not read off
the text of the program: the url is looked for after the map was stored, and it
is missing only if the path of the map is empty, which it never is.
-/

namespace SourceMerge

open Mapping

/-! ## plans -/

/-- A map that is ready to be stored. -/
structure Finished where
  /-- The recorder behind the last character of the output. -/
  recorder : Recorder
  document : Document
  /-- What the output says about where its map is. -/
  url : Text

/-- The comment that names a finished map. -/
def Finished.comment (x : Finished) : Text := referenceComment x.recorder.dest x.url

/-- All that a merge knows before it writes. -/
structure Plan where
  banner : Text
  footer : Text
  loaded : Merge.Loaded
  /-- The texts of the sources by path. -/
  contents : List (Text × Text)
  assembly : Graph.Assembly
  /-- Why units are left out. -/
  excluded : List Diagnostic
  map : Option Finished
  notice : Option Diagnostic := none

namespace Plan

/-- The comment that ends the output; nothing if there is no map. -/
def comment (p : Plan) : Text :=
  match p.map with
  | none => []
  | some x => x.comment

/-- Where the map of a plan is stored, if it is a file. -/
def mapPath? (p : Plan) : Option Text :=
  p.map.bind fun x => if x.recorder.delivery.isFile then some x.recorder.mapPath else none

/-- The text of the output. -/
def output (p : Plan) : Text := p.banner ++ p.assembly.output ++ p.footer ++ p.comment

/-- What the merge answers, given where its map was stored. -/
def outcome (dest : Text) (p : Plan) (mapPath : Option Text) : Outcome :=
  { dest := dest
    emitted := p.assembly.units.map (·.path)
    diagnostics := p.notice.toList ++ (p.loaded.missing ++ p.excluded)
    mapPath := mapPath }

end Plan

section Deliver

variable {m : Type → Type} [Monad m] [FileStore m] [Journal m]

/-- Stores a finished map where it is a file; the answer is its path. -/
def Finished.store (x : Finished) : ExceptT MergeFault m (Option Text) :=
  if x.recorder.delivery.isFile then do
    match ← ExceptT.lift (FileStore.write x.recorder.mapPath x.document.serialized) with
    | .error fault => throw (.store fault)
    | .ok _ =>
      (report .info speaker ("Source map " ++ x.recorder.mapPath ++ " created.") : m Unit)
      pure (some x.recorder.mapPath)
  else pure none

/-- Stores the map of a plan, if it has one. -/
def Plan.storeMap (p : Plan) : ExceptT MergeFault m (Option Text) :=
  match p.map with
  | none => pure none
  | some x => x.store

/-- Stores the output of a plan behind its map. -/
def Plan.storeOutput (dest : Text) (p : Plan) (mapPath : Option Text) :
    ExceptT MergeFault m Outcome := do
  match ← ExceptT.lift (FileStore.write dest p.output) with
  | .error fault => throw (.store fault)
  | .ok _ =>
    (report .info Merge.speaker
      (Merge.createdNote dest p.assembly.units.length p.loaded.contents.length) : m Unit)
    pure (p.outcome dest mapPath)

/-- Writes what a plan says. -/
def Plan.deliver (dest : Text) (p : Plan) : ExceptT MergeFault m Outcome :=
  p.storeMap >>= p.storeOutput dest

end Deliver

/-! ## planning -/

/-- The options to go on with, and what is to be said about them. -/
def Merge.checked (o : Options) (force : Bool) (label : Text) :
    Except MergeFault (Options × Option Diagnostic) :=
  if !Merge.conflicts o then .ok (o, none)
  else if !force then .error (.conflict label)
  else .ok ({ o with sourceMap := false }, some (Merge.disabledNotice label))

/-- The options of a merge that is not refused. -/
theorem Merge.checked_eq_ok {o o' : Options} {force : Bool} {label : Text}
    {notice : Option Diagnostic} (h : Merge.checked o force label = .ok (o', notice)) :
    (Merge.conflicts o = false ∧ o' = o ∧ notice = none) ∨
      (Merge.conflicts o = true ∧ o' = { o with sourceMap := false } ∧
        notice = some (Merge.disabledNotice label)) := by
  unfold Merge.checked at h
  cases hconf : Merge.conflicts o with
  | false =>
      simp only [hconf, Bool.not_false, if_true, Except.ok.injEq, Prod.mk.injEq] at h
      exact .inl ⟨rfl, h.1.symm, h.2.symm⟩
  | true =>
      cases force with
      | false => simp [hconf] at h
      | true =>
          simp only [hconf, Bool.not_true, Bool.false_eq_true, if_false, Except.ok.injEq,
            Prod.mk.injEq] at h
          exact .inr ⟨rfl, h.1.symm, h.2.symm⟩

namespace Snapshot

/-- The map of an output, recorded and put into words. -/
def finished (f : Snapshot) (o : Options) (banner footer : Text) (units : List SourceText)
    (recorder : Option Recorder) : Except MergeFault (Option Finished) :=
  match recorder with
  | none => .ok none
  | some r =>
    (Merge.recordOutput o banner footer units r).bind fun r =>
      match r.document? f.workingDirectory with
      | none => .error .emptyPath
      | some document =>
        match r.delivery.url? f.workingDirectory r.dest r.mapPath document.serialized with
        | none => .error .emptyPath
        | some url => .ok (some ⟨r, document, url⟩)

/-- The plan of a merge with options that do not conflict. -/
def planInto (f : Snapshot) (dest : Text) (sources : List Text) (o : Options) (r : Renderer) :
    Except MergeFault Plan :=
  ((r.render o.banner [] "banner").mapError MergeFault.render).bind fun banner =>
  ((r.render o.footer [] "footer").mapError MergeFault.render).bind fun footer =>
  (Merge.startRecorder o dest).bind fun recorder =>
  (f.loadAll o r { recorder := recorder } sources).bind fun loaded =>
  (loaded.contents.mapM fun e => (Merge.requireText e.2).map (e.1, ·)).bind fun contents =>
  (((Graph.build o.root Directive.defaultMarker contents).assemble o.separator).mapError
    MergeFault.cascade).bind fun assembly =>
  (f.finished o banner footer assembly.units loaded.recorder).map fun map =>
    { banner, footer, loaded, contents, assembly, map
      excluded := assembly.graph.diagnose (· ∈ assembly.graph.awaited.filter f.contains) }

/-- The plan of a merge. -/
def plan (f : Snapshot) (dest : Text) (sources : List Text) (o : Options) (force : Bool)
    (r : Renderer) : Except MergeFault Plan :=
  (Merge.checked o force dest).bind fun c =>
    (f.planInto dest sources c.1 r).map fun p => { p with notice := c.2 }

/-- What a plan says, part by part: `start` is the recorder that the merge begins
with, `gs` what the sources that are found bring. -/
structure Planned (f : Snapshot) (dest : Text) (sources : List Text) (o : Options) (r : Renderer)
    (start : Option Recorder) (gs : List (Text × Given)) (p : Plan) : Prop where
  banner : r.render o.banner [] "banner" = .ok p.banner
  footer : r.render o.footer [] "footer" = .ok p.footer
  begins : Merge.startRecorder o dest = .ok start
  givens : f.givens o r start.isSome sources = .ok gs
  loaded : p.loaded = Merge.Loaded.takeAll
    { recorder := start
      missing := (sources.filter (!f.contains ·)).map Diagnostic.missingSource } gs
  contents : p.loaded.contents = p.contents.map fun e => (e.1, some e.2)
  assembly :
    (Graph.build o.root Directive.defaultMarker p.contents).assemble o.separator = .ok p.assembly
  map : f.finished o p.banner p.footer p.assembly.units p.loaded.recorder = .ok p.map
  excluded : p.excluded =
    p.assembly.graph.diagnose (· ∈ p.assembly.graph.awaited.filter f.contains)

/-- Where every function gave a text, the rows are the same with their texts. -/
theorem rows_of_requireText {rows : Table (Option Text)} {contents : List (Text × Text)}
    (h : rows.mapM (fun e => (Merge.requireText e.2).map (e.1, ·)) = .ok contents) :
    rows = contents.map fun e => (e.1, some e.2) := by
  rw [mapM_eq_ok] at h
  induction h with
  | nil => rfl
  | @cons row _ rows _ hrow _ ih =>
      obtain ⟨t, ht, rfl⟩ := map_eq_ok.mp hrow
      obtain ⟨key, value⟩ := row
      cases value with
      | none => contradiction
      | some text => rw [List.map_cons, ← ih, ← Except.ok.inj ht]

theorem planned_of_planInto {f : Snapshot} {dest : Text} {sources : List Text} {o : Options}
    {r : Renderer} {p : Plan} (h : f.planInto dest sources o r = .ok p) :
    p.notice = none ∧ ∃ start gs, f.Planned dest sources o r start gs p := by
  obtain ⟨banner, hbanner, h⟩ := bind_eq_ok.mp h
  obtain ⟨footer, hfooter, h⟩ := bind_eq_ok.mp h
  obtain ⟨start, hstart, h⟩ := bind_eq_ok.mp h
  obtain ⟨loaded, hloaded, h⟩ := bind_eq_ok.mp h
  obtain ⟨contents, hcontents, h⟩ := bind_eq_ok.mp h
  obtain ⟨assembly, hassembly, h⟩ := bind_eq_ok.mp h
  obtain ⟨map, hmap, rfl⟩ := map_eq_ok.mp h
  rw [loadAll_eq, map_eq_ok] at hloaded
  obtain ⟨gs, hgs, rfl⟩ := hloaded
  exact ⟨rfl, start, gs, mapError_eq_ok.mp hbanner, mapError_eq_ok.mp hfooter, hstart, hgs, rfl,
    rows_of_requireText hcontents, mapError_eq_ok.mp hassembly, hmap, rfl⟩

theorem planned_of_plan {f : Snapshot} {dest : Text} {sources : List Text} {o : Options}
    {force : Bool} {r : Renderer} {p : Plan} (h : f.plan dest sources o force r = .ok p) :
    ∃ o' start gs, Merge.checked o force dest = .ok (o', p.notice) ∧
      f.Planned dest sources o' r start gs p := by
  obtain ⟨⟨o', notice⟩, hchecked, h⟩ := bind_eq_ok.mp h
  obtain ⟨p, hplan, rfl⟩ := map_eq_ok.mp h
  obtain ⟨-, start, gs, hp⟩ := planned_of_planInto hplan
  exact ⟨o', start, gs, hchecked, hp.banner, hp.footer, hp.begins, hp.givens, hp.loaded, hp.contents,
    hp.assembly, hp.map, hp.excluded⟩

end Snapshot

/-! ## the recorder of a merge -/

/-- The path at which a map is stored is never empty. -/
theorem Mapping.orBeside_ne_nil (dest : Text) (path : Option Text) : orBeside dest path ≠ [] := by
  unfold orBeside besidePath
  split <;> simp

/-- What a merge knows of its recorder from the start. -/
theorem Merge.startRecorder_eq_ok {o : Options} {dest : Text} {recorder : Option Recorder}
    (h : Merge.startRecorder o dest = .ok recorder) :
    (o.sourceMap = false ∧ recorder = none) ∨
      ∃ delivery path, o.sourceMap = true ∧ Delivery.ofName? o.mapStyle = some delivery ∧
        recorder = some (Recorder.start dest delivery path) := by
  unfold Merge.startRecorder at h
  cases hmap : o.sourceMap with
  | false => exact .inl ⟨rfl, by simpa [hmap, eq_comm] using h⟩
  | true =>
      refine .inr ?_
      cases hstyle : Delivery.ofName? o.mapStyle with
      | none => simp [hmap, hstyle] at h
      | some delivery =>
          cases hpath : o.mapName.path? dest with
          | error fault => simp [hmap, hstyle, hpath] at h
          | ok path =>
              refine ⟨delivery, path, rfl, rfl, ?_⟩
              simpa [hmap, hstyle, hpath, eq_comm] using h

/-- What a finished map is made of. -/
theorem Snapshot.finished_some_eq_ok {f : Snapshot} {o : Options} {banner footer : Text}
    {units : List SourceText} {r : Recorder} {map : Option Finished}
    (h : f.finished o banner footer units (some r) = .ok map) :
    ∃ x, map = some x ∧ Merge.recordOutput o banner footer units r = .ok x.recorder ∧
      x.recorder.document? f.workingDirectory = some x.document ∧
      x.recorder.delivery.url? f.workingDirectory x.recorder.dest x.recorder.mapPath
        x.document.serialized = some x.url := by
  obtain ⟨r', hrecord, h⟩ := bind_eq_ok.mp h
  cases hdoc : r'.document? f.workingDirectory with
  | none => simp [hdoc] at h
  | some document =>
      cases hurl : r'.delivery.url? f.workingDirectory r'.dest r'.mapPath document.serialized with
      | none => simp [hdoc, hurl] at h
      | some url =>
          simp only [hdoc, hurl, Except.ok.injEq] at h
          exact ⟨⟨r', document, url⟩, h.symm, hrecord, hdoc, hurl⟩

/-- Whether a plan has a map, and which one. -/
theorem Snapshot.Planned.map_cases {f : Snapshot} {dest : Text} {sources : List Text}
    {o : Options} {r : Renderer} {start : Option Recorder} {gs : List (Text × Snapshot.Given)}
    {p : Plan} (h : f.Planned dest sources o r start gs p) :
    (o.sourceMap = false ∧ start = none ∧ p.map = none) ∨
      ∃ delivery path x, o.sourceMap = true ∧ Delivery.ofName? o.mapStyle = some delivery ∧
        start = some (Recorder.start dest delivery path) ∧ p.map = some x ∧
        Recorder.SameMap (Recorder.start dest delivery path) x.recorder ∧
        Merge.recordOutput o p.banner p.footer p.assembly.units
          ((Recorder.start dest delivery path).rememberAll gs) = .ok x.recorder ∧
        x.recorder.document? f.workingDirectory = some x.document ∧
        x.recorder.delivery.url? f.workingDirectory x.recorder.dest x.recorder.mapPath
          x.document.serialized = some x.url := by
  have hmap := h.map
  rw [h.loaded, Merge.Loaded.recorder_takeAll] at hmap
  rcases Merge.startRecorder_eq_ok h.begins with ⟨hoff, rfl⟩ | ⟨delivery, path, hon, hstyle, rfl⟩
  · exact .inl ⟨hoff, rfl, (Except.ok.inj hmap).symm⟩
  · obtain ⟨x, hx, hrecord, hdoc, hurl⟩ := Snapshot.finished_some_eq_ok hmap
    obtain ⟨hdest, hdelivery, hpath⟩ := Recorder.rememberAll_fields
      (Recorder.start dest delivery path) gs
    have hsame : Recorder.SameMap (Recorder.start dest delivery path)
        ((Recorder.start dest delivery path).rememberAll gs) := ⟨hdest, hdelivery, hpath⟩
    exact .inr ⟨delivery, path, x, hon, hstyle, rfl, hx,
      hsame.trans (Recorder.sameMap_recordOutput hrecord), hrecord, hdoc, hurl⟩

/-- The recorder that has seen all sources still has a path for its map. -/
theorem mapPath_ne_nil_of_loadAll {f : Snapshot} {o : Options} {r : Renderer} {dest : Text}
    {sources : List Text} {recorder : Option Recorder} {loaded : Merge.Loaded}
    (hstart : Merge.startRecorder o dest = .ok recorder)
    (hload : f.loadAll o r { recorder := recorder } sources = .ok loaded) :
    ∀ r', loaded.recorder = some r' → r'.mapPath ≠ [] := by
  intro r' hr'
  rw [Snapshot.loadAll_eq, map_eq_ok] at hload
  obtain ⟨gs, -, rfl⟩ := hload
  rw [Merge.Loaded.recorder_takeAll] at hr'
  rcases Merge.startRecorder_eq_ok hstart with ⟨-, rfl⟩ | ⟨delivery, path, -, -, rfl⟩
  · simp at hr'
  · obtain rfl : _ = r' := Option.some.inj hr'
    rw [(Recorder.rememberAll_fields _ gs).2.2]
    exact orBeside_ne_nil dest path

/-! ## delivery -/

section Ask

variable {σ : Type} [FileStore (StateM σ)] [Journal (StateM σ)] {I : σ → Prop} {f : Snapshot}

/-- Storing the output, step by step. -/
theorem runAt_storeOutput (dest : Text) (p : Plan) (mapPath : Option Text) (s : σ) :
    runAt (p.storeOutput dest mapPath) s =
      match StateT.run (FileStore.write dest p.output : StateM σ (Except StoreFault Unit)) s with
      | (.error fault, s') => (.error (.store fault), s')
      | (.ok _, s') =>
        (.ok (p.outcome dest mapPath),
          (StateT.run (report .info Merge.speaker (Merge.createdNote dest p.assembly.units.length
            p.loaded.contents.length) : StateM σ Unit) s').2) := by
  rw [Plan.storeOutput, runAt_bind, runAt_lift]
  cases StateT.run (FileStore.write dest p.output : StateM σ (Except StoreFault Unit)) s with
  | mk result s' => cases result <;> rfl

/-- Storing a map, step by step. -/
theorem Finished.runAt_store (x : Finished) (s : σ) :
    runAt x.store s =
      if x.recorder.delivery.isFile then
        match StateT.run (FileStore.write x.recorder.mapPath x.document.serialized :
          StateM σ (Except StoreFault Unit)) s with
        | (.error fault, s') => (.error (.store fault), s')
        | (.ok _, s') =>
          (.ok (some x.recorder.mapPath),
            (StateT.run (report .info speaker ("Source map " ++ x.recorder.mapPath ++ " created.") :
              StateM σ Unit) s').2)
      else (.ok none, s) := by
  unfold Finished.store
  by_cases hfile : x.recorder.delivery.isFile = true
  · rw [if_pos hfile, if_pos hfile, runAt_bind, runAt_lift]
    cases StateT.run (FileStore.write x.recorder.mapPath x.document.serialized :
      StateM σ (Except StoreFault Unit)) s with
    | mk result s' => cases result <;> rfl
  · rw [if_neg hfile, if_neg hfile, runAt_pure]

/-- A text was stored at a path on the way from one state to another, and one
record was made of it. -/
def Stores (path text : Text) (s s' : σ) : Prop :=
  ∃ s₁ record, StateT.run (FileStore.write path text : StateM σ (Except StoreFault Unit)) s =
    (.ok (), s₁) ∧ s' = (StateT.run (Journal.record record : StateM σ Unit) s₁).2

/-- The state in which a merge stores its output: behind the map, if that is a
file. -/
def Plan.StoresMap (p : Plan) (s s' : σ) : Prop :=
  match p.map with
  | none => s' = s
  | some x =>
    if x.recorder.delivery.isFile then
      Stores x.recorder.mapPath x.document.serialized s s'
    else s' = s

/-- A map that is a file is stored under the path that the outcome names. -/
theorem Plan.StoresMap.file {p : Plan} {s s' : σ} {x : Finished} (h : p.StoresMap s s')
    (hx : p.map = some x) (hfile : x.recorder.delivery.isFile = true) :
    p.mapPath? = some x.recorder.mapPath ∧
      Stores x.recorder.mapPath x.document.serialized s s' := by
  simp only [Plan.StoresMap, hx, hfile, if_true] at h
  exact ⟨by simp [Plan.mapPath?, hx, hfile], h⟩

theorem Plan.storesMap_of_storeMap {p : Plan} {s s' : σ} {path : Option Text}
    (h : runAt p.storeMap s = (.ok path, s')) : path = p.mapPath? ∧ p.StoresMap s s' := by
  unfold Plan.storeMap at h
  unfold Plan.mapPath? Plan.StoresMap
  cases hx : p.map with
  | none =>
      simp only [hx, runAt_pure, Prod.mk.injEq, Except.ok.injEq] at h
      exact ⟨h.1.symm, h.2.symm⟩
  | some x =>
      simp only [hx, x.runAt_store] at h
      by_cases hfile : x.recorder.delivery.isFile = true
      · simp only [hfile, if_true] at h
        cases hwrite : StateT.run (FileStore.write x.recorder.mapPath x.document.serialized :
            StateM σ (Except StoreFault Unit)) s with
        | mk result s₁ =>
            cases result with
            | error fault => simp [hwrite] at h
            | ok _ =>
                simp only [hwrite, Prod.mk.injEq, Except.ok.injEq] at h
                refine ⟨by simp [hfile, h.1], ?_⟩
                simp only [hfile, if_true]
                exact ⟨s₁, _, hwrite, h.2.symm⟩
      · simp only [hfile, Bool.false_eq_true, if_false, Prod.mk.injEq, Except.ok.injEq] at h
        simp only [hfile, Bool.false_eq_true, if_false, Option.bind_some]
        exact ⟨h.1.symm, h.2.symm⟩

/-- **What a delivery that returns has stored**: the map, if it is a file, and
then the output. -/
theorem Plan.stores_of_deliver {dest : Text} {p : Plan} {s s' : σ} {out : Outcome}
    (h : runAt (p.deliver dest) s = (.ok out, s')) :
    out = p.outcome dest p.mapPath? ∧
      ∃ s₁, p.StoresMap s s₁ ∧ Stores dest p.output s₁ s' := by
  rw [Plan.deliver, runAt_bind] at h
  cases hmap : runAt p.storeMap s with
  | mk answer s₁ =>
      cases answer with
      | error fault => simp [hmap] at h
      | ok path =>
          obtain ⟨rfl, hstores⟩ := Plan.storesMap_of_storeMap hmap
          simp only [hmap, runAt_storeOutput] at h
          cases hwrite : StateT.run (FileStore.write dest p.output :
              StateM σ (Except StoreFault Unit)) s₁ with
          | mk result s₂ =>
              cases result with
              | error fault => simp [hwrite] at h
              | ok _ =>
                  simp only [hwrite, Prod.mk.injEq, Except.ok.injEq] at h
                  exact ⟨h.1.symm, s₁, hstores, s₂, _, hwrite, h.2.symm⟩

/-! ## a merge is its plan and its delivery -/

theorem Shows.answers_checked (h : Shows I f) (o : Options) (force : Bool) (label : Text) :
    Answers I (Merge.checkSourceMap o force label) (Merge.checked o force label) := by
  unfold Merge.checkSourceMap Merge.checked
  by_cases hfit : (!Merge.conflicts o) = true
  · rw [if_pos hfit, if_pos hfit]
    exact Answers.pure _
  rw [if_neg hfit, if_neg hfit]
  by_cases hforce : (!force) = true
  · rw [if_pos hforce, if_pos hforce]
    exact (h.gives_report _ _ _).bind_answers (Answers.throw _)
  · rw [if_neg hforce, if_neg hforce]
    exact (h.gives_report _ _ _).bind_answers (Answers.pure _)

theorem Shows.gives_buildGraph (h : Shows I f) (root marker : Text)
    (contents : List (Text × Text)) :
    Gives I (Merge.buildGraph root marker contents) (Graph.build root marker contents) :=
  (h.gives_reportAll _ _ _).bind (Gives.pure _)

theorem Shows.gives_assembleGraph (h : Shows I f) (separator : Text) (g : Graph) :
    Gives I (Merge.assembleGraph separator g) (g.assemble separator) := by
  unfold Merge.assembleGraph
  cases g.assemble separator with
  | error fault => exact Gives.pure _
  | ok a => exact (h.gives_report _ _ _).bind (Gives.pure _)

theorem Shows.gives_filterAuxM_contains (h : Shows I f) (paths found : List Text) :
    Gives I (List.filterAuxM FileStore.contains paths found)
      ((paths.filter f.contains).reverse ++ found) := by
  induction paths generalizing found with
  | nil => exact Gives.pure found
  | cons path rest ih =>
      refine (h.gives_contains path).bind ?_
      rw [List.filter_cons]
      cases f.contains path with
      | true => simpa using ih (path :: found)
      | false => simpa using ih found

theorem Shows.gives_filterM_contains (h : Shows I f) (paths : List Text) :
    Gives I (paths.filterM FileStore.contains) (paths.filter f.contains) := by
  refine (h.gives_filterAuxM_contains paths []).bind ?_
  simpa using Gives.pure (I := I) (paths.filter f.contains)

theorem Shows.gives_explainExcluded (h : Shows I f) (g : Graph) :
    Gives I (Merge.explainExcluded g) (g.diagnose (· ∈ g.awaited.filter f.contains)) :=
  (h.gives_filterM_contains g.awaited).bind ((h.gives_reportAll _ _ _).bind (Gives.pure _))

/-- The map of a plan is stored, and the comment that names it is known. -/
def storeNamed (map : Option Finished) : ExceptT MergeFault (StateM σ) (Text × Option Text) :=
  match map with
  | none => pure ([], none)
  | some x => x.store >>= fun path => pure (x.comment, path)

/-- A map has a url unless its path is empty. -/
theorem Mapping.Delivery.exists_url? (delivery : Delivery) (workingDirectory dest serialized : Text)
    {mapPath : Text} (h : mapPath ≠ []) :
    ∃ url, delivery.url? workingDirectory dest mapPath serialized = some url := by
  cases delivery <;> simp [Delivery.url?, Delivery.relativeUrl?, h]

theorem Shows.leads_finish (h : Shows I f) {r : Recorder} (hpath : r.mapPath ≠ []) :
    Leads I
      ((r.finish).adapt Merge.ofFinishFault >>= fun found =>
        pure (found.1, if found.2.written then some found.2.mapPath else none))
      (match r.document? f.workingDirectory with
        | none => .error .emptyPath
        | some document =>
          match r.delivery.url? f.workingDirectory r.dest r.mapPath document.serialized with
          | none => .error .emptyPath
          | some url => .ok (some ⟨r, document, url⟩))
      storeNamed := by
  intro s hs
  refine ⟨s, hs, ?_⟩
  have hwd := h.workingDirectory s hs
  rw [runAt_bind, runAt_adapt, Recorder.finish, runAt_bind]
  simp only [runAt_liftM, hwd]
  cases hdoc : r.document? f.workingDirectory with
  | none => rfl
  | some document =>
      obtain ⟨url, hurl⟩ := r.delivery.exists_url? f.workingDirectory r.dest document.serialized hpath
      simp only [hurl, storeNamed, Finished.store, Recorder.store]
      rw [runAt_bind, runAt_bind]
      by_cases hfile : r.delivery.isFile = true
      · simp only [hfile, if_true]
        rw [runAt_bind, runAt_bind]
        simp only [runAt_lift]
        cases hwrite : (StateT.run (FileStore.write r.mapPath document.serialized : StateM σ _) s).1 with
        | error fault => rfl
        | ok _ =>
            simp only [runAt_bind, runAt_liftM, runAt_pure, hurl]
            rfl
      · simp only [hfile, Bool.false_eq_true, if_false, runAt_pure, hurl]
        rfl

theorem Shows.leads_finishMap (h : Shows I f) (o : Options) (banner footer : Text)
    (units : List SourceText) {recorder : Option Recorder}
    (hpath : ∀ r, recorder = some r → r.mapPath ≠ []) :
    Leads I (Merge.finishMap o banner footer units recorder)
      (f.finished o banner footer units recorder) storeNamed := by
  cases recorder with
  | none => exact Leads.start none storeNamed
  | some r =>
      refine (Answers.ofExcept _).leads fun r' hrecord => h.leads_finish ?_
      rw [(Recorder.sameMap_recordOutput hrecord).mapPath]
      exact hpath r rfl

theorem Shows.leads_mergeInto (h : Shows I f) (dest : Text) (sources : List Text) (o : Options)
    (r : Renderer) :
    Leads I (Merge.mergeInto dest sources o r) (f.planInto dest sources o r)
      (Plan.deliver dest) := by
  refine ((r.answers_render _ _ _).adapt _).leads fun banner _ => ?_
  refine ((r.answers_render _ _ _).adapt _).leads fun footer _ => ?_
  refine (Answers.ofExcept _).leads fun recorder hstart => ?_
  refine (h.answers_loadAll o r sources { recorder := recorder }).leads fun loaded hload => ?_
  refine (h.gives_reportAll _ _ _).leads ?_
  refine (Answers.mapM (fun _ => Answers.ofExcept _) _).leads fun contents _ => ?_
  refine (h.gives_buildGraph _ _ _).leads ?_
  refine (h.gives_assembleGraph _ _).leads ?_
  refine (Answers.ofExcept _).leads fun assembly _ => ?_
  refine (h.gives_explainExcluded _).leads ?_
  have hpath := mapPath_ne_nil_of_loadAll hstart hload
  refine Leads.map _ ?_
  refine ((h.leads_finishMap o banner footer assembly.units hpath).bind _).congr fun map _ s => ?_
  cases map with
  | none => rfl
  | some x =>
      change runAt ((x.store >>= fun path => pure (x.comment, path)) >>= _) s =
        runAt (x.store >>= Plan.storeOutput dest _) s
      rw [bind_assoc, runAt_bind, runAt_bind]
      rfl

/-- **A merge is its plan followed by its delivery**: a fault of the plan ends it
before anything is written. -/
theorem Shows.leads_merge (h : Shows I f) (dest : Text) (sources : List Text) (o : Options)
    (force : Bool) (r : Renderer) :
    Leads I (Merge.merge dest sources o force r) (f.plan dest sources o force r)
      (Plan.deliver dest) := by
  refine (h.answers_checked o force dest).leads fun c _ => ?_
  obtain ⟨o, notice⟩ := c
  refine Leads.map _ ?_
  refine ((h.leads_mergeInto dest sources o r).bind _).congr fun p hplan s => ?_
  have hnotice := (Snapshot.planned_of_planInto hplan).1
  have hmap : Plan.storeMap (m := StateM σ) { p with notice := notice } = p.storeMap := rfl
  simp only [Plan.deliver, runAt_bind, hmap]
  cases runAt p.storeMap s with
  | mk answer s' =>
      cases answer with
      | error fault => rfl
      | ok path =>
          have hout : Plan.output { p with notice := notice } = p.output := rfl
          simp only [runAt_storeOutput, hout]
          cases StateT.run (FileStore.write dest p.output : StateM σ _) s' with
          | mk result s'' =>
              cases result with
              | error fault => rfl
              | ok _ => simp [Plan.outcome, Outcome.withNotice, hnotice]

/-- **A merge that returns** had a plan, and has stored what the plan says. -/
theorem Shows.stores_of_merge (h : Shows I f) {dest : Text} {sources : List Text} {o : Options}
    {force : Bool} {r : Renderer} {s s' : σ} {out : Outcome} (hs : I s)
    (hrun : runAt (Merge.merge dest sources o force r) s = (.ok out, s')) :
    ∃ p, f.plan dest sources o force r = .ok p ∧ out = p.outcome dest p.mapPath? ∧
      ∃ s₀ s₁, I s₀ ∧ p.StoresMap s₀ s₁ ∧ Stores dest p.output s₁ s' := by
  obtain ⟨s₀, hs₀, hlead⟩ := h.leads_merge dest sources o force r s hs
  rw [hrun] at hlead
  cases hplan : f.plan dest sources o force r with
  | error fault => simp [hplan] at hlead
  | ok p =>
      rw [hplan] at hlead
      obtain ⟨hout, s₁, hmap, houtput⟩ := Plan.stores_of_deliver hlead.symm
      exact ⟨p, rfl, hout, s₀, s₁, hs₀, hmap, houtput⟩

end Ask

end SourceMerge
