import SourceMerge.Proofs.Mapping.Comment
import SourceMerge.Proofs.Merge.Composition

/-!
# SourceMerge.Proofs.Merge.Unmapped

A map changes nothing but the comment behind the output.  A merge with a map asks each
source for the comment that names its own map, and records the output beside writing
it.  Where no source has such a comment, the sources bring the same texts as without a
map (`given_eq`), so both merges have one plan but for the map and its recorder
(`planInto_unmapped`).  What the two merges write and answer is read off that plan.
-/

namespace SourceMerge

open Mapping

/-! ## sources without maps -/

/-- No line of a text begins with a comment that names a map. -/
def Mapping.NamesNoMap (t : Text) : Prop :=
  ∀ line ∈ linesWithEnds t, ∀ name left, ¬ NamesMap name left line

/-- Every source that is found and can be prepared gives a text, and none of the texts
names a map. -/
def Snapshot.NamesNoMap (f : Snapshot) (o : Options) (r : Renderer) (sources : List Text) : Prop :=
  ∀ path ∈ sources, f.found path = true → ∀ text content, f.read path = .ok text →
    r.prepare o path text = .ok content → ∃ t, content = some t ∧ Mapping.NamesNoMap t

/-- The same options for a merge with a map or without one. -/
def Options.withMap (o : Options) (mapped : Bool) : Options := { o with sourceMap := mapped }

/-- Options that do not conflict get the map that they ask for. -/
theorem Merge.isMapped_withMap {o : Options} (h : Merge.conflicts (o.withMap true) = false) :
    Merge.isMapped (o.withMap true) = true := by
  rw [Merge.isMapped, h]
  rfl

/-- A plan without its map. -/
def Plan.unmapped (p : Plan) : Plan :=
  { p with map := none, loaded := { p.loaded with recorder := none } }

/-- What is loaded for a mapped merge is, but for the recorder, what is loaded without
one. -/
theorem Merge.Loaded.takeAll_of_none (l : Merge.Loaded) (gs : List (Text × Snapshot.Given)) :
    Merge.Loaded.takeAll { l with recorder := none } gs =
      { l.takeAll gs with recorder := none } := by
  induction gs generalizing l with
  | nil => rfl
  | cons e gs ih => exact ih (l.take e.1 e.2)

namespace Snapshot

variable {f : Snapshot} {dest : Text} {sources : List Text} {o : Options} {r : Renderer}

/-- A source without a map of its own brings the same with a map and without one. -/
theorem given_eq (h : f.NamesNoMap o r sources) {path : Text} (hpath : path ∈ sources)
    (hfound : f.found path = true) :
    f.given (o.withMap true) r true path = f.given (o.withMap false) r false path := by
  unfold given
  have hprepare : ∀ mapped text, r.prepare (o.withMap mapped) path text =
      r.prepare o path text := fun _ _ => rfl
  simp only [hprepare]
  cases hread : f.read path with
  | error fault => rfl
  | ok text =>
      cases hcontent : r.prepare o path text with
      | error fault => simp [hcontent, Except.mapError, bind, Except.bind]
      | ok content =>
          obtain ⟨t, rfl, hplain⟩ := h path hpath hfound text content hread hcontent
          have hinherit : f.inherit t (Path.canonical path) = .ok (t, none) := by
            rw [inherit, findReference?_eq_none.mpr hplain]
          simp [hcontent, hinherit, Merge.requireText, Except.mapError, bind, Except.bind, pure,
            Except.pure]

theorem givens_eq (h : f.NamesNoMap o r sources) :
    f.givens (o.withMap true) r true sources = f.givens (o.withMap false) r false sources := by
  unfold givens
  have hsame : ∀ path ∈ sources.filter f.found,
      f.given (o.withMap true) r true path = f.given (o.withMap false) r false path :=
    fun path hpath => given_eq h (List.mem_filter.mp hpath).1 (List.mem_filter.mp hpath).2
  generalize sources.filter f.found = found at hsame
  induction found with
  | nil => rfl
  | cons path found ih =>
      rw [List.forall_mem_cons] at hsame
      rw [List.mapM_cons, List.mapM_cons, hsame.1, ih hsame.2]

/-- What is given is a text without a map of its own. -/
theorem map_eq_none_of_mem {gs : List (Text × Given)}
    (hgs : f.givens (o.withMap false) r false sources = .ok gs) : ∀ e ∈ gs, e.2.map = none := by
  intro e he
  obtain ⟨text, -, hgiven⟩ := bind_eq_ok.mp (given_of_mem hgs he)
  obtain ⟨content, -, hgiven⟩ := bind_eq_ok.mp hgiven
  rw [← Except.ok.inj hgiven]

/-- The map of what was assembled can be finished. -/
theorem exists_finished_assembly {start : Option Recorder} {gs : List (Text × Given)}
    {contents : List (Text × Text)} {assembly : Graph.Assembly} (hdest : dest ≠ [])
    (hstart : Merge.startRecorder o dest = .ok start) (hown : ∀ e ∈ gs, e.2.map = none)
    (hassembly : ((Graph.build o.root Directive.defaultMarker contents).assemble
      o.separator).mapError MergeFault.cascade = .ok assembly) (banner footer : Text) :
    ∃ map, f.finished o banner footer assembly.units (start.map (·.rememberAll gs)) = .ok map := by
  obtain ⟨order, horder, hassembled⟩ := Graph.assemble_eq_assembled
    (Graph.linked_build o.root Directive.defaultMarker contents) o.separator
  have hunits := path_ne_nil_of_emission horder o.separator
  rw [hassembled] at hassembly
  rw [Except.ok.inj hassembly] at hunits
  exact exists_finished hdest hstart hown banner footer assembly.units hunits

/-- **The plan of a mapped merge** is, but for the map, the plan of a merge without
one. -/
theorem planInto_unmapped {path : Option Text} {delivery : Delivery} (hdest : dest ≠ [])
    (hstyle : Delivery.ofName? o.mapStyle = some delivery) (hname : o.mapName.path? dest = .ok path)
    (h : f.NamesNoMap o r sources) :
    (f.planInto dest sources (o.withMap true) r).map Plan.unmapped =
      f.planInto dest sources (o.withMap false) r := by
  have hon : Merge.startRecorder (o.withMap true) dest =
      .ok (some (Recorder.start dest delivery path)) := by
    simp [Merge.startRecorder, Options.withMap, hstyle, hname]
  have hoff : Merge.startRecorder (o.withMap false) dest = .ok none := rfl
  unfold planInto
  rw [hon, hoff]
  refine map_bind_congr fun banner _ => map_bind_congr fun footer _ => ?_
  change ((f.loadAll _ r { recorder := some (Recorder.start dest delivery path) } sources).bind
    _).map _ = (f.loadAll _ r { recorder := none } sources).bind _
  rw [loadAll_eq, loadAll_eq, Option.isSome_some, Option.isSome_none, givens_eq h]
  cases hgs : f.givens (o.withMap false) r false sources with
  | error fault => rfl
  | ok gs =>
      -- Both merges go on with what is loaded, one of them without its recorder.
      obtain ⟨loaded, hloaded⟩ : ∃ loaded, loaded = Merge.Loaded.takeAll
          { recorder := some (Recorder.start dest delivery path)
            missing := (sources.filter (!f.contains ·)).map Diagnostic.missingSource } gs := ⟨_, rfl⟩
      have hunmapped : Merge.Loaded.takeAll
          { missing := (sources.filter (!f.contains ·)).map Diagnostic.missingSource } gs =
            { loaded with recorder := none } := by
        rw [hloaded, ← Merge.Loaded.takeAll_of_none]
      change (Except.bind (Except.ok (Merge.Loaded.takeAll _ gs)) _).map _ =
        Except.bind (Except.ok (Merge.Loaded.takeAll _ gs)) _
      rw [List.nil_append, ← hloaded, hunmapped]
      refine map_bind_congr (e := loaded.contents.mapM _) fun contents _ =>
        map_bind_congr fun assembly hassembly => ?_
      obtain ⟨map, hmap⟩ := exists_finished_assembly (f := f) hdest hon (map_eq_none_of_mem hgs)
        hassembly banner footer
      have hrecorder : loaded.recorder =
          (some (Recorder.start dest delivery path)).map (·.rememberAll gs) := by
        rw [hloaded, Merge.Loaded.recorder_takeAll]
      rw [hrecorder, hmap]
      rfl

/-- The plans of a merge with a map and of the same without one. -/
theorem plan_unmapped (force : Bool) {path : Option Text} {delivery : Delivery} (hdest : dest ≠ [])
    (hstyle : Delivery.ofName? o.mapStyle = some delivery) (hname : o.mapName.path? dest = .ok path)
    (hfit : Merge.conflicts (o.withMap true) = false) (h : f.NamesNoMap o r sources) :
    (f.plan dest sources (o.withMap true) force r).map Plan.unmapped =
      f.plan dest sources (o.withMap false) force r := by
  have hchecked : ∀ mapped, Merge.conflicts (o.withMap mapped) = false →
      f.plan dest sources (o.withMap mapped) force r =
        (f.planInto dest sources (o.withMap mapped) r).map fun p => { p with notice := none } := by
    intro mapped hconf
    rw [plan, Merge.checked, hconf]
    rfl
  rw [hchecked true hfit, hchecked false rfl, ← planInto_unmapped hdest hstyle hname h]
  cases f.planInto dest sources (o.withMap true) r <;> rfl

end Snapshot

/-! ## merges with a map and without one -/

section Run

variable {σ : Type} [FileStore (StateM σ)] [Journal (StateM σ)] {I : σ → Prop} {f : Snapshot}

/-- Storing never fails. -/
def NeverRefuses (σ : Type) [FileStore (StateM σ)] : Prop :=
  ∀ path t s, (StateT.run (FileStore.write path t : StateM σ (Except StoreFault Unit)) s).1 = .ok ()

/-- Where storing never fails, a plan is always delivered. -/
theorem NeverRefuses.exists_deliver (h : NeverRefuses σ) (dest : Text) (p : Plan) (s : σ) :
    ∃ out s', runAt (p.deliver dest) s = (.ok out, s') := by
  have hwritten : ∀ path t s, ∃ s', StateT.run (FileStore.write path t :
      StateM σ (Except StoreFault Unit)) s = (.ok (), s') := fun path t s =>
    ⟨_, Prod.ext (h path t s) rfl⟩
  have hmap : ∃ path s', runAt p.storeMap s = (.ok path, s') := by
    unfold Plan.storeMap
    cases p.map with
    | none => exact ⟨none, s, rfl⟩
    | some x =>
        simp only [x.runAt_store]
        split
        · obtain ⟨s', hrun⟩ := hwritten x.recorder.mapPath x.document.serialized s
          simp only [hrun]
          exact ⟨_, _, rfl⟩
        · exact ⟨_, _, rfl⟩
  obtain ⟨path, s₁, hstored⟩ := hmap
  obtain ⟨s₂, hrun⟩ := hwritten dest p.output s₁
  rw [Plan.deliver, runAt_bind, hstored]
  simp only [runAt_storeOutput, hrun]
  exact ⟨_, _, rfl⟩

/-- Where storing never fails, a merge returns if it has a plan. -/
theorem Shows.returns_iff_plan (h : Shows I f) (hnever : NeverRefuses σ) {s : σ} (hs : I s)
    (dest : Text) (sources : List Text) (o : Options) (force : Bool) (r : Renderer) :
    (∃ out s', runAt (Merge.merge dest sources o force r) s = (.ok out, s')) ↔
      ∃ p, f.plan dest sources o force r = .ok p := by
  constructor
  · rintro ⟨out, s', hrun⟩
    obtain ⟨p, hplan, -⟩ := h.stores_of_merge hs hrun
    exact ⟨p, hplan⟩
  · rintro ⟨p, hplan⟩
    obtain ⟨s₀, -, hlead⟩ := h.leads_merge dest sources o force r s hs
    rw [hplan] at hlead
    obtain ⟨out, s', hdeliver⟩ := hnever.exists_deliver dest p s₀
    exact ⟨out, s', hlead.trans hdeliver⟩

/-- A mapped merge that has a plan has a name for its map. -/
theorem Snapshot.exists_mapName_of_plan {dest : Text} {sources : List Text} {o : Options}
    {force : Bool} {r : Renderer} {p : Plan} (hfit : Merge.conflicts (o.withMap true) = false)
    {delivery : Delivery} (hstyle : Delivery.ofName? o.mapStyle = some delivery)
    (hplan : f.plan dest sources (o.withMap true) force r = .ok p) :
    ∃ path, o.mapName.path? dest = .ok path := by
  obtain ⟨o', start, gs, hchecked, hp⟩ := Snapshot.planned_of_plan hplan
  obtain ⟨rfl, -⟩ := Merge.checked_fields hchecked
  obtain ⟨path, -, hname, -⟩ := hp.exists_mapped (Merge.isMapped_withMap hfit) hstyle
  exact ⟨path, hname⟩

/-- **A map changes nothing but the comment behind the output.**  Take options that do
not conflict and name a known style, and sources of which none names a map of its own.
If the merge returns with a map and without one, both emit the same paths with the same
diagnostics, and the output with the map is the output without it and the comment that
names the map which that merge has planned, and stored if it is a file.  Where storing
never fails, the one returns exactly if the other one does, unless the function that is
to name the map fails. -/
theorem merge_map_adds_comment (h : Shows I f) {s : σ} (hs : I s) {dest : Text}
    {sources : List Text} {o : Options} (force : Bool) {r : Renderer} {delivery : Delivery}
    (hdest : dest ≠ []) (hstyle : Delivery.ofName? o.mapStyle = some delivery)
    (hfit : Merge.conflicts (o.withMap true) = false) (hplain : f.NamesNoMap o r sources) :
    (∀ out out' s₁ s₂, runAt (Merge.merge dest sources (o.withMap true) force r) s = (.ok out, s₁) →
      runAt (Merge.merge dest sources (o.withMap false) force r) s = (.ok out', s₂) →
      out.emitted = out'.emitted ∧ out.diagnostics = out'.diagnostics ∧
        ∃ (t : Text) (p : Plan) (x : Finished) (u₀ u₁ u₂ : σ), I u₀ ∧ I u₂ ∧
          f.plan dest sources (o.withMap true) force r = .ok p ∧ p.map = some x ∧
          x.IsMapOf f.workingDirectory dest o ∧ out.mapPath = p.mapPath? ∧ p.StoresMap u₀ u₁ ∧
          Stores dest (t ++ referenceComment dest x.url) u₁ s₁ ∧ Stores dest t u₂ s₂) ∧
    (NeverRefuses σ →
      ((∃ out s₁, runAt (Merge.merge dest sources (o.withMap true) force r) s = (.ok out, s₁)) ↔
        (∃ path, o.mapName.path? dest = .ok path) ∧
          ∃ out s₂, runAt (Merge.merge dest sources (o.withMap false) force r) s = (.ok out, s₂))) := by
  constructor
  · intro out out' s₁ s₂ hon hoff
    obtain ⟨p, hplan, rfl, u₀, u₁, hu₀, hmap, hstored⟩ := h.stores_of_merge hs hon
    obtain ⟨p', hplan', rfl, u₂, u₃, hu₂, hnone, hstored'⟩ := h.stores_of_merge hs hoff
    obtain ⟨path, hname⟩ := Snapshot.exists_mapName_of_plan hfit hstyle hplan
    have hsame := Snapshot.plan_unmapped force hdest hstyle hname hfit hplain
    rw [hplan, hplan'] at hsame
    obtain rfl : p.unmapped = p' := Except.ok.inj hsame
    obtain rfl : u₃ = u₂ := hnone
    obtain ⟨o', start, gs, hchecked, hp⟩ := Snapshot.planned_of_plan hplan
    obtain ⟨rfl, -⟩ := Merge.checked_fields hchecked
    obtain ⟨x, hx, hof, hcomment⟩ := hp.exists_isMapOf (Merge.isMapped_withMap hfit)
    refine ⟨rfl, rfl, p.unmapped.output, p, x, u₀, u₁, u₃, hu₀, hu₂, hplan, hx,
      ⟨hof.outputPath, hof.delivery, hof.mapPath, hof.document, hof.url⟩, rfl, hmap, ?_, hstored'⟩
    have houtput : p.unmapped.output ++ p.comment = p.output := by
      simp [Plan.output, Plan.unmapped, Plan.comment]
    rw [← hcomment, houtput]
    exact hstored
  · intro hnever
    rw [h.returns_iff_plan hnever hs, h.returns_iff_plan hnever hs]
    constructor
    · rintro ⟨p, hplan⟩
      obtain ⟨path, hname⟩ := Snapshot.exists_mapName_of_plan hfit hstyle hplan
      refine ⟨⟨path, hname⟩, p.unmapped, ?_⟩
      rw [← Snapshot.plan_unmapped force hdest hstyle hname hfit hplain, hplan]
      rfl
    · rintro ⟨⟨path, hname⟩, p', hplan'⟩
      rw [← Snapshot.plan_unmapped force hdest hstyle hname hfit hplain, map_eq_ok] at hplan'
      obtain ⟨p, hplan, -⟩ := hplan'
      exact ⟨p, hplan⟩

end Run

/-- In memory storing never fails. -/
theorem neverRefuses_memory : NeverRefuses MemoryWorld := fun _ _ _ => rfl

/-- Two files without maps, merged with a map and without one: both merges return and
emit the same, and what they store differs by the comment. -/
theorem merge_map_adds_comment_twoFiles :
    ∃ (out out' : Outcome) (s₁ s₂ : MemoryWorld) (t : Text) (x : Finished) (u₀ u₁ u₂ : MemoryWorld),
      runAt (Merge.merge "out.js" someSources (Options.withMap {} true) false Renderer.plain)
        twoFiles = (.ok out, s₁) ∧
      runAt (Merge.merge "out.js" someSources (Options.withMap {} false) false Renderer.plain)
        twoFiles = (.ok out', s₂) ∧
      out.emitted = out'.emitted ∧ out.diagnostics = out'.diagnostics ∧
      x.IsMapOf "/" "out.js" {} ∧ out.mapPath = some x.recorder.mapPath ∧
      Stores x.recorder.mapPath x.document.serialized u₀ u₁ ∧
      Stores "out.js" (t ++ referenceComment "out.js" x.url) u₁ s₁ ∧ Stores "out.js" t u₂ s₂ := by
  have hplain : twoFiles.memory.snapshot.NamesNoMap {} .plain someSources := by
    intro path hpath hfound text content hread hprepare
    obtain rfl := Except.ok.inj hprepare
    refine ⟨text, rfl, findReference?_eq_none.mp ?_⟩
    rcases (by simpa [someSources] using hpath : path = "b.js" ∨ path = "none.js" ∨ path = "lib" ∨
      path = "a.js") with rfl | rfl | rfl | rfl
    · obtain rfl := Except.ok.inj hread
      rfl
    · exact absurd hfound (by decide)
    · exact absurd hfound (by decide)
    · obtain rfl := Except.ok.inj hread
      rfl
  have hdest : "out.js".toList ≠ [] := by simp
  have hstyle : Delivery.ofName? ({} : Options).mapStyle = some .embed := rfl
  have hfit : Merge.conflicts (Options.withMap {} true) = false := rfl
  obtain ⟨hsame, hreturns⟩ :=
    merge_map_adds_comment twoFiles.memory.shows rfl false hdest hstyle hfit hplain
  obtain ⟨out, s₁, hon⟩ := exists_merge_twoFiles "embed" rfl
  obtain ⟨-, out', s₂, hoff⟩ := (hreturns neverRefuses_memory).mp ⟨out, s₁, hon⟩
  obtain ⟨hemitted, hdiagnostics, t, p, x, u₀, u₁, u₂, -, -, -, hx, hof, hpath, hmap, hmapped,
    hunmapped⟩ := hsame out out' s₁ s₂ hon hoff
  have hfile : x.recorder.delivery.isFile = true := by
    rw [← Option.some.inj (hstyle.symm.trans hof.delivery)]
    rfl
  obtain ⟨hmapPath, hstored⟩ := hmap.file hx hfile
  exact ⟨out, out', s₁, s₂, t, x, u₀, u₁, u₂, hon, hoff, hemitted, hdiagnostics, hof,
    hpath.trans hmapPath, hstored, hmapped, hunmapped⟩

end SourceMerge
