import SourceMerge.Proofs.Merge.Conflict
import SourceMerge.Proofs.Run.Parallel
import SourceMerge.Proofs.Run.Phases

/-!
# SourceMerge.Proofs.Run.Conflict

Runs of projects with conflicting targets.  Without force a run first looks at the
options of all chosen targets, and the first that conflict end it with one warning and
nothing else.  With force, a target whose options conflict is merged like one that does
not ask for a map, and each of its outcomes says so.
-/

namespace SourceMerge

open Mapping

/-! ## targets of a loaded project -/

namespace Project

theorem plainLink_of_targetOf {modules : List HookModule} {root : Text}
    {defaults : Options.Values} {key settings : Data} {t : Target}
    (h : targetOf modules root defaults key settings = .ok t) : t.options.PlainLink := by
  obtain ⟨name, -, hsettings⟩ := bind_eq_ok.mp h
  split at hsettings
  · obtain ⟨own, -, h⟩ := bind_eq_ok.mp hsettings
    obtain ⟨options, hread, h⟩ := bind_eq_ok.mp h
    obtain ⟨destinations, -, h⟩ := bind_eq_ok.mp h
    rw [← Except.ok.inj h]
    exact Options.plainLink_of_read (mapError_eq_ok.mp hread)
  · cases hsettings

theorem plainLink_of_ofData {modules : List HookModule} {root : Text} {document : Data}
    {p : Project} (h : ofData modules root document = .ok p) :
    ∀ t ∈ p.targets, t.options.PlainLink := by
  unfold ofData at h
  split at h
  · obtain ⟨defaults, -, h⟩ := bind_eq_ok.mp h
    split at h
    · rw [← Except.ok.inj h]
      exact List.forall_mem_nil _
    · obtain ⟨targets, htargets, h⟩ := bind_eq_ok.mp h
      rw [← Except.ok.inj h]
      intro t ht
      obtain ⟨e, -, he⟩ := exists_of_mapM_eq_ok htargets ht
      exact plainLink_of_targetOf he
    · cases h
  · cases h

/-- The targets of a project that was loaded name a link plainly. -/
theorem plainLink_of_load {σ : Type} [FileStore (StateM σ)] [FolderView (StateM σ)]
    {reader : Reader} {modules : List HookModule} {path : Text} {p : Project} {s s' : σ}
    (hrun : runAt (load reader modules path) s = (.ok p, s')) :
    ∀ t ∈ p.targets, t.options.PlainLink := by
  obtain ⟨file, s₁, -, hrun⟩ := runAt_bind_eq_ok.mp hrun
  obtain ⟨found, s₂, -, hrun⟩ := runAt_bind_eq_ok.mp hrun
  split at hrun
  · obtain ⟨answer, s₃, -, hrun⟩ := runAt_bind_eq_ok.mp hrun
    obtain ⟨t, s₄, -, hrun⟩ := runAt_bind_eq_ok.mp hrun
    have hread := mapError_eq_ok.mp (Prod.mk.inj hrun).1
    obtain ⟨document, -, hread⟩ := bind_eq_ok.mp hread
    exact plainLink_of_ofData hread
  · rw [← Except.ok.inj (Prod.mk.inj hrun).1]
    exact List.forall_mem_nil _

end Project

/-! ## refused runs -/

namespace Run

variable {σ : Type} [FileStore (StateM σ)] [FolderView (StateM σ)] [Journal (StateM σ)]

theorem noConflict_runTarget {t : Target} {force : Bool}
    (h : Merge.conflicts t.options = true → force = true) (r : Renderer) :
    NoConflict (runTarget t force r : ExceptT MergeFault (StateM σ) _) := by
  have hcheck : NoConflict (Merge.checkSourceMap t.options force t.name :
      ExceptT MergeFault (StateM σ) _) := by
    cases hconf : Merge.conflicts t.options with
    | false =>
        rw [Merge.checkSourceMap_of_fit hconf]
        exact NoConflict.pure _
    | true =>
        rw [h hconf, Merge.checkSourceMap_forced hconf]
        exact NoConflict.after _ fun _ => NoConflict.pure _
  refine NoConflict.after _ fun _ => hcheck.bind fun checked => ?_
  refine (NoConflict.mapM fun d _ => ?_).bind fun _ => NoConflict.pure _
  exact NoConflict.after _ fun sources => Merge.noConflict_mergeInto r d.dest sources checked.1

theorem noConflict_runAll {targets : List Target} {force : Bool}
    (h : refused? targets force = none) (r : Renderer) :
    NoConflict (runAll targets force r : ExceptT MergeFault (StateM σ) _) := by
  refine (NoConflict.mapM fun t ht => noConflict_runTarget (fun hconf => ?_) r).bind fun _ =>
    NoConflict.pure _
  by_contra hforce
  rw [refused?, if_neg hforce, List.find?_eq_none] at h
  exact h t ht hconf

/-- A run ends with a conflict if a target that was chosen is refused. -/
theorem run_conflict_iff {p : Project} {names : List Text} {force : Bool} {r : Renderer} {s : σ}
    {label : Text} :
    (runAt (run p names force r) s).1 = .error (.merge (.conflict label)) ↔
      ∃ targets t, p.select names = .ok targets ∧ refused? targets force = some t ∧
        t.name = label := by
  cases hselect : p.select names with
  | error fault => simp [runAt_run_of_error hselect]
  | ok targets =>
      rw [runAt_run hselect]
      cases hrefused : refused? targets force with
      | some t => simp [hrefused]
      | none =>
          have hnever := noConflict_runAll hrefused (r.overlay p.data) s label
          simp only [Except.ok.injEq, exists_and_left, exists_eq_left', hrefused, reduceCtorEq,
            false_and, exists_false, iff_false]
          rw [runAt_adapt]
          cases hrun : (runAt (runAll targets force (r.overlay p.data)) s).1 with
          | ok outs => exact fun h => by cases h
          | error fault =>
              rw [hrun] at hnever
              exact fun h => hnever (by rw [RunFault.merge.inj (Except.error.inj h)])

end Run

/-! ## forced runs -/

/-- Options without the map that they may not have. -/
def Options.settled (o : Options) : Options :=
  if Merge.conflicts o then { o with sourceMap := false } else o

/-- A target with settled options. -/
def Target.settled (t : Target) : Target := { t with options := t.options.settled }

/-- A project with settled targets. -/
def Project.settled (p : Project) : Project := { p with targets := p.targets.map Target.settled }

/-- The notice on the outcomes of a target that loses its map by force. -/
def Target.notice? (t : Target) : Option Diagnostic :=
  if Merge.conflicts t.options then some (Merge.disabledNotice t.name) else none

/-- The outputs of targets, each with its target. -/
def Run.outputs (targets : List Target) : List (Target × Destination) :=
  targets.flatMap fun t => t.destinations.map (t, ·)

/-- The outcome of an output by force, and its outcome where the options are settled:
they are the same but for the notice in front, and there is no map where the options
conflict. -/
structure Outcome.Forced (e : Target × Destination) (forced settled : Outcome) : Prop where
  eq : forced = settled.withNotice e.1.notice?
  isOf : settled.IsOf e.2.dest
  mapPath : Merge.conflicts e.1.options = true → settled.mapPath = none

theorem Options.conflicts_settled (o : Options) : Merge.conflicts o.settled = false := by
  unfold Options.settled
  split
  · rfl
  · next hfit => simpa using hfit

theorem Project.find?_settled (p : Project) (name : Text) :
    p.settled.find? name = (p.find? name).map Target.settled := by
  rw [find?, settled, ← List.map_reverse, List.find?_map]
  rfl

/-- Settling the options changes nothing about which targets are chosen. -/
theorem Project.select_settled (p : Project) (names : List Text) :
    p.settled.select names = (p.select names).map (List.map Target.settled) := by
  have hfind : p.settled.find? = fun name => (p.find? name).map Target.settled :=
    funext p.find?_settled
  unfold select
  simp only [hfind, Option.isNone_map]
  split
  · rfl
  · cases names.filter fun name => (p.find? name).isNone with
    | nil => rw [Except.map, List.map_filterMap]
    | cons name rest => rfl

section Forced

variable {σ : Type} [FileStore (StateM σ)] [FolderView (StateM σ)] [Journal (StateM σ)]
  {R : σ → σ → Prop}

namespace Indistinct

variable (h : Indistinct R)
include h

theorem parallel_output (o : Options) (r : Renderer) (d : Destination) :
    Parallel R (Run.mergeDestination o r d : ExceptT MergeFault (StateM σ) _)
      (Run.mergeDestination o r d) fun out out' =>
        out = out' ∧ out'.IsOf d.dest ∧ (o.sourceMap = false → out'.mapPath = none) := by
  refine (h.parallel_mergeDestination o r d).of_run fun out out' s s' hsame hrun => ?_
  obtain ⟨sources, s₁, -, hmerge⟩ := runAt_bind_eq_ok.mp hrun
  exact ⟨hsame.1, hsame.2, fun hoff => mapPath_of_mergeInto hoff hmerge⟩

/-- By force the options of a target are settled, and a notice is left of it. -/
theorem parallel_checkSourceMap (t : Target) (force : Bool) :
    Parallel R (Merge.checkSourceMap t.options true t.name : ExceptT MergeFault (StateM σ) _)
      (Merge.checkSourceMap t.settled.options force t.settled.name) fun c c' =>
        c = (t.options.settled, t.notice?) ∧ c' = (t.options.settled, none) := by
  rw [Merge.checkSourceMap_of_fit (o := t.settled.options) t.options.conflicts_settled]
  unfold Target.settled Options.settled Target.notice?
  cases hconf : Merge.conflicts t.options with
  | false =>
      rw [Merge.checkSourceMap_of_fit hconf]
      exact Parallel.pure ⟨rfl, rfl⟩
  | true =>
      rw [Merge.checkSourceMap_forced hconf]
      exact h.parallel_report (Parallel.pure ⟨rfl, rfl⟩) _ _ _

theorem parallel_runTarget (t : Target) (force : Bool) (r : Renderer) :
    Parallel R (Run.runTarget t true r : ExceptT MergeFault (StateM σ) _)
      (Run.runTarget t.settled force r)
      (Rows Outcome.Forced (t.destinations.map (t, ·))) := by
  refine (h.alike_report _ _ _).bind_parallel fun _ => ?_
  refine (h.parallel_checkSourceMap t force).bind fun c c' hchecked => ?_
  obtain ⟨rfl, rfl⟩ := hchecked
  -- Both go on with the settled options, and only the notice tells them apart.
  refine (Parallel.mapM (fun d => h.parallel_output t.options.settled r d) t.destinations).bind
    fun outs outs' hrows => Parallel.pure (Rows.map_left (hrows.map ?_))
  rintro d out out' ⟨rfl, hof, hmapPath⟩
  refine ⟨rfl, hof, fun hconf => hmapPath ?_⟩
  rw [Options.settled, if_pos hconf]

theorem parallel_runAll (targets : List Target) (force : Bool) (r : Renderer) :
    Parallel R (Run.runAll targets true r : ExceptT MergeFault (StateM σ) _)
      (Run.runAll (targets.map Target.settled) force r)
      (Rows Outcome.Forced (Run.outputs targets)) := by
  unfold Run.runAll
  rw [List.mapM_map]
  refine (Parallel.mapM (fun t => h.parallel_runTarget t force r) targets).bind
    fun outs outs' hrows => Parallel.pure hrows.flatten

/-- A forced run is the run of the settled project, with notices. -/
theorem parallel_run (p : Project) (names : List Text) (force : Bool) (r : Renderer) :
    Parallel R (Run.run p names true r : ExceptT RunFault (StateM σ) _)
      (Run.run p.settled names force r) (Rows Outcome.Forced (Run.outputs (p.chosen names))) := by
  intro s t hst
  have hsettled := p.select_settled names
  cases hselect : p.select names with
  | error fault =>
      rw [hselect] at hsettled
      rw [Run.runAt_run_of_error hselect, Run.runAt_run_of_error hsettled]
      exact ⟨.fault _, hst⟩
  | ok targets =>
      rw [hselect] at hsettled
      have hforced : Run.refused? targets true = none := rfl
      have hfit : Run.refused? (targets.map Target.settled) force = none := by
        unfold Run.refused?
        split
        · rfl
        · rw [List.find?_eq_none, List.forall_mem_map]
          intro t _
          rw [Target.settled, Options.conflicts_settled]
          simp
      rw [Run.runAt_run hselect, Run.runAt_run hsettled, hforced, hfit]
      rw [← (Project.select_eq_ok.mp hselect).2]
      exact (h.parallel_runAll targets force _).adapt RunFault.merge s t hst

end Indistinct

/-- **Conflicts end a run before it begins**, whichever targets come first.  Without
force a run ends with a conflict exactly if all names are known and one of the chosen
targets asks for a linked map and changes its sources; a warning is then all that comes
of the run.  With force there is no conflict.  A target whose options conflict is then
merged like the same target without a map: the files are the same in the end, and so
are the outcomes, but for the one notice in front.  All other targets are merged as they
are. -/
theorem run_conflicts (h : Indistinct R) (p : Project) (names : List Text) (r : Renderer) :
    (∀ reader modules path (u u' : σ), runAt (Project.load reader modules path) u = (.ok p, u') →
      ∀ t ∈ p.targets, t.options.PlainLink) ∧
    (∀ s : σ, (∃ label, (runAt (Run.run p names false r) s).1 = .error (.merge (.conflict label))) ↔
      (∀ name ∈ names, ∃ t ∈ p.targets, t.name = name) ∧
        ∃ t ∈ p.chosen names, t.options.sourceMap = true ∧ t.options.mapStyle = "link" ∧
          t.options.mutatesContent = true) ∧
    (∀ (s s' : σ) label,
      runAt (Run.run p names false r) s = (.error (.merge (.conflict label)), s') →
        s' = (StateT.run (report .warning Merge.speaker (Merge.conflictMessage label) :
          StateM σ Unit) s).2 ∧ ∀ t, R s t → R s' t) ∧
    (∀ (s : σ) label, (runAt (Run.run p names true r) s).1 ≠ .error (.merge (.conflict label))) ∧
    ∀ force, Parallel R (Run.run p names true r : ExceptT RunFault (StateM σ) _)
      (Run.run p.settled names force r) (Rows Outcome.Forced (Run.outputs (p.chosen names))) := by
  refine ⟨fun _ _ _ _ _ hrun => Project.plainLink_of_load hrun, fun s => ?_, fun s s' label hrun => ?_,
    fun s label hconf => ?_, fun force => h.parallel_run p names force r⟩
  · simp only [Run.run_conflict_iff, ← Merge.conflicts_iff]
    constructor
    · rintro ⟨label, targets, t, hselect, hrefused, -⟩
      obtain ⟨hknown, rfl⟩ := Project.select_eq_ok.mp hselect
      exact ⟨hknown, Run.exists_refused_iff.mp ⟨t, hrefused⟩⟩
    · rintro ⟨hknown, hconf⟩
      obtain ⟨t, hrefused⟩ := Run.exists_refused_iff.mpr hconf
      exact ⟨t.name, _, t, Project.select_eq_ok.mpr ⟨hknown, rfl⟩, hrefused, rfl⟩
  · obtain ⟨targets, t, hselect, hrefused, rfl⟩ := Run.run_conflict_iff.mp (congrArg Prod.fst hrun)
    rw [Run.runAt_run hselect, hrefused] at hrun
    obtain ⟨-, rfl⟩ := Prod.mk.inj hrun
    refine ⟨rfl, fun u hsu => ?_⟩
    obtain ⟨I, f, hI, hs, hu, hback⟩ := h.shows s u hsu
    exact hback _ u (hI.record s hs _) hu
  · obtain ⟨targets, t, -, hrefused, -⟩ := Run.run_conflict_iff.mp hconf
    cases hrefused

end Forced

/-- A target with a map that fits, and behind it one with a map that does not. -/
def goodAndBad : Project :=
  { root := "/"
    targets :=
      [{ name := "good"
         destinations := [{ dest := "/good.js", patterns := ["x.js"], base := "/" }]
         options := { sourceMap := true } },
        { name := "bad"
          destinations := [{ dest := "/bad.js", patterns := ["x.js"], base := "/" }]
          options := linkedAs "link" }] }

theorem run_conflicts_goodAndBad :
    (∃ label s', runAt (Run.run goodAndBad [] false Renderer.plain) ({} : Session) =
        (.error (.merge (.conflict label)), s') ∧ s'.disk = {}) ∧
      ∃ outs outs' s s',
        runAt (Run.run goodAndBad [] true Renderer.plain) ({} : Session) = (.ok outs, s) ∧
        runAt (Run.run goodAndBad.settled [] false Renderer.plain) ({} : Session) =
          (.ok outs', s') ∧
        Rows Outcome.Forced (Run.outputs goodAndBad.targets) outs outs' ∧ s.disk = s'.disk := by
  obtain ⟨-, hrefused, hwarned, -, hforced⟩ := run_conflicts Disk.indistinct goodAndBad [] {}
  have hself : Session.SameDisk {} {} := ⟨rfl, by simp, by simp⟩
  constructor
  · obtain ⟨label, hanswer⟩ := (hrefused {}).mpr ⟨by simp, _, .tail _ (.head _), rfl, rfl, rfl⟩
    have hrun : runAt (Run.run goodAndBad [] false Renderer.plain) ({} : Session) =
      (.error (.merge (.conflict label)), _) := Prod.ext hanswer rfl
    exact ⟨label, _, hrun, ((hwarned {} _ label hrun).2 {} hself).1⟩
  · have hreturns : (runAt (Run.run goodAndBad.settled [] false Renderer.plain)
        ({} : Session)).1.toOption.isSome = true := by decide +kernel
    obtain ⟨hanswer, hdisk⟩ := hforced false {} {} hself
    obtain ⟨outs, outs', hrun, hrun', hrows⟩ := hanswer.exists_values hreturns
    exact ⟨outs, outs', _, _, Prod.ext hrun rfl, Prod.ext hrun' rfl, hrows, hdisk.1⟩

end SourceMerge
