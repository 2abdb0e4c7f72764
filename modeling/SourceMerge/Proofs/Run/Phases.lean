import SourceMerge.Proofs.Merge.Refusal
import SourceMerge.Run

/-!
# SourceMerge.Proofs.Run.Phases

The phases of a run: targets are chosen, their options are looked at, and their outputs
are merged one after the other.  `runAt_run` puts them together, so that what is said of
a run is said of the target that is refused, or of the merges of all targets.
-/

namespace SourceMerge

/-! ## choosing targets -/

namespace Project

/-- The targets of the names that are known, or all targets where no name is given. -/
def chosen (p : Project) (names : List Text) : List Target :=
  if names = [] then p.targets else names.filterMap p.find?

theorem isNone_find?_iff {p : Project} {name : Text} :
    (p.find? name).isNone = true ↔ ∀ t ∈ p.targets, t.name ≠ name := by
  simp [find?]

/-- Targets are chosen if all names are known. -/
theorem select_eq_ok {p : Project} {names : List Text} {targets : List Target} :
    p.select names = .ok targets ↔
      (∀ name ∈ names, ∃ t ∈ p.targets, t.name = name) ∧ targets = p.chosen names := by
  unfold select chosen
  by_cases hnames : names = []
  · simp [hnames, eq_comm]
  rw [if_neg hnames, if_neg hnames]
  have hknown : (names.filter fun name => (p.find? name).isNone) = [] ↔
      ∀ name ∈ names, ∃ t ∈ p.targets, t.name = name := by
    rw [List.filter_eq_nil_iff]
    refine forall₂_congr fun name _ => ?_
    rw [isNone_find?_iff]
    simp
  cases hunknown : names.filter fun name => (p.find? name).isNone with
  | nil =>
      rw [and_iff_right (hknown.mp hunknown), Except.ok.injEq, eq_comm]
  | cons name rest =>
      have hmiss : ¬ ∀ name ∈ names, ∃ t ∈ p.targets, t.name = name := by
        rw [← hknown, hunknown]
        exact List.cons_ne_nil name rest
      simp [hmiss]

end Project

/-! ## running -/

namespace Run

variable {σ : Type} [FileStore (StateM σ)] [FolderView (StateM σ)] [Journal (StateM σ)]

omit [FileStore (StateM σ)] [FolderView (StateM σ)] in
/-- The first target with conflicting options ends the look at the options, and one
warning is all that comes of it. -/
theorem runAt_checkAll (targets : List Target) (s : σ) :
    runAt (checkAll targets) s =
      match targets.find? fun t => Merge.conflicts t.options with
      | none => (.ok (), s)
      | some t => (.error (.conflict t.name), (StateT.run (report .warning Merge.speaker
          (Merge.conflictMessage t.name) : StateM σ Unit) s).2) := by
  induction targets with
  | nil => rfl
  | cons t rest ih =>
      unfold checkAll
      cases hconf : Merge.conflicts t.options with
      | false =>
          rw [Merge.checkSourceMap_of_fit hconf, pure_bind, ih, List.find?_cons, hconf]
      | true =>
          rw [Merge.checkSourceMap_refused hconf, List.find?_cons, hconf]
          rfl

/-- Merges the outputs of targets one after the other. -/
def runAll {m : Type → Type} [Monad m] [FileStore m] [FolderView m] [Journal m]
    (targets : List Target) (force : Bool) (r : Renderer) : ExceptT MergeFault m (List Outcome) := do
  let outcomes ← targets.mapM fun t => runTarget t force r
  pure outcomes.flatten

/-- The target that ends a run before it begins. -/
def refused? (targets : List Target) (force : Bool) : Option Target :=
  if force then none else targets.find? fun t => Merge.conflicts t.options

theorem runAt_run_of_error {p : Project} {names : List Text} {fault : ProjectFault}
    (hselect : p.select names = .error fault) (force : Bool) (r : Renderer) (s : σ) :
    runAt (run p names force r) s = (.error (.project fault), s) := by
  rw [run, hselect]
  rfl

/-- **A run** is refused with one warning, or merges the outputs of its targets. -/
theorem runAt_run {p : Project} {names : List Text} {targets : List Target}
    (hselect : p.select names = .ok targets) (force : Bool) (r : Renderer) (s : σ) :
    runAt (run p names force r) s =
      match refused? targets force with
      | some t => (.error (.merge (.conflict t.name)), (StateT.run (report .warning Merge.speaker
          (Merge.conflictMessage t.name) : StateM σ Unit) s).2)
      | none => runAt ((runAll targets force (r.overlay p.data)).adapt RunFault.merge) s := by
  have hmerged : ∀ s : σ, runAt (ExceptT.adapt RunFault.merge
      (targets.mapM fun t => runTarget t force (r.overlay p.data)) >>= fun outcomes =>
        pure outcomes.flatten) s =
      runAt ((runAll targets force (r.overlay p.data)).adapt RunFault.merge) s := fun s =>
    (runAt_adapt_bind RunFault.merge (targets.mapM fun t => runTarget t force (r.overlay p.data))
      (fun outcomes : List (List Outcome) => pure outcomes.flatten) s).symm
  rw [run, hselect]
  cases force with
  | true => exact hmerged s
  | false =>
      -- The look at the options comes first; where it refuses no target it leaves no trace.
      change runAt (ExceptT.adapt RunFault.merge (checkAll targets) >>= fun _ =>
        ExceptT.adapt RunFault.merge
          (targets.mapM fun t => runTarget t false (r.overlay p.data)) >>=
            fun outcomes => pure outcomes.flatten) s =
        match targets.find? fun t => Merge.conflicts t.options with
        | some t => _
        | none => _
      rw [runAt_bind, runAt_adapt, runAt_checkAll]
      cases targets.find? fun t => Merge.conflicts t.options with
      | some t => rfl
      | none => exact hmerged s

/-- Without force a target is refused if one of the targets has conflicting options. -/
theorem exists_refused_iff {targets : List Target} :
    (∃ t, refused? targets false = some t) ↔ ∃ t ∈ targets, Merge.conflicts t.options = true := by
  change (∃ t, targets.find? (fun t => Merge.conflicts t.options) = some t) ↔ _
  rw [← Option.isSome_iff_exists, List.find?_isSome]

end Run

end SourceMerge
