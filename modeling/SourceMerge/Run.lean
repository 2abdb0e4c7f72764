import SourceMerge.Project
import SourceMerge.Sources
import SourceMerge.Merge

/-!
# SourceMerge.Run

A run of a project: every output of every chosen target is merged, one after
the other.  Without force, targets whose options conflict are found before
anything is written.
-/

namespace SourceMerge

/-- Why a run ends without outcomes. -/
inductive RunFault where
  | project (fault : ProjectFault)
  | merge (fault : MergeFault)

namespace Run

variable {m : Type → Type} [Monad m] [FileStore m] [FolderView m] [Journal m]

/-- Merges one output. -/
def mergeDestination (o : Options) (r : Rendering m) (d : Destination) :
    ExceptT MergeFault m Outcome := do
  let sources ← (Sources.expand d.patterns d.base d.nonull : m (List Text))
  Merge.mergeInto d.dest sources o r

/-- Merges the outputs of one target.  If its map is dropped, each outcome says
so. -/
def runTarget (t : Target) (force : Bool) (r : Rendering m) :
    ExceptT MergeFault m (List Outcome) := do
  (report .info Merge.speaker ("Running target " ++ t.name) : m Unit)
  let (o, notice) ← Merge.checkSourceMap t.options force t.name
  let outcomes ← t.destinations.mapM (mergeDestination o r)
  pure (outcomes.map (·.withNotice notice))

/-- Refuses the first target whose options conflict. -/
def checkAll : List Target → ExceptT MergeFault m Unit
  | [] => pure ()
  | t :: rest => do
    let _ ← Merge.checkSourceMap t.options false t.name
    checkAll rest

/-- Merges the outputs of the named targets, or of all.  For templates the data of
the project come on top. -/
def run (p : Project) (names : List Text) (force : Bool) (r : Rendering m) :
    ExceptT RunFault m (List Outcome) := do
  let targets ← (p.select names).mapError RunFault.project
  if !force then (checkAll targets).adapt RunFault.merge
  let outcomes ← (targets.mapM fun t => runTarget t force (r.overlay p.data)).adapt RunFault.merge
  pure outcomes.flatten

end Run

end SourceMerge
