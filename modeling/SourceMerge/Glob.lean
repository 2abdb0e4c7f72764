import SourceMerge.Glob.Pattern
import SourceMerge.Store
import SourceMerge.Path

/-!
# SourceMerge.Glob

Patterns for paths.  Each component of a path pattern is a pattern for names;
`**` as a whole component stands for a directory itself and for everything
below it.  Hidden names are found only by components that begin with a point,
and `**` does not go into them.

The components are worked off from the left.  The plain ones at the beginning
are taken as they are; every further one leads from the directories found so
far to what is in them.
-/

namespace SourceMerge.Glob

variable {m : Type → Type} [Monad m] [FileStore m] [FolderView m]

/-- The component that stands for any number of directories. -/
def anyDepth : Text := ['*', '*']

/-- The names that a component of a pattern finds in a directory.  Only
directories count where further components follow, except for a plain name. -/
def find (directory component : Text) (isLast : Bool) : m (List Text) := do
  if component = anyDepth then do
    let ways ← FolderView.below (!isHidden ·) directory
    pure ([] :: (ways.filter fun w => isLast || w.2).map fun w => Text.joinWith ['/'] w.1)
  else if hasMagic component then do
    let entries ← FolderView.entries directory
    pure <| (entries.filter fun e =>
      (isLast || e.2) && (isHidden component || !isHidden e.1) &&
        fitsPattern component e.1).map (·.1)
  else if ← FileStore.contains (Path.join directory component) then pure [component]
  else pure []

/-- Works off components from the paths found so far. -/
def walk (found : List Text) : List Text → m (List Text)
  | [] => pure found
  | component :: rest => do
    let next ← found.mapM fun directory => do
      return (← find directory component rest.isEmpty).map (Path.join directory)
    walk next.flatten rest

/-- The paths that a pattern in normal form finds.  The working directory
itself is not among them. -/
def expand (pattern : Text) : m (List Text) := do
  if !hasMagic pattern then
    if ← FileStore.contains pattern then pure [pattern] else pure []
  else
    let components := Path.components pattern
    let plain := components.takeWhile (!hasMagic ·)
    let start := (Path.anchorOf pattern).slashes ++ Text.joinWith ['/'] plain
    return (← walk [start] (components.drop plain.length)).filter (· ≠ [])

/-- The paths that a pattern finds, in normal form and in ascending order. -/
def sorted (pattern : Text) : m (List Text) := do
  return ((← expand pattern).map Path.canonical).mergeSort Text.atMost

end SourceMerge.Glob
