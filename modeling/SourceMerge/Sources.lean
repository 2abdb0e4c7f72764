import SourceMerge.Glob
import SourceMerge.Log

/-!
# SourceMerge.Sources

The sources of an output, chosen by patterns.  Patterns are applied in order:
one adds what it matches behind what is chosen already, one that begins with
`!` takes what it matches away again.  A path is chosen at most once, and one
that was taken away can be added again at the end.
-/

namespace SourceMerge.Sources

/-- What a pattern does. -/
inductive Choice where
  | add (paths : List Text)
  | drop (paths : List Text)

/-- Adds a path behind the others, unless it is among them. -/
def addOne (chosen : List Text) (path : Text) : List Text :=
  if path ∈ chosen then chosen else chosen ++ [path]

/-- What is chosen after one more pattern. -/
def step (chosen : List Text) : Choice → List Text
  | .add paths => paths.foldl addOne chosen
  | .drop paths => chosen.filter (· ∉ paths)

/-- What patterns choose in the end. -/
def select (choices : List Choice) : List Text := choices.foldl step []

/-- The path or pattern as seen from a directory, in normal form. -/
def seenFrom (base pattern : Text) : Text :=
  Path.canonical (if base ≠ [] ∧ !Path.isAbsolute pattern then Path.join base pattern else pattern)

/-- Whether a pattern takes away; the pattern without its mark. -/
def exclusion? : Text → Option Text
  | '!' :: pattern => some pattern
  | _ => none

/-- The choice that a pattern makes if it finds the paths `found`.  Where it
finds nothing, `nonull` makes it stand for itself. -/
def choose (base : Text) (nonull : Bool) (pattern : Text) (found : List Text) : Choice :=
  match exclusion? pattern with
  | some _ => .drop found
  | none => .add (if found = [] ∧ nonull then [seenFrom base pattern] else found)

variable {m : Type → Type} [Monad m] [FileStore m] [FolderView m] [Journal m]

/-- The paths that a pattern finds below a directory, in ascending order. -/
def findAll (base pattern : Text) : m (List Text) :=
  Glob.sorted (seenFrom (Glob.escape base) ((exclusion? pattern).getD pattern))

/-- The note on a pattern that finds nothing. -/
def unmatchedNote (pattern : Text) : Text := "Pattern " ++ pattern ++ " matched no files"

/-- The choice of one pattern; one that adds nothing is reported. -/
def apply (base : Text) (nonull : Bool) (pattern : Text) : m Choice := do
  let found ← findAll base pattern
  if found.isEmpty && (exclusion? pattern).isNone then
    report .debug "sources" (unmatchedNote pattern)
  pure (choose base nonull pattern found)

/-- The sources that patterns choose; relative patterns are seen from `base`. -/
def expand (patterns : List Text) (base : Text) (nonull : Bool) : m (List Text) := do
  return select (← patterns.mapM (apply base nonull))

end SourceMerge.Sources
