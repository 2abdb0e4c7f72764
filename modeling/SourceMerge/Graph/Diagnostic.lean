import SourceMerge.Graph

/-!
# SourceMerge.Graph.Diagnostic

Why a unit was left out.  Each path that an unemitted unit still waits for is
explained by the first of these that holds: it does not exist, it exists but is
no unit of the merge, it is a unit that was left out as well.  A last line says
that the unit is ignored.
-/

namespace SourceMerge

/-- The kinds of warnings about a merge. -/
inductive DiagnosticKind where
  | missingSource
  | missingDependency
  | unconfiguredDependency
  | circularDependency
  | sourceExcluded
  | sourceMapDisabled
  deriving DecidableEq

/-- The name of a kind. -/
def DiagnosticKind.name : DiagnosticKind → Text
  | .missingSource => "missing-source-file"
  | .missingDependency => "missing-dependency-file"
  | .unconfiguredDependency => "unconfigured-dependency"
  | .circularDependency => "circular-dependency"
  | .sourceExcluded => "source-excluded"
  | .sourceMapDisabled => "source-map-disabled"

/-- A warning about a path. -/
structure Diagnostic where
  kind : DiagnosticKind
  path : Text
  message : Text
  referencedBy : Option Text := none

namespace Diagnostic

/-- A configured source that does not exist. -/
def missingSource (path : Text) : Diagnostic :=
  { kind := .missingSource
    path := path
    message := "Source file \"" ++ path ++ "\" not found." }

/-- A unit that is left out. -/
def excluded (path : Text) : Diagnostic :=
  { kind := .sourceExcluded
    path := path
    message := "Source file \"" ++ path ++ "\" ignored." }

/-- The way a dependency and its owner are named in a message. -/
def mention (dependency owner : Text) : Text :=
  "\"" ++ dependency ++ "\" (referenced by " ++ owner ++ ")"

/-- Why a unit still waits for a path. -/
def ofDependency (present : Bool) (isUnit : Bool) (dependency owner : Text) : Diagnostic :=
  if !present then
    { kind := .missingDependency
      path := dependency
      message := "Dependency " ++ mention dependency owner ++ " not found."
      referencedBy := some owner }
  else if !isUnit then
    { kind := .unconfiguredDependency
      path := dependency
      message := "Dependency " ++ mention dependency owner ++
        " is not among the configured files. Add it to the target's sources."
      referencedBy := some owner }
  else
    { kind := .circularDependency
      path := dependency
      message := "Circular dependencies including " ++ mention dependency owner ++ "."
      referencedBy := some owner }

end Diagnostic

namespace Graph

/-- The explanation of one unit. -/
def explain (present : Text → Bool) (g : Graph) (u : SourceText) : List Diagnostic :=
  u.dependencies.map (fun d => .ofDependency (present d) (g.contains d) d u.path) ++
    if u.dependencies = [] then [] else [.excluded u.path]

/-- The explanations of all unemitted units in configured order. -/
def diagnose (present : Text → Bool) (g : Graph) : List Diagnostic :=
  g.unresolved.flatMap (g.explain present)

/-- The paths that unemitted units wait for, as often as they do. -/
def awaited (g : Graph) : List Text := g.unresolved.flatMap (·.dependencies)

end Graph

end SourceMerge
