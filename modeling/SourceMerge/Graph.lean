import SourceMerge.Path
import SourceMerge.Directive

/-!
# SourceMerge.Graph

The units of one merge and what they wait for.  A unit is a source text without
its directives; forward edges are the paths that it still depends on, backward
edges the units that depend on it.  Units keep the configured order, and each
path has one unit.

`build` first makes every unit and links them afterwards, so that backward edges
do not hang on where a dependency stands in the configured order.  A dependency
that is no unit leaves a forward edge only.
-/

namespace SourceMerge

/-- One configured source within a merge. -/
structure SourceText where
  path : Text
  raw : Text
  content : Text
  /-- For each line of the content, where it began in `raw`. -/
  origins : List Position := []
  /-- The paths that this text still waits for. -/
  dependencies : List Text := []
  /-- The paths of the texts that wait for this one. -/
  dependents : List Text := []
  emitted : Bool := false

namespace SourceText

/-- The unit of a source text under its path. -/
def ofStripped (path raw : Text) (s : Directive.Stripped) : SourceText :=
  { path := path, raw := raw, content := s.content, origins := s.origins }

/-- Waits for a path; a known one is not taken twice. -/
def addDependency (u : SourceText) (path : Text) : SourceText :=
  if path ∈ u.dependencies then u else { u with dependencies := u.dependencies ++ [path] }

/-- Is waited for by a path; a known one is not taken twice. -/
def addDependent (u : SourceText) (path : Text) : SourceText :=
  if path ∈ u.dependents then u else { u with dependents := u.dependents ++ [path] }

end SourceText

/-- The units of a merge in configured order. -/
structure Graph where
  units : List SourceText := []

namespace Graph

/-- The paths of the units in order. -/
def paths (g : Graph) : List Text := g.units.map (·.path)

/-- The unit of a path. -/
def get? (g : Graph) (path : Text) : Option SourceText := g.units.find? (·.path == path)

/-- Whether a path has a unit. -/
def contains (g : Graph) (path : Text) : Bool := g.units.any (·.path == path)

/-- Changes the unit of a path. -/
def modify (g : Graph) (path : Text) (f : SourceText → SourceText) : Graph :=
  ⟨g.units.map fun u => if u.path = path then f u else u⟩

/-- The units that have not been emitted. -/
def unresolved (g : Graph) : List SourceText := g.units.filter (!·.emitted)

/-! ## Building -/

/-- Adds one source text.  A path that already has a unit keeps it. -/
def addSource (marker : Text) (g : Graph) (path raw : Text) : Graph :=
  let key := Path.canonical path
  if g.contains key then g
  else ⟨g.units ++ [SourceText.ofStripped key raw (Directive.strip marker raw)]⟩

/-- All source texts, of each path the first. -/
def ofSources (marker : Text) (contents : List (Text × Text)) : Graph :=
  contents.foldl (fun g e => addSource marker g e.1 e.2) {}

/-- The paths given again after their unit was made, in order. -/
def duplicatesAfter (seen : List Text) : List Text → List Text
  | [] => []
  | path :: rest =>
    let key := Path.canonical path
    if key ∈ seen then key :: duplicatesAfter seen rest else duplicatesAfter (key :: seen) rest

/-- Registers one edge at both of its ends, unless it leads back to its owner or
is known. -/
def link (owner : Text) (g : Graph) (target : Text) : Graph :=
  if target = owner then g
  else
    match g.get? owner with
    | none => g
    | some u =>
      if target ∈ u.dependencies then g
      else (g.modify owner (·.addDependency target)).modify target (·.addDependent owner)

/-- The paths that the directives of a unit name. -/
def targets (root marker : Text) (u : SourceText) : List Text :=
  (Directive.strip marker u.raw).references.map (Path.resolve root · u.path)

/-- Registers the edges of all units in order. -/
def linkAll (root marker : Text) (g : Graph) : Graph :=
  g.units.foldl (fun acc u => (targets root marker u).foldl (link u.path) acc) g

/-- The graph of source texts in configured order. -/
def build (root marker : Text) (contents : List (Text × Text)) : Graph :=
  linkAll root marker (ofSources marker contents)

/-- The note on a source given again. -/
def skipNote (path : Text) : Text := "Skipping duplicate source " ++ path

/-- The note on an edge. -/
def edgeNote (owner target : Text) : Text := owner ++ " depends on " ++ target

/-- What there is to say about a building: repeated sources first, then every
edge. -/
def buildNotes (contents : List (Text × Text)) (g : Graph) : List Text :=
  (duplicatesAfter [] (contents.map (·.1))).map skipNote ++
    g.units.flatMap fun u => u.dependencies.map (edgeNote u.path)

end Graph

end SourceMerge
