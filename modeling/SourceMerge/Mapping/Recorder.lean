import SourceMerge.Graph
import SourceMerge.Table
import SourceMerge.Json.Printer
import SourceMerge.Mapping.Inherited
import SourceMerge.Mapping.Delivery

/-!
# SourceMerge.Mapping.Recorder

The map of an output while the output is being put together.  The cursor is the
place that the output has reached.  Text that shows no source only moves it;
each line of a unit adds an entry that ties the line's place in the output to
where it began in its source, or, if the source brought a map along, one entry
for each segment of that map on the line.
-/

namespace SourceMerge.Mapping

/-- A place in the output and the place in a source that it shows. -/
structure Entry where
  generated : Position
  source : Text
  shown : Position
  deriving DecidableEq

/-- Why a unit cannot be recorded: a segment counts back beyond the first
source. -/
inductive RecordFault where
  | sourceOutOfRange

/-- A map in the making. -/
structure Recorder where
  dest : Text
  delivery : Delivery
  mapPath : Text
  cursor : Position := Position.start
  entries : List Entry := []
  /-- The map has been stored in a file. -/
  written : Bool := false
  /-- What the sources hold. -/
  contents : Table Data := []
  /-- The maps that sources brought along. -/
  inherited : Table InheritedMap := []

namespace Recorder

/-- The recorder of an output whose map goes to `mapPath`, or beside the output
if that is missing or empty. -/
def start (dest : Text) (delivery : Delivery) (mapPath : Option Text) : Recorder :=
  { dest := dest, delivery := delivery, mapPath := orBeside dest mapPath }

/-! ## Sources -/

/-- Remembers a cleaned source and the map that it brought along. -/
def remember (r : Recorder) (key cleaned : Text) (map : Option InheritedMap) : Recorder :=
  { r with
    contents := Table.insert r.contents key (.text cleaned)
    inherited :=
      match map with
      | some map => Table.insert r.inherited key map
      | none => r.inherited }

/-- Registers a source; the answer is its text without the reference to its
map. -/
def register {m : Type → Type} [Monad m] [FileStore m] [Journal m] (r : Recorder)
    (path content : Text) : ExceptT InheritedFault m (Text × Recorder) := do
  let key := Path.canonical path
  let (cleaned, map) ← inherit content key
  pure (cleaned, r.remember key cleaned map)

/-! ## Text and units -/

/-- Moves the cursor over a text. -/
def add (r : Recorder) (t : Text) : Recorder := { r with cursor := r.cursor.after t }

/-- An item of a list; a negative index counts from the end. -/
def itemAt? {α : Type} (l : List α) (index : Int) : Option α :=
  if 0 ≤ index then l[index.toNat]?
  else if -(l.length : Int) ≤ index then l[(l.length + index).toNat]?
  else none

/-- Adds the entry of one segment of an inherited map.  `generated` is where
the line begins in the output and `origin` where it began in the source: columns
before that are not in the output, later ones move with the line. -/
def composeSegment (map : InheritedMap) (generated origin : Position) (r : Recorder)
    (s : Segment) : Except RecordFault Recorder :=
  if s.column < origin.column ∨ (map.sources.length : Int) ≤ s.source then .ok r
  else
    match itemAt? map.sources s.source, itemAt? map.contents s.source with
    | some source, some content =>
      let entry : Entry :=
        { generated := ⟨generated.line, generated.column + s.column - origin.column⟩
          source := source
          shown := ⟨s.sourceLine + 1, s.sourceColumn⟩ }
      .ok { r with
        entries := r.entries ++ [entry]
        contents :=
          match content with
          | .null => r.contents
          | content => Table.insertIfNew r.contents source content }
    | _, _ => .error .sourceOutOfRange

/-- Goes through items as long as none is at fault. -/
def advance {α : Type} (f : Recorder → α → Except RecordFault Recorder) (r : Recorder) :
    List α → Recorder × Option RecordFault
  | [] => (r, none)
  | a :: rest =>
    match f r a with
    | .ok r => advance f r rest
    | .error fault => (r, some fault)

/-- The lines of a unit that are in the output: the empty rest after a line
feed at the end is none. -/
def linesOf (content : Text) : List Text :=
  if content = [] then []
  else
    let lines := Text.splitOn '\n' content
    if lines.getLast? = some [] ∧ 1 < lines.length then lines.dropLast else lines

/-- Where each line of a unit begins in the output and where it began in the
source; a line without a known origin is taken to be the same line there. -/
def linePlaces (cursor : Position) (u : SourceText) : List (Position × Position) :=
  (linesOf u.content).mapIdx fun i _ =>
    (if i = 0 then cursor else ⟨cursor.line + i, 0⟩, u.origins.getD i ⟨i + 1, 0⟩)

/-- Records the lines of a unit one by one. -/
def addLines (r : Recorder) (u : SourceText) :
    List (Position × Position) → Recorder × Option RecordFault
  | [] => (r, none)
  | (generated, origin) :: rest =>
    match Table.get? r.inherited u.path with
    | none => addLines { r with entries := r.entries ++ [⟨generated, u.path, origin⟩] } u rest
    | some map =>
      match advance (composeSegment map generated origin) r (map.segmentsFor origin.line) with
      | (r, none) => addLines r u rest
      | (r, some fault) => (r, some fault)

/-- Records a unit and moves the cursor over it.  At a fault the cursor stays,
and the entries before the fault are kept. -/
def addUnit (r : Recorder) (u : SourceText) : Recorder × Option RecordFault :=
  match addLines r u (linePlaces r.cursor u) with
  | (r, none) => (r.add u.content, none)
  | found => found

end Recorder

/-! ## The finished map -/

/-- A finished map. -/
structure Document where
  file : Text
  sources : List Text
  /-- What each source holds, where the map says so. -/
  contents : Option (List Data)
  lines : List (List Segment)

namespace Document

/-- The mapping string. -/
def mappings (d : Document) : Text := encodeMappings d.lines

/-- The map as a JSON object. -/
def toData (d : Document) : Data :=
  .map <|
    [(.text "version", .int 3), (.text "file", .text d.file),
      (.text "sources", .list (d.sources.map .text))] ++
    (match d.contents with
      | some contents => [(.text "sourcesContent", .list contents)]
      | none => []) ++
    [(.text "names", .list []), (.text "mappings", .text d.mappings)]

/-- The map as it is stored. -/
def serialized (d : Document) : Text := Json.render d.toData

end Document

namespace Recorder

/-- The recorded sources in the order in which they first appear. -/
def sources (r : Recorder) : List Text :=
  (r.entries.map (·.source)).foldl (fun known s => if s ∈ known then known else known ++ [s]) []

/-- An entry as a segment. -/
def segmentOf (sources : List Text) (e : Entry) : Segment :=
  { column := e.generated.column
    source := sources.idxOf e.source
    sourceLine := e.shown.line - 1
    sourceColumn := e.shown.column }

/-- Segments are ordered by their numbers, the generated column first. -/
def segmentLE (a b : Segment) : Bool :=
  compareOfLessAndEq a.column b.column
    |>.then (compareOfLessAndEq a.source b.source)
    |>.then (compareOfLessAndEq a.sourceLine b.sourceLine)
    |>.then (compareOfLessAndEq a.sourceColumn b.sourceColumn)
    |>.isLE

/-- The segments of one generated line in ascending order. -/
def lineSegments (r : Recorder) (line : Int) : List Segment :=
  ((r.entries.filter (·.generated.line == line)).map (segmentOf r.sources)).mergeSort segmentLE

/-- The last generated line with an entry, zero if there is none. -/
def lastLine (r : Recorder) : Int := (r.entries.map (·.generated.line)).foldl max 0

/-- The finished map, unless the output or a source has an empty path. -/
def document? (r : Recorder) (workingDirectory : Text) : Option Document :=
  let start := Path.directory r.mapPath
  match Delivery.relativeUrl? workingDirectory r.dest start,
    r.sources.mapM (Delivery.relativeUrl? workingDirectory · start) with
  | some file, some sources =>
    some
      { file := file
        sources := sources
        contents :=
          if r.delivery.embedsSources then
            some (r.sources.map fun s => (Table.get? r.contents s).getD .null)
          else none
        lines := (List.range r.lastLine.toNat).map fun (i : Nat) => r.lineSegments (i + 1) }
  | _, _ => none

/-- Why a map cannot be finished. -/
inductive FinishFault where
  /-- The output, a source or the map has an empty path. -/
  | emptyPath
  /-- The map cannot be stored. -/
  | unwritable (fault : StoreFault)

/-- Stores the map where it is a file. -/
def store {m : Type → Type} [Monad m] [FileStore m] [Journal m] (r : Recorder)
    (serialized : Text) : ExceptT FinishFault m Recorder :=
  if r.delivery.isFile then do
    match ← ExceptT.lift (FileStore.write r.mapPath serialized) with
    | .error fault => throw (.unwritable fault)
    | .ok _ =>
      (report .info speaker ("Source map " ++ r.mapPath ++ " created.") : m Unit)
      pure { r with written := true }
  else pure { r with written := false }

/-- Finishes the map: stores it where it is a file, and answers with the
comment that ends the output. -/
def finish {m : Type → Type} [Monad m] [FileStore m] [Journal m] (r : Recorder) :
    ExceptT FinishFault m (Text × Recorder) := do
  let workingDirectory ← (FileStore.workingDirectory : m Text)
  match r.document? workingDirectory with
  | none => throw .emptyPath
  | some document =>
    let serialized := document.serialized
    let r ← r.store serialized
    match r.delivery.url? workingDirectory r.dest r.mapPath serialized with
    | none => throw .emptyPath
    | some url => pure (referenceComment r.dest url, r)

end Recorder

end SourceMerge.Mapping
