import SourceMerge.Mapping.Quantity

/-!
# SourceMerge.Mapping.Segment

The mapping string of a source map.  A segment ties a column of a generated
line to a place in one of the sources.  Lines are separated by semicolons and
segments by commas; each number is written as the difference from the previous
one of its kind, where the generated column starts afresh on every line and the
others run on.
-/

namespace SourceMerge.Mapping

/-- A generated column and the place in a source that it shows, all counted
from zero; a name index may follow. -/
structure Segment where
  column : Int
  source : Int
  sourceLine : Int
  sourceColumn : Int
  name : Option Int := none
  deriving DecidableEq

/-- A segment from its numbers; four are needed, the fifth is a name index. -/
def Segment.ofList? : List Int → Option Segment
  | a :: b :: c :: d :: rest => some ⟨a, b, c, d, rest.head?⟩
  | _ => none

/-- The numbers of a segment. -/
def Segment.toList (s : Segment) : List Int :=
  [s.column, s.source, s.sourceLine, s.sourceColumn] ++ s.name.toList

/-- A segment without its name index. -/
def Segment.unnamed (s : Segment) : Segment := { s with name := none }

/-- The numbers that run on from line to line. -/
structure Running where
  source : Int := 0
  sourceLine : Int := 0
  sourceColumn : Int := 0
  name : Int := 0

/-! ## Writing -/

/-- The differences of a segment from what came before it, as digits. -/
def encodeSegment (column : Int) (r : Running) (s : Segment) : Text :=
  Quantity.encode (s.column - column) ++ Quantity.encode (s.source - r.source) ++
    Quantity.encode (s.sourceLine - r.sourceLine) ++
    Quantity.encode (s.sourceColumn - r.sourceColumn)

/-- The running numbers after a segment. -/
def Running.after (r : Running) (s : Segment) : Running :=
  { r with source := s.source, sourceLine := s.sourceLine, sourceColumn := s.sourceColumn }

/-- The segments of one line, after a segment at `column`. -/
def encodeSegments (column : Int) (r : Running) : List Segment → List Text × Running
  | [] => ([], r)
  | s :: rest =>
    let (chunks, last) := encodeSegments s.column (r.after s) rest
    (encodeSegment column r s :: chunks, last)

/-- The lines of a mapping string. -/
def encodeLines (r : Running) : List (List Segment) → List Text
  | [] => []
  | line :: rest =>
    let (chunks, last) := encodeSegments 0 r line
    Text.joinWith [','] chunks :: encodeLines last rest

/-- The mapping string of segments grouped by generated line. -/
def encodeMappings (lines : List (List Segment)) : Text :=
  Text.joinWith [';'] (encodeLines {} lines)

/-! ## Reading -/

/-- What one chunk between separators adds: the column it reaches, the running
numbers and, if it has four numbers, its segment. -/
def applyValues (column : Int) (r : Running) : List Int → Int × Running × Option Segment
  | a :: b :: c :: d :: rest =>
    let column := column + a
    let r : Running :=
      { source := r.source + b
        sourceLine := r.sourceLine + c
        sourceColumn := r.sourceColumn + d
        name := r.name + rest.headD 0 }
    (column, r, some ⟨column, r.source, r.sourceLine, r.sourceColumn, rest.head?.map fun _ => r.name⟩)
  | a :: _ => (column + a, r, none)
  | [] => (column, r, none)

/-- The chunks of one line. -/
def decodeChunks (column : Int) (r : Running) :
    List Text → Except QuantityFault (List Segment × Running)
  | [] => .ok ([], r)
  | [] :: rest => decodeChunks column r rest
  | chunk :: rest => do
    let values ← Quantity.decode chunk
    let (column, r, segment) := applyValues column r values
    let (segments, last) ← decodeChunks column r rest
    pure (segment.toList ++ segments, last)

/-- The lines between semicolons. -/
def decodeLines (r : Running) : List Text → Except QuantityFault (List (List Segment))
  | [] => .ok []
  | line :: rest => do
    let (segments, last) ← decodeChunks 0 r (Text.splitOn ',' line)
    let lines ← decodeLines last rest
    pure (segments :: lines)

/-- The segments that a mapping string spells, by generated line.  A chunk of
fewer than four numbers shows no source and leaves only its column behind. -/
def decodeMappings (t : Text) : Except QuantityFault (List (List Segment)) :=
  decodeLines {} (Text.splitOn ';' t)

end SourceMerge.Mapping
