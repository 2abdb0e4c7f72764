import SourceMerge.Store
import SourceMerge.Table

/-!
# SourceMerge.Store.Tree

Directories and files as a tree.  A *place* is the list of names that leads
from the root to it.  `follow` walks a path that may also hold `..`: every step
needs a directory to stand in, so a path through a file or through nothing
leads nowhere, even if `..` comes behind it.
-/

namespace SourceMerge

/-- A file with its bytes, or a directory with its entries. -/
inductive Tree where
  | file (bytes : List UInt8)
  | directory (entries : List (Text × Tree))

/-- The names from the root to a place. -/
abbrev Place := List Text

namespace Tree

/-- Whether the tree is a directory. -/
def isDirectory : Tree → Bool
  | .file _ => false
  | .directory _ => true

/-! ## Places -/

/-- What stands at a place. -/
def at? (t : Tree) : Place → Option Tree
  | [] => some t
  | name :: rest =>
    match t with
    | .file _ => none
    | .directory entries =>
      match Table.get? entries name with
      | none => none
      | some child => at? child rest

/-- Puts a tree at a place.  Directories that are missing on the way are made,
and a file on the way stays. -/
def put (t : Tree) (new : Tree) : Place → Tree
  | [] => new
  | name :: rest =>
    match t with
    | .file bytes => .file bytes
    | .directory entries =>
      .directory (Table.insert entries name (put ((Table.get? entries name).getD (.directory [])) new rest))

/-- Where the names of a path lead from a place, and what stands there. -/
def follow (t : Tree) (here : Place) : List Text → Except StoreFault (Place × Tree)
  | [] =>
    match t.at? here with
    | some found => .ok (here, found)
    | none => .error .notFound
  | name :: rest =>
    match t.at? here with
    | none => .error .notFound
    | some (.file _) => .error .notDirectory
    | some (.directory _) =>
      follow t (if name = ['.', '.'] then here.dropLast else here ++ [name]) rest

/-! ## Looking through a tree -/

/-- The names in a directory, each with whether it is a directory. -/
def entryNames : Tree → List (Text × Bool)
  | .file _ => []
  | .directory entries => entries.map fun e => (e.1, e.2.isDirectory)

mutual

/-- The ways to everything below a directory through names that are kept. -/
def ways (keep : Text → Bool) : Tree → List (List Text × Bool)
  | .file _ => []
  | .directory entries => waysOf keep entries

/-- The ways that begin with one of some entries. -/
def waysOf (keep : Text → Bool) : List (Text × Tree) → List (List Text × Bool)
  | [] => []
  | e :: rest => waysOfEntry keep e ++ waysOf keep rest

/-- The way to an entry, and those that go on from it. -/
def waysOfEntry (keep : Text → Bool) : Text × Tree → List (List Text × Bool)
  | (name, t) =>
    if keep name then ([name], t.isDirectory) :: (ways keep t).map fun w => (name :: w.1, w.2)
    else []

end

mutual

/-- All files with their places below the place `here`. -/
def files (here : Place) : Tree → List (Place × List UInt8)
  | .file bytes => [(here, bytes)]
  | .directory entries => filesOf here entries

/-- The files of some entries. -/
def filesOf (here : Place) : List (Text × Tree) → List (Place × List UInt8)
  | [] => []
  | e :: rest => filesOfEntry here e ++ filesOf here rest

/-- The files of one entry. -/
def filesOfEntry (here : Place) : Text × Tree → List (Place × List UInt8)
  | (name, t) => files (here ++ [name]) t

end

/-! ## Making directories -/

/-- A change of a tree that may fail; what was done before stays. -/
abbrev Change := ExceptT StoreFault (StateM Tree)

/-- The names of a path.  Empty ones and `.` lead nowhere else and are left
out. -/
def namesOf (path : Text) : List Text :=
  (Text.splitOn '/' path).filter fun name => name ≠ [] ∧ name ≠ ['.']

/-- Makes a directory; whatever stands there already is in the way. -/
def makeOne (here : Place) (names : List Text) : Change Unit := do
  let root ← get
  match names.getLast? with
  | none => throw .occupied
  | some last =>
    match root.follow here names.dropLast with
    | .error fault => throw fault
    | .ok (_, .file _) => throw .notDirectory
    | .ok (place, .directory entries) =>
      if last = ['.', '.'] ∨ Table.contains entries last then throw .occupied
      else set (root.put (.directory []) (place ++ [last]))

/-- Makes a directory unless it is there. -/
def ensureOne (here : Place) (names : List Text) : Change Unit :=
  tryCatch (makeOne here names) fun fault => do
    match fault, (← get).follow here names with
    | .occupied, .ok (_, .directory _) => pure ()
    | _, _ => throw fault

/-- Makes a directory and those above it that are missing, unless it is there;
the names come last first. -/
def ensureAll (here : Place) : List Text → Change Unit
  | [] => pure ()
  | last :: above =>
    tryCatch (ensureOne here (last :: above).reverse) fun fault =>
      if fault = .notFound then do
        ensureAll here above
        ensureOne here (last :: above).reverse
      else throw fault

/-! ## Files -/

/-- The place of a file to be written, and what it holds if it is there. -/
def openFile (here : Place) (names : List Text) : Change (Place × List UInt8) := do
  match names.getLast? with
  | none => throw .isDirectory
  | some last =>
    match (← get).follow here names.dropLast with
    | .error fault => throw fault
    | .ok (_, .file _) => throw .notDirectory
    | .ok (place, .directory entries) =>
      if last = ['.', '.'] then throw .isDirectory
      else
        match Table.get? entries last with
        | some (.directory _) => throw .isDirectory
        | some (.file bytes) => pure (place ++ [last], bytes)
        | none => pure (place ++ [last], [])

/-- Stores bytes in a file; directories above it that are missing are made.
Where there are no bytes to store the file is left empty. -/
def store (here : Place) (names : List Text) (bytes : Option (List UInt8)) : Change Unit := do
  ensureAll here names.dropLast.reverse
  let (place, _) ← openFile here names
  modify (·.put (.file (bytes.getD [])) place)
  if bytes.isNone then throw .unencodable

/-- Adds bytes at the end of a file, which is made if it is missing. -/
def append (here : Place) (names : List Text) (bytes : List UInt8) : Change Unit := do
  let (place, old) ← openFile here names
  modify (·.put (.file (old ++ bytes)) place)

end Tree

end SourceMerge
