import SourceMerge.Store
import SourceMerge.Table
import SourceMerge.Log

/-!
# SourceMerge.Store.Memory

Files kept in memory.  Paths are compared as they are written, texts are read
as they were stored, and writing always succeeds.
-/

namespace SourceMerge

/-- Texts by path, and the paths that are directories. -/
structure Memory where
  files : Table Text := []
  directories : List Text := []
  workingDirectory : Text := ['/']

namespace Memory

/-- Whether a path is a file or a directory. -/
def contains (m : Memory) (path : Text) : Bool :=
  Table.contains m.files path || path ∈ m.directories

/-- Whether a path is a directory. -/
def isDirectory (m : Memory) (path : Text) : Bool := path ∈ m.directories

/-- The text of a file. -/
def read (m : Memory) (path : Text) : Except StoreFault Text :=
  match Table.get? m.files path with
  | some t => .ok t
  | none => .error .notFound

/-- Stores a text. -/
def write (m : Memory) (path content : Text) : Memory :=
  { m with files := Table.insert m.files path content }

/-- What has been written is read back. -/
theorem read_write_self (m : Memory) (path content : Text) :
    (m.write path content).read path = .ok content := by
  simp [read, write, Table.get?_insert_self]

/-- Writing leaves other files alone. -/
theorem read_write_of_ne {m : Memory} {path other content : Text} (h : other ≠ path) :
    (m.write path content).read other = m.read other := by
  simp [read, write, Table.get?_insert_of_ne h]

end Memory

/-- Files in memory and the records made so far. -/
structure MemoryWorld where
  memory : Memory := {}
  records : List Record := []

instance : FileStore (StateM MemoryWorld) where
  contains path := do return (← get).memory.contains path
  isDirectory path := do return (← get).memory.isDirectory path
  read path := do return (← get).memory.read path
  readMarked path := do return (← get).memory.read path
  write path content := do
    modify fun w => { w with memory := w.memory.write path content }
    return .ok ()
  workingDirectory := do return (← get).memory.workingDirectory

instance : Journal (StateM MemoryWorld) where
  record r := modify fun w => { w with records := w.records ++ [r] }

end SourceMerge
