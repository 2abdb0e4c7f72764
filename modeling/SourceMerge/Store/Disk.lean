import SourceMerge.Store.Tree
import SourceMerge.Text.Utf8
import SourceMerge.Path

/-!
# SourceMerge.Store.Disk

A tree of files as a store of texts.  Reading decodes a file, turns its line
ends into line feeds and takes a byte order mark off; writing stores the text
as it is.  Paths that do not start at the root are seen from the working
directory.
-/

namespace SourceMerge

/-- How texts are written as bytes. -/
inductive Encoding where
  | utf8
  | latin1
  deriving DecidableEq

/-- The text of some bytes. -/
def Encoding.decode? : Encoding → List UInt8 → Option Text
  | .utf8, bytes => Text.ofUtf8? bytes
  | .latin1, bytes => some (Text.ofLatin1 bytes)

/-- The bytes of a text. -/
def Encoding.encode? : Encoding → Text → Option (List UInt8)
  | .utf8, t => some (Text.toUtf8 t)
  | .latin1, t => Text.toLatin1? t

/-- A tree with a place in it to look from. -/
structure Disk where
  root : Tree := .directory []
  /-- The working directory. -/
  here : Place := []
  encoding : Encoding := .utf8

namespace Disk

/-- The working directory as a path. -/
def workingDirectory (d : Disk) : Text := '/' :: Text.joinWith ['/'] d.here

/-- Where a path starts. -/
def start (d : Disk) (path : Text) : Place := if Path.isAbsolute path then [] else d.here

/-- Where a path leads, and what stands there. -/
def find (d : Disk) (path : Text) : Except StoreFault (Place × Tree) :=
  d.root.follow (d.start path) (Tree.namesOf path)

/-- Whether a path leads anywhere. -/
def contains (d : Disk) (path : Text) : Bool :=
  match d.find path with
  | .ok _ => true
  | .error _ => false

/-- Whether a path leads to a directory. -/
def isDirectory (d : Disk) (path : Text) : Bool :=
  match d.find path with
  | .ok (_, t) => t.isDirectory
  | .error _ => false

/-- The bytes of a file. -/
def bytes (d : Disk) (path : Text) : Except StoreFault (List UInt8) :=
  match d.find path with
  | .ok (_, .file bytes) => .ok bytes
  | .ok (_, .directory _) => .error .isDirectory
  | .error fault => .error fault

/-- The text of a file in an encoding, its line ends made line feeds. -/
def readAs (d : Disk) (encoding : Encoding) (path : Text) : Except StoreFault Text := do
  match encoding.decode? (← d.bytes path) with
  | some t => .ok (Text.unifyNewlines t)
  | none => .error .undecodable

/-- The text of a file without a byte order mark that begins it. -/
def read (d : Disk) (path : Text) : Except StoreFault Text :=
  (d.readAs d.encoding path).map Text.dropMark

/-- The disk after a change of its tree. -/
def apply {α : Type} (d : Disk) (change : Tree.Change α) : Except StoreFault α × Disk :=
  let (result, root) := change.run.run d.root
  (result, { d with root := root })

/-- Stores a text. -/
def write (d : Disk) (path content : Text) : Except StoreFault Unit × Disk :=
  d.apply (Tree.store (d.start path) (Tree.namesOf path) (d.encoding.encode? content))

/-- Adds a text at the end of a file. -/
def append (d : Disk) (path content : Text) : Except StoreFault Unit × Disk :=
  d.apply (Tree.append (d.start path) (Tree.namesOf path) (Text.toUtf8 content))

/-- The names in a directory. -/
def entries (d : Disk) (path : Text) : List (Text × Bool) :=
  match d.find path with
  | .ok (_, t) => t.entryNames
  | .error _ => []

/-- The ways to everything below a directory through names that are kept. -/
def below (d : Disk) (keep : Text → Bool) (path : Text) : List (List Text × Bool) :=
  match d.find path with
  | .ok (_, t) => t.ways keep
  | .error _ => []

end Disk

end SourceMerge
