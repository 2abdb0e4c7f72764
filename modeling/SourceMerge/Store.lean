import SourceMerge.Text

/-!
# SourceMerge.Store

What a merge needs of the place where its files are: to ask whether a path
exists or is a directory, to read a text and to write one.  Paths that do not
start at the root are seen from the working directory.
-/

namespace SourceMerge

/-- Why a file cannot be read or written. -/
inductive StoreFault where
  /-- Nothing has this path. -/
  | notFound
  /-- The path is a directory. -/
  | isDirectory
  /-- A file stands where the path needs a directory. -/
  | notDirectory
  /-- A file stands where a directory has to be made. -/
  | occupied
  /-- The bytes are no text of the encoding. -/
  | undecodable
  /-- The text has no bytes in the encoding. -/
  | unencodable
  deriving DecidableEq

/-- A monad with files.  A store may keep texts as they are, in which case both
ways to read agree. -/
class FileStore (m : Type → Type) where
  /-- Whether a path is a file or a directory. -/
  contains : Text → m Bool
  /-- Whether a path is a directory. -/
  isDirectory : Text → m Bool
  /-- The text of a file, without a byte order mark that begins it. -/
  read : Text → m (Except StoreFault Text)
  /-- The text of a file, with a byte order mark that begins it. -/
  readMarked : Text → m (Except StoreFault Text)
  /-- Stores a text in a file; missing directories above it are made. -/
  write : Text → Text → m (Except StoreFault Unit)
  /-- The directory that relative paths are seen from. -/
  workingDirectory : m Text

/-- A monad whose directories can be looked through. -/
class FolderView (m : Type → Type) where
  /-- The names in a directory, each with whether it is a directory itself; a
  path that is no directory has none. -/
  entries : Text → m (List (Text × Bool))
  /-- The ways, name by name, to everything below a directory, each with whether
  it ends at a directory.  Names that are not to be kept are passed over with
  all that lies below them. -/
  below : (Text → Bool) → Text → m (List (List Text × Bool))
  /-- The directory that `~` stands for, if it is known. -/
  home : m (Option Text)

end SourceMerge
