import SourceMerge.Text
import SourceMerge.Text.CaseMap

/-!
# SourceMerge.Path

Paths as text.  The *normal form* of a path is where it starts (nowhere, at the
root, or at a root written with exactly two slashes) and its components once
empty ones, `.` and cancelled `..` are gone.  `canonical` writes the normal
form down; two spellings of one path have the same canonical text, which is why
units, references and records are keyed by it.
-/

namespace SourceMerge.Path

/-- Where a path starts.  A path that begins with exactly two slashes keeps
both. -/
inductive Anchor where
  | relative
  | absolute
  | doubled
  deriving DecidableEq

/-- The slashes that an anchor is written with. -/
def Anchor.slashes : Anchor → Text
  | .relative => []
  | .absolute => ['/']
  | .doubled => ['/', '/']

/-- Where a path starts, read off its leading slashes. -/
def anchorOf : Text → Anchor
  | '/' :: '/' :: '/' :: _ => .absolute
  | '/' :: '/' :: _ => .doubled
  | '/' :: _ => .absolute
  | _ => .relative

/-- Whether a path starts at the root. -/
def isAbsolute (p : Text) : Bool := anchorOf p ≠ .relative

/-! ## Normal form -/

/-- The component that names the directory above. -/
def up : Text := ['.', '.']

/-- One more component after the components `done` (last one first): empty ones
and `.` leave no trace, `..` takes back an ordinary component, vanishes at a
root and is kept where there is nothing to take back. -/
def push (anchor : Anchor) (done : List Text) (component : Text) : List Text :=
  if component = [] ∨ component = ['.'] then done
  else if component = up then
    match done with
    | [] => if anchor = .relative then [up] else []
    | last :: before => if last = up then up :: done else before
  else component :: done

/-- The components of the normal form. -/
def components (p : Text) : List Text :=
  ((Text.splitOn '/' p).foldl (push (anchorOf p)) []).reverse

/-- Components written after an anchor; nothing at all is written `.`. -/
def write (anchor : Anchor) (parts : List Text) : Text :=
  match anchor.slashes ++ Text.joinWith ['/'] parts with
  | [] => ['.']
  | p => p

/-- The text of the normal form. -/
def canonical (p : Text) : Text := write (anchorOf p) (components p)

/-! ## Joining and taking apart -/

/-- A path seen from a directory; an absolute path stays as it is. -/
def join (directory p : Text) : Text :=
  if p.head? = some '/' then p
  else if directory = [] ∨ directory.getLast? = some '/' then directory ++ p
  else directory ++ '/' :: p

/-- What stands up to the last slash, and what follows it. -/
def splitLast (p : Text) : Text × Text :=
  let name := (p.reverse.takeWhile (· != '/')).reverse
  (p.take (p.length - name.length), name)

/-- The directory of a path: the text before the last component, without the
slashes between them unless it is slashes only. -/
def directory (p : Text) : Text :=
  let head := (splitLast p).1
  if head.all (· == '/') then head else Text.trimEndWhile (· == '/') head

/-- The last component as written. -/
def fileName (p : Text) : Text := (splitLast p).2

/-- The extension with its point.  Points that begin the last component begin
no extension. -/
def extension (p : Text) : Text :=
  let name := (fileName p).dropWhile (· == '.')
  let tail := (name.reverse.takeWhile (· != '.')).reverse
  if tail.length = name.length then [] else '.' :: tail

/-! ## Relative paths -/

/-- The normal form of a path seen from the working directory. -/
def absolute (workingDir p : Text) : Text := canonical (join workingDir p)

/-- The normal form of a path seen from the working directory, written with one
slash at its beginning. -/
def located (workingDir p : Text) : Text :=
  '/' :: Text.joinWith ['/'] (components (join workingDir p))

/-- The components of an absolute path. -/
def names (p : Text) : List Text := (Text.splitOn '/' p).filter (· ≠ [])

/-- The number of components that two paths share at the beginning. -/
def sharedLength : List Text → List Text → Nat
  | a :: as, b :: bs => if a = b then sharedLength as bs + 1 else 0
  | _, _ => 0

/-- The way from a directory to a path: up to the deepest common directory and
down again, or `.` if they are the same. -/
def route (start target : List Text) : Text :=
  let shared := sharedLength start target
  match List.replicate (start.length - shared) up ++ target.drop shared with
  | [] => ['.']
  | parts => Text.joinWith ['/'] parts

/-- A path as seen from a directory, both taken from the working directory; an
empty directory is the working directory. -/
def relativeTo (workingDir start p : Text) : Text :=
  let start := if start = [] then ['.'] else start
  route (names (absolute workingDir start)) (names (absolute workingDir p))

/-! ## References -/

/-- The path that a dependency reference names.  A reference that begins with
a slash is seen from the root of the project, any other from the directory of
the file that declares it. -/
def resolve (root reference declaring : Text) : Text :=
  canonical <|
    if reference.head? = some '/' then join root (reference.dropWhile (· == '/'))
    else join (directory declaring) reference

/-- A configured path: relative ones are seen from `base`. -/
def anchored (base : Option Text) (p : Text) : Text :=
  match base with
  | none => canonical p
  | some base => canonical (if isAbsolute p then p else join base p)

/-- A directory path in its shortest spelling: repeated slashes, `.` and a
slash at the end are dropped, `..` is kept, and nothing at all is `.`. -/
def tidy (p : Text) : Text :=
  write (anchorOf p) ((Text.splitOn '/' p).filter fun c => c ≠ [] ∧ c ≠ ['.'])

end SourceMerge.Path
