import SourceMerge.Text
import SourceMerge.Text.Blank
import SourceMerge.Path

/-!
# SourceMerge.Mapping.Reference

The comment by which a file names its source map.  It begins a line, after
spaces and tabs at most, and is a line comment or a block comment whose first
character is `#` or `@`; the file's map is the one that its last such comment
names.  In a line comment the name runs to the first white space and the
comment to the end of the line; in a block comment the name is the shortest one
after which the comment can end, and the comment takes the spaces behind it and
a line end with it.
-/

namespace SourceMerge.Mapping

/-- What stands before the name of the map. -/
def referenceKey : Text := "sourceMappingURL="

/-- Whether a character is a space or a tab. -/
def isGap (c : Char) : Bool := c == ' ' || c == '\t'

/-- Drops a line end, if the text begins with one. -/
def dropLineEnd : Text → Text
  | '\n' :: rest => rest
  | '\r' :: '\n' :: rest => rest
  | t => t

/-- The shortest name that a block comment can have, and what follows the
comment; `name` holds the characters so far, last one first. -/
def blockName? (name : Text) : Text → Option (Text × Text)
  | [] => none
  | c :: rest =>
    if Text.isBlank c then none
    else
      match rest.dropWhile isGap with
      | '*' :: '/' :: after => some ((c :: name).reverse, after)
      | _ => blockName? (c :: name) rest

/-- Reads what stands between the opener of a comment and the name of the map;
`t` begins after the opener. -/
def afterKey? : Text → Option Text
  | c :: rest =>
    if c = '#' ∨ c = '@' then Text.dropStart? referenceKey (rest.dropWhile isGap) else none
  | [] => none

/-- The name of the map in the comment that begins a line, and what is left of
the line when the comment is gone. -/
def readReference? (line : Text) : Option (Text × Text) :=
  match line.dropWhile isGap with
  | '/' :: '/' :: rest =>
    match afterKey? rest with
    | none => none
    | some t =>
      let name := t.takeWhile (!Text.isBlank ·)
      if name = [] then none
      else some (name, dropLineEnd ((t.drop name.length).dropWhile (· != '\n')))
  | '/' :: '*' :: rest =>
    match afterKey? rest with
    | none => none
    | some t =>
      (blockName? [] t).map fun (name, after) => (name, dropLineEnd (after.dropWhile isGap))
  | _ => none

/-- The lines of a text, each with the line feed that ends it. -/
def linesWithEnds : Text → List Text
  | [] => []
  | c :: rest =>
    if c = '\n' then ['\n'] :: linesWithEnds rest
    else
      match linesWithEnds rest with
      | [] => [[c]]
      | line :: lines => (c :: line) :: lines

/-- The last reference among lines, and the text without it. -/
def lastReference? : List Text → Option (Text × Text)
  | [] => none
  | line :: rest =>
    match lastReference? rest with
    | some (name, cleaned) => some (name, line ++ cleaned)
    | none =>
      (readReference? line).map fun (name, left) => (name, left ++ rest.flatten)

/-- The last reference of a text, and the text without that comment. -/
def findReference? (t : Text) : Option (Text × Text) := lastReference? (linesWithEnds t)

/-! ## Where the map is -/

/-- What a reference points at: Base64 digits that it carries itself, or a
file. -/
inductive Location where
  | carried (digits : Text)
  | file (path : Text)

/-- The beginnings of a reference that carries its map. -/
def dataHeads : List Text :=
  ["data:application/json;charset=utf-8;base64,", "data:application/json;charset:utf-8;base64,",
    "data:application/json;base64,"]

/-- Where the map that a file names is; paths are seen from the file. -/
def locate (file name : Text) : Location :=
  match dataHeads.findSome? (Text.dropStart? · name) with
  | some (d :: digits) => .carried (d :: digits)
  | _ => .file (Path.canonical (Path.join (Path.directory file) name))

/-- The directory that the sources of a map are seen from. -/
def Location.base (file : Text) : Location → Text
  | .carried _ => Path.directory file
  | .file path => Path.directory path

end SourceMerge.Mapping
