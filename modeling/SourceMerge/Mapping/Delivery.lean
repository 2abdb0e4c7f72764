import SourceMerge.Text.CaseMap
import SourceMerge.Text.Utf8
import SourceMerge.Base64
import SourceMerge.Path
import SourceMerge.Hook

/-!
# SourceMerge.Mapping.Delivery

How a finished map reaches its reader.  An *embedded* map is a file that holds
the sources, a *linked* one a file that only names them, and an *inline* map is
carried by the output itself.  The output ends with a comment that says where
its map is.
-/

namespace SourceMerge.Mapping

/-- The ways to deliver a map. -/
inductive Delivery where
  | embed
  | inline
  | link
  deriving DecidableEq

namespace Delivery

/-- The name of a way. -/
def name : Delivery → Text
  | .embed => "embed"
  | .inline => "inline"
  | .link => "link"

/-- All ways in the order of their names. -/
def all : List Delivery := [.embed, .inline, .link]

/-- The names of all ways, as a message lists them. -/
def choices : Text := Text.joinWith ", " (all.map name)

/-- The way of a name, in whatever case it is written. -/
def ofName? (t : Text) : Option Delivery := all.find? (·.name == Text.lower t)

/-- The wording of the fault that a name names no way. -/
def unknownMessage (t : Text) : Text :=
  "Unknown source map style '" ++ t ++ "' (expected one of: " ++ choices ++ ")"

/-- Whether the map holds the contents of the sources. -/
def embedsSources : Delivery → Bool
  | .link => false
  | _ => true

/-- Whether the map is a file. -/
def isFile : Delivery → Bool
  | .inline => false
  | _ => true

/-- A path as seen from a directory, unless there is no path. -/
def relativeUrl? (workingDirectory path start : Text) : Option Text :=
  if path = [] then none else some (Path.relativeTo workingDirectory start path)

/-- The beginning of a reference that carries its map. -/
def carriedHead : Text := "data:application/json;charset=utf-8;base64,"

/-- What the output says about where its map is. -/
def url? (delivery : Delivery) (workingDirectory dest mapPath serialized : Text) : Option Text :=
  match delivery with
  | .inline => some (carriedHead ++ Base64.encode (Text.toUtf8 serialized))
  | _ => relativeUrl? workingDirectory mapPath (Path.directory dest)

end Delivery

/-- The comment that ends an output: a block comment in style sheets, else a
line comment. -/
def referenceComment (dest url : Text) : Text :=
  if Text.lower (Path.extension dest) = ".css" then
    "\n/*# sourceMappingURL=" ++ url ++ " */"
  else "\n//# sourceMappingURL=" ++ url

/-! ## Where the map is stored -/

/-- How the path of a map is found. -/
inductive MapName where
  /-- The output's path with `.map` behind it. -/
  | beside
  /-- A fixed path; an empty one is none. -/
  | fixed (path : Text)
  /-- A function of the output's path. -/
  | computed (hook : Hook)

/-- The path of a map that stands beside its output. -/
def besidePath (dest : Text) : Text := dest ++ ".map"

/-- The path that a name gives to the map of an output, if it gives one. -/
def MapName.path? (name : MapName) (dest : Text) : Except HookFault (Option Text) :=
  match name with
  | .beside => .ok (some (besidePath dest))
  | .fixed path => .ok (some (if path = [] then besidePath dest else path))
  | .computed hook => hook.call [dest]

/-- A path that was found, or the one beside the output where it is missing or
empty. -/
def orBeside (dest : Text) (path : Option Text) : Text :=
  match path with
  | some (c :: rest) => c :: rest
  | _ => besidePath dest

end SourceMerge.Mapping
