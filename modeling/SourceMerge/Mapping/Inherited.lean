import SourceMerge.Data
import SourceMerge.Json.Parser
import SourceMerge.Base64
import SourceMerge.Text.Utf8
import SourceMerge.Path
import SourceMerge.Store
import SourceMerge.Log
import SourceMerge.Mapping.Segment
import SourceMerge.Mapping.Reference

/-!
# SourceMerge.Mapping.Inherited

The source map that an input file brings along.  A file that was generated
itself names a map of its own; its segments are decoded here, and its sources
become paths seen from where the map is.  A map that cannot be used is ignored
with a warning, and the comment that names it is removed in any case.
-/

namespace SourceMerge.Mapping

/-- The decoded map of an input file. -/
structure InheritedMap where
  /-- The paths of the sources. -/
  sources : List Text
  /-- What the sources hold, as far as the map says; at least one entry for each
  source. -/
  contents : List Data
  /-- The segments of each line of the input file. -/
  lines : List (List Segment)

/-- The segments of a line, counted from one; lines beyond the map have none. -/
def InheritedMap.segmentsFor (map : InheritedMap) (line : Int) : List Segment :=
  if 1 ≤ line then map.lines.getD (line - 1).toNat [] else []

/-- Why the map of an input file is not used. -/
inductive InheritedFault where
  | unreadable (fault : StoreFault)
  | undecodable
  | notJson
  | wrongVersion
  | wrongShape
  | badMappings (fault : QuantityFault)
  /-- The mappings are no text.  This fault is not met with a warning: it ends
  the merge. -/
  | mappingsNotText

/-- The reason that a warning gives, where it gives one. -/
def InheritedFault.reason? : InheritedFault → Option Text
  | .wrongVersion => some "only version 3 source maps are supported"
  | .badMappings fault => some fault.message
  | _ => none

/-! ## Reading the document -/

/-- The items of a value that can be walked through: a list, the characters of
a text or the keys of a mapping. -/
def itemsOf? : Data → Option (List Data)
  | .list items => some items
  | .text t => some (t.map fun c => .text [c])
  | .map entries => some (entries.map (·.1))
  | _ => none

/-- The root that sources are below: nothing unless the map names one. -/
def rootOf (document : Data) : Data :=
  match document.field? "sourceRoot" with
  | some d => if d.truthy then d else .text []
  | none => .text []

/-- The path of one source. -/
def sourcePath? (base : Text) (root source : Data) : Option Text :=
  match root, source with
  | .text root, .text source =>
    some (Path.canonical (Path.join (Path.join base root) source))
  | _, _ => none

/-- The paths of all sources. -/
def sourcesOf? (base : Text) (document : Data) : Option (List Text) :=
  match itemsOf? ((document.field? "sources").getD (.list [])) with
  | none => none
  | some items => items.mapM (sourcePath? base (rootOf document))

/-- The contents of the sources; missing ones are `null`. -/
def contentsOf? (count : Nat) (document : Data) : Option (List Data) :=
  let given := (document.field? "sourcesContent").getD .null
  match if given.truthy then itemsOf? given else some [] with
  | none => none
  | some items => some (items ++ List.replicate (count - items.length) .null)

/-- The map that a JSON document describes; sources are seen from `base`. -/
def InheritedMap.ofDocument (base : Text) (document : Data) :
    Except InheritedFault InheritedMap :=
  match document with
  | .map _ =>
    if ((document.field? "version").getD .null).same (.int 3) then
      match sourcesOf? base document with
      | none => .error .wrongShape
      | some sources =>
        match contentsOf? sources.length document with
        | none => .error .wrongShape
        | some contents =>
          match (document.field? "mappings").getD (.text []) with
          | .text mappings =>
            match decodeMappings mappings with
            | .error fault => .error (.badMappings fault)
            | .ok lines => .ok ⟨sources, contents, lines⟩
          | _ => .error .mappingsNotText
    else .error .wrongVersion
  | _ => .error .wrongVersion

/-- The map that a text of JSON describes. -/
def InheritedMap.ofText (base t : Text) : Except InheritedFault InheritedMap :=
  match Json.parse? t with
  | none => .error .notJson
  | some document => InheritedMap.ofDocument base document

/-- The text that Base64 digits carry. -/
def carriedText (digits : Text) : Except InheritedFault Text :=
  match Base64.decode? digits with
  | none => .error .undecodable
  | some bytes =>
    match Text.ofUtf8? bytes with
    | none => .error .undecodable
    | some t => .ok t

/-- The text of a map, wherever it is. -/
def Location.fetch {m : Type → Type} [Monad m] [FileStore m] (location : Location) :
    m (Except InheritedFault Text) :=
  match location with
  | .carried digits => pure (carriedText digits)
  | .file path => do return (← FileStore.read path).mapError .unreadable

/-- The map of a file, wherever it is. -/
def Location.load {m : Type → Type} [Monad m] [FileStore m] (file : Text) (location : Location) :
    m (Except InheritedFault InheritedMap) := do
  return (← location.fetch).bind (InheritedMap.ofText (location.base file))

/-! ## Taking the map of a file -/

/-- The part of the program that speaks here. -/
def speaker : Text := "sourcemap"

/-- The warning about a map that is not used. -/
def ignoredNote (file : Text) (fault : InheritedFault) : Text :=
  "Ignoring source map referenced by \"" ++ file ++ "\"" ++
    match fault.reason? with
    | some reason => ": " ++ reason
    | none => []

/-- The note on a map that is used. -/
def loadedNote (file : Text) (map : InheritedMap) : Text :=
  "Loaded upstream source map for " ++ file ++ " (" ++ Text.ofNat map.sources.length ++ " sources)"

/-- What becomes of a file that may name a map: its text without the reference,
and the map if it can be used. -/
def inherit {m : Type → Type} [Monad m] [FileStore m] [Journal m] (content file : Text) :
    ExceptT InheritedFault m (Text × Option InheritedMap) :=
  match findReference? content with
  | none => pure (content, none)
  | some (name, cleaned) => do
    match ← ExceptT.lift ((locate file name).load file) with
    | .ok map =>
      (report .debug speaker (loadedNote file map) : m Unit)
      pure (cleaned, some map)
    | .error .mappingsNotText => throw .mappingsNotText
    | .error fault =>
      (report .warning speaker (ignoredNote file fault) : m Unit)
      pure (cleaned, none)

end SourceMerge.Mapping
