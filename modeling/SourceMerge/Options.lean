import SourceMerge.Banner
import SourceMerge.Transform
import SourceMerge.Path
import SourceMerge.Text.CaseMap
import SourceMerge.Text.Blank
import SourceMerge.Mapping.Delivery

/-!
# SourceMerge.Options

The settings of a merge, and how they are read from a configuration.  Options
go by a name in one of two spellings.  Each value is checked for itself, in a
fixed order, and the first one that does not fit is the fault.  Paths are seen
from the directory of the project.
-/

namespace SourceMerge

/-- The settings of a merge. -/
structure Options where
  /-- Stands between the sources. -/
  separator : Text := ['\n']
  banner : Text := []
  footer : Text := []
  /-- Which leading comments are taken off the sources. -/
  stripBanners : Option BannerKinds := none
  process : Transform := .keep
  sourceMap : Bool := false
  mapName : Mapping.MapName := .beside
  /-- The name of the way in which the map is delivered. -/
  mapStyle : Text := "embed"
  /-- The directory that references beginning with a slash are seen from. -/
  root : Text := ['.']

/-- Whether sources reach the merge changed from what their files hold. -/
def Options.mutatesContent (o : Options) : Bool := o.stripBanners.isSome || o.process.isActive

/-! ## Names -/

/-- The names of the options. -/
inductive OptionName where
  | separator
  | banner
  | footer
  | stripBanners
  | process
  | sourceMap
  | mapName
  | mapStyle
  | root
  deriving DecidableEq

/-- The spellings of the names; an option with two is listed twice. -/
def OptionName.spellings : List (Text × OptionName) :=
  [("separator", .separator), ("banner", .banner), ("footer", .footer),
    ("strip_banners", .stripBanners), ("stripBanners", .stripBanners), ("process", .process),
    ("source_map", .sourceMap), ("sourceMap", .sourceMap), ("source_map_name", .mapName),
    ("sourceMapName", .mapName), ("source_map_style", .mapStyle), ("sourceMapStyle", .mapStyle),
    ("root", .root)]

/-- The option that a key names. -/
def OptionName.ofKey? : Data → Option OptionName
  | .text t => OptionName.spellings.lookup t
  | _ => none

/-! ## Values and faults -/

/-- A value given for an option: data, or what only a program can give. -/
inductive OptionValue where
  | data (d : Data)
  | hook (h : Hook)
  | transform (t : Transform)

/-- What is wrong with an option. -/
inductive OptionCause where
  | unknown (key : Text)
  | notText (key : Text)
  | stripBanners
  | process
  | processReference (reference : Text) (fault : ReferenceFault)
  | sourceMap
  | mapStyle
  | mapName
  | root
  /-- An integer has too many digits to be written. -/
  | overlong

/-- What is wrong with a key that names no option. -/
def OptionCause.ofKey (key : Data) : OptionCause :=
  match key.display? with
  | some t => .unknown t
  | none => .overlong

/-- Whether the configuration is at fault.  With a reference to a relative module
it is not, for that cannot even be looked up, and neither is it with an integer
that cannot be written. -/
def OptionCause.isOfConfiguration : OptionCause → Bool
  | .processReference _ .relativeModule => false
  | .overlong => false
  | _ => true

/-- A fault of the options of a context. -/
structure OptionFault where
  context : Text
  cause : OptionCause

namespace OptionFault

/-- Whether the fault is one of the configuration. -/
def isOfConfiguration (f : OptionFault) : Bool := f.cause.isOfConfiguration

/-- The wording of the fault. -/
def message (f : OptionFault) : Text :=
  f.context ++ ": " ++
    match f.cause with
    | .unknown key => "unknown option '" ++ key ++ "'"
    | .notText key => "'" ++ key ++ "' must be a string"
    | .stripBanners => "'strip_banners' must be a boolean or a mapping"
    | .process => "'process' must be a boolean, a mapping or 'module:function'"
    | .processReference reference fault =>
      "cannot load process function '" ++ reference ++ "': " ++ fault.message
    | .sourceMap => "'source_map' must be a boolean"
    | .mapStyle => "'source_map_style' must be one of " ++ Mapping.Delivery.choices
    | .mapName => "'source_map_name' must be a path"
    | .root => "'root' must be a path"
    | .overlong => "an integer has too many digits"

end OptionFault

/-! ## Reading single values -/

namespace Data

/-- Why a value gives no text. -/
inductive TextFault where
  /-- Values of this kind give none. -/
  | notText
  /-- An integer has too many digits to be written. -/
  | overlong
  deriving DecidableEq

/-- The text that a text or a number gives; a boolean gives none. -/
def asText : Data → Except TextFault Text
  | .text t => .ok t
  | .int n => if isShort n then .ok (Text.ofInt n) else .error .overlong
  | .float x => .ok (Decimal.ofFloat x)
  | _ => .error .notText

/-- The words for true. -/
def trueWords : List Text := ["true", "yes", "1"]

/-- The words for false. -/
def falseWords : List Text := ["false", "no", "0"]

/-- The boolean that a boolean or a word gives. -/
def asBool? : Data → Option Bool
  | .bool b => some b
  | .text t =>
    let word := Text.lower (Text.trim t)
    if word ∈ trueWords then some true else if word ∈ falseWords then some false else none
  | _ => none

/-- The entries of a mapping; other values have none. -/
def entries : Data → Entries
  | .map entries => entries
  | _ => []

/-- The text that an item of a list of texts gives; here a boolean gives one,
and what gives none is passed over. -/
def itemText (d : Data) : Except TextFault (Option Text) :=
  match d with
  | .bool b => .ok (some (display (.bool b)))
  | d =>
    match d.asText with
    | .ok t => .ok (some t)
    | .error .notText => .ok none
    | .error .overlong => .error .overlong

/-- The texts that a text or a sequence gives. -/
def asTexts : Data → Except TextFault (List Text)
  | .text t => .ok [t]
  | .list items => do return (← items.mapM itemText).filterMap id
  | .other v => .ok (v.bytes.map Text.ofNat)
  | _ => .ok []

end Data

/-! ## Reading options -/

namespace Options

/-- Values by option, each in the place where the option first appeared. -/
abbrev Values := List (OptionName × OptionValue)

/-- The value of an option. -/
def Values.get? (vs : Values) (n : OptionName) : Option OptionValue := vs.lookup n

/-- Sets the value of an option. -/
def Values.insert (vs : Values) (n : OptionName) (v : OptionValue) : Values :=
  match vs with
  | [] => [(n, v)]
  | row :: rest => if row.1 = n then (n, v) :: rest else row :: Values.insert rest n v

/-- Puts a value where its key says; a key that names no option is a fault. -/
def Values.place (context : Text) (vs : Values) (e : Data × OptionValue) :
    Except OptionFault Values :=
  match OptionName.ofKey? e.1 with
  | some n => .ok (vs.insert n e.2)
  | none => .error ⟨context, .ofKey e.1⟩

/-- The values of options by name. -/
def Values.ofEntries (context : Text) (given : List (Data × OptionValue)) :
    Except OptionFault Values :=
  given.foldlM (Values.place context) []

/-- The first values overlaid by the second. -/
def Values.overlay (base upper : Values) : Values :=
  upper.foldl (fun vs row => vs.insert row.1 row.2) base

/-- A text, where nothing counts as the empty one. -/
def readText (key : Text) : OptionValue → Except OptionCause Text
  | .data .null => .ok []
  | .data (.text t) => .ok t
  | _ => .error (.notText key)

/-- Which banners are taken off. -/
def readStripBanners : OptionValue → Except OptionCause (Option BannerKinds)
  | .data .null => .ok none
  | .data (.bool false) => .ok none
  | .data (.bool true) => .ok (some {})
  | .data (.map entries) =>
    let flag (key : Text) : Bool := ((Entries.get? entries (.text key)).bind Data.asBool?).getD false
    .ok (some { block := flag "block", line := flag "line" })
  | _ => .error .stripBanners

/-- What is done to the sources. -/
def readProcess (modules : List HookModule) : OptionValue → Except OptionCause Transform
  | .data .null => .ok .keep
  | .data (.bool false) => .ok .keep
  | .data (.bool true) => .ok (.template [])
  | .data (.map entries) => .ok (.template ((Entries.get? entries (.text "data")).getD .null).entries)
  | .data (.text reference) =>
    match Hook.find modules reference with
    | .ok hook => .ok (.function hook)
    | .error fault => .error (.processReference reference fault)
  | .transform t => .ok t
  | .hook h => .ok (.function h)
  | _ => .error .process

/-- Whether there is a map. -/
def readSourceMap : OptionValue → Except OptionCause Bool
  | .data d =>
    match d.asBool? with
    | some b => .ok b
    | none => .error .sourceMap
  | _ => .error .sourceMap

/-- The name of a way to deliver the map, in lower case. -/
def readMapStyle : OptionValue → Except OptionCause Text
  | .data d =>
    match d.asText with
    | .ok t =>
      if (Mapping.Delivery.ofName? t).isSome then .ok (Text.lower t) else .error .mapStyle
    | .error .notText => .error .mapStyle
    | .error .overlong => .error .overlong
  | _ => .error .mapStyle

/-- Where the map is stored. -/
def readMapName (base : Option Text) : OptionValue → Except OptionCause Mapping.MapName
  | .data .null => .ok .beside
  | .data (.text t) => .ok (.fixed (Path.anchored base t))
  | .hook h => .ok (.computed h)
  | _ => .error .mapName

/-- The directory that references are seen from. -/
def readRoot (base : Option Text) : OptionValue → Except OptionCause Text
  | .data d =>
    match d.asText with
    | .ok t => .ok (Path.anchored base t)
    | .error .notText => .error .root
    | .error .overlong => .error .overlong
  | _ => .error .root

/-- The value of an option, read if it is given. -/
def readOr {α : Type} (vs : Values) (n : OptionName) (default : α)
    (read : OptionValue → Except OptionCause α) : Except OptionCause α :=
  match vs.get? n with
  | some v => read v
  | none => .ok default

/-- The options that values give; `base` is the directory of the project. -/
def read (modules : List HookModule) (base : Option Text) (vs : Values) :
    Except OptionCause Options := do
  let defaults : Options := {}
  let separator ← readOr vs .separator defaults.separator (readText "separator")
  let banner ← readOr vs .banner defaults.banner (readText "banner")
  let footer ← readOr vs .footer defaults.footer (readText "footer")
  let stripBanners ← readOr vs .stripBanners defaults.stripBanners readStripBanners
  let process ← readOr vs .process defaults.process (readProcess modules)
  let sourceMap ← readOr vs .sourceMap defaults.sourceMap readSourceMap
  let mapStyle ← readOr vs .mapStyle defaults.mapStyle readMapStyle
  let mapName ← readOr vs .mapName defaults.mapName (readMapName base)
  let root ← readOr vs .root (base.getD defaults.root) (readRoot base)
  return { separator, banner, footer, stripBanners, process, sourceMap, mapName, mapStyle, root }

/-- The options that a configuration gives. -/
def ofEntries (modules : List HookModule) (base : Option Text) (context : Text)
    (given : List (Data × OptionValue)) : Except OptionFault Options := do
  let vs ← Values.ofEntries context given
  (read modules base vs).mapError (⟨context, ·⟩)

end Options

end SourceMerge
