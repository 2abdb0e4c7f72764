import SourceMerge.Options
import SourceMerge.Store
import SourceMerge.Yaml.Node

/-!
# SourceMerge.Project

A project: targets, each a group of outputs with one set of options, and data
for the templates.  It is described by a YAML file at its root; a project
without that file has no targets.  Options of a target come on top of those of
the project, and paths are seen from the root.

What reads YAML is no part of this: loading takes a reader, and
`Project.plainReader` is one for the usual documents.
-/

namespace SourceMerge

/-- An output and the patterns that choose its sources. -/
structure Destination where
  dest : Text
  patterns : List Text
  /-- A pattern that matches nothing stands for itself. -/
  nonull : Bool := false
  /-- The directory that patterns are seen from. -/
  base : Text := []

/-- A named group of outputs that share their options. -/
structure Target where
  name : Text
  destinations : List Destination
  options : Options := {}

/-- What a configuration file says. -/
structure Project where
  root : Text
  data : Entries := []
  targets : List Target := []

/-- The name of the configuration file. -/
def configName : Text := ".oconcat.yml"

/-! ## Faults -/

/-- What is wrong with a configuration, or with what is asked of it. -/
inductive ProjectFault where
  | option (fault : OptionFault)
  /-- The file is no YAML. -/
  | notYaml (file : Text)
  /-- The reader of the file gave up for a reason of its own. -/
  | unread
  /-- An integer has too many digits to be written. -/
  | overlong
  | notMapping
  | targetsNotMapping
  | targetNotMapping (name : Text)
  | filesNotMapping (name : Text)
  | noDest (name : Text)
  | noDestinations (name : Text)
  | unknownTargets (names : List Text)

namespace ProjectFault

/-- Whether the fault is one of the configuration. -/
def isOfConfiguration : ProjectFault → Bool
  | .option fault => fault.isOfConfiguration
  | .unread => false
  | .overlong => false
  | _ => true

/-- The wording of the fault. -/
def message : ProjectFault → Text
  | .option fault => fault.message
  | .notYaml file => "Failed to parse " ++ file
  | .unread => "the configuration cannot be read"
  | .overlong => "an integer has too many digits"
  | .notMapping => configName ++ " must contain a mapping at the root"
  | .targetsNotMapping => "'targets' must be a mapping of target names to settings"
  | .targetNotMapping name => "Target '" ++ name ++ "' must be a mapping"
  | .filesNotMapping name =>
    "Target '" ++ name ++ "': 'files' must map destinations to sources"
  | .noDest name => "Target '" ++ name ++ "': 'src' requires a 'dest'"
  | .noDestinations name => "Target '" ++ name ++ "' defines no destination files"
  | .unknownTargets names => "Unknown targets requested: " ++ Text.joinWith ", " names

end ProjectFault

namespace Project

/-! ## Reading a configuration -/

/-- The value of a key; a missing key counts as `null`. -/
def value (entries : Entries) (key : Text) : Data := (Entries.get? entries (.text key)).getD .null

/-- An output at a path seen from the root. -/
def destinationOf (root : Text) (nonull : Bool) (dest : Text) (patterns : Data) :
    Except ProjectFault Destination := do
  let patterns ← patterns.asTexts.mapError fun _ => .overlong
  return { dest := Path.anchored (some root) dest, patterns, nonull, base := root }

/-- A key as it is written in texts and paths. -/
def keyText (key : Data) : Except ProjectFault Text :=
  match key.display? with
  | some t => .ok t
  | none => .error .overlong

/-- The outputs listed under `files`. -/
def listedDestinations (root name : Text) (nonull : Bool) (files : Data) :
    Except ProjectFault (List Destination) :=
  match files with
  | .null => .ok []
  | .map entries => entries.mapM fun e => do destinationOf root nonull (← keyText e.1) e.2
  | _ => .error (.filesNotMapping name)

/-- The output given by `dest` and `src`, if one of them is there. -/
def singleDestination (root name : Text) (nonull : Bool) (settings : Entries) :
    Except ProjectFault (List Destination) :=
  if (Entries.get? settings (.text "dest")).isNone ∧
      (Entries.get? settings (.text "src")).isNone then
    .ok []
  else
    match (value settings "dest").asText with
    | .ok (c :: dest) => do
      return [← destinationOf root nonull (c :: dest) (value settings "src")]
    | .error .overlong => .error .overlong
    | _ => .error (.noDest name)

/-- All outputs of a target; there has to be one. -/
def destinationsOf (root name : Text) (settings : Entries) :
    Except ProjectFault (List Destination) := do
  let nonull := (value settings "nonull").asBool?.getD false
  let listed ← listedDestinations root name nonull (value settings "files")
  let single ← singleDestination root name nonull settings
  if listed ++ single = [] then throw (.noDestinations name)
  return listed ++ single

/-- Options as values; `context` names where they stand. -/
def optionValues (context : Text) (options : Data) : Except ProjectFault Options.Values :=
  (Options.Values.ofEntries context (options.entries.map fun e => (e.1, .data e.2))).mapError .option

/-- One target, with the options of the project under its own. -/
def targetOf (modules : List HookModule) (root : Text) (defaults : Options.Values)
    (key settings : Data) : Except ProjectFault Target := do
  let name ← keyText key
  match settings with
  | .map settings =>
    let own ← optionValues ("targets." ++ name ++ ".options") (value settings "options")
    let options ← (Options.read modules (some root) (Options.Values.overlay defaults own)).mapError
      fun cause => .option ⟨name, cause⟩
    let destinations ← destinationsOf root name settings
    return { name, destinations, options }
  | _ => throw (.targetNotMapping name)

/-- The project that the value of a configuration file describes. -/
def ofData (modules : List HookModule) (root : Text) (document : Data) :
    Except ProjectFault Project := do
  match document with
  | .map entries =>
    let defaults ← optionValues "options" (value entries "options")
    match value entries "targets" with
    | .null => return { root, data := (value entries "data").entries }
    | .map targets =>
      let targets ← targets.mapM fun e => targetOf modules root defaults e.1 e.2
      return { root, data := (value entries "data").entries, targets }
    | _ => throw .targetsNotMapping
  | _ => throw .notMapping

/-- Why a reader gives no value for a text. -/
inductive ReadFault where
  /-- The text is not well formed. -/
  | malformed
  /-- The reader gave up for another reason, such as a day that does not exist. -/
  | refused

/-- What gives the value of a YAML document.  A value that holds itself is given
as a tree that is as deep as anybody looks. -/
abbrev Reader := Text → Except ReadFault Data

/-- The reader for documents of the usual kinds. -/
def plainReader : Reader := fun t =>
  match Yaml.parse? t with
  | some d => .ok d
  | none => .error .malformed

/-- The value of a configuration file: a file that holds nothing, or a value
that counts as false, is an empty mapping. -/
def documentOf (reader : Reader) (file t : Text) : Except ProjectFault Data :=
  if t.all Text.isBlank then .ok (.map [])
  else
    match reader t with
    | .error .malformed => .error (.notYaml file)
    | .error .refused => .error .unread
    | .ok d => .ok (if d.truthy then d else .map [])

/-- The project that the text of a configuration file describes. -/
def ofText (reader : Reader) (modules : List HookModule) (root file t : Text) :
    Except ProjectFault Project := do
  ofData modules root (← documentOf reader file t)

/-! ## Choosing targets -/

/-- The target of a name; of several the last one. -/
def find? (p : Project) (name : Text) : Option Target := p.targets.reverse.find? (·.name == name)

/-- The targets of some names in the order of the names, or all targets where
no name is given. -/
def select (p : Project) (names : List Text) : Except ProjectFault (List Target) :=
  if names = [] then .ok p.targets
  else
    match names.filter fun name => (p.find? name).isNone with
    | [] => .ok (names.filterMap p.find?)
    | unknown => .error (.unknownTargets unknown)

/-! ## Loading -/

/-- Why a project is not loaded. -/
inductive LoadFault where
  | project (fault : ProjectFault)
  | store (fault : StoreFault)
  /-- A path begins with `~`, but there is no such directory. -/
  | noHome

variable {m : Type → Type} [Monad m] [FileStore m] [FolderView m]

/-- A path with the home directory in place of `~`. -/
def expandHome (path : Text) : ExceptT LoadFault m Text := do
  let path := Path.tidy path
  match path with
  | '~' :: rest =>
    match rest, ← (FolderView.home : m (Option Text)) with
    | [], some home => pure home
    | '/' :: rest, some home => pure (Path.join home rest)
    | _, _ => throw .noHome
  | path => pure path

/-- The configuration file that a path means: the path itself, or the file of
that name in the directory. -/
def configFile (path : Text) : ExceptT LoadFault m Text := do
  let path ← expandHome path
  let here ← (FileStore.workingDirectory : m Text)
  if ← (FileStore.isDirectory path : m Bool) then
    pure (Path.located here (Path.join path configName))
  else pure (Path.located here path)

/-- The project of a directory or a configuration file. -/
def load (reader : Reader) (modules : List HookModule) (path : Text) :
    ExceptT LoadFault m Project := do
  let file ← configFile path
  let root := Path.directory file
  if ← (FileStore.contains file : m Bool) then do
    let t ← (← ExceptT.lift (FileStore.readMarked file)).mapError LoadFault.store
    (ofText reader modules root (Path.fileName file) t).mapError LoadFault.project
  else pure { root := root }

end Project

end SourceMerge
