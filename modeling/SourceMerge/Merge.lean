import SourceMerge.Options
import SourceMerge.Graph.Cascade
import SourceMerge.Graph.Diagnostic
import SourceMerge.Mapping.Recorder

/-!
# SourceMerge.Merge

One merge: the sources are read and changed as the options say, put in order,
written between banner and footer, and mapped.  Whatever can fail before the
first file is written fails without a trace in the files: the map is stored
only when it is finished, and the output after it.
-/

namespace SourceMerge

/-- Why a merge ends without an outcome. -/
inductive MergeFault where
  /-- A map that only names its sources is asked for, but the sources are
  changed. -/
  | conflict (label : Text)
  | unknownStyle (name : Text)
  | render (fault : RenderFault)
  | hook (fault : HookFault)
  /-- A function ended without a text. -/
  | noText
  | store (fault : StoreFault)
  | inherited (fault : Mapping.InheritedFault)
  | record (fault : Mapping.RecordFault)
  /-- A path that has to be written relative to another is empty. -/
  | emptyPath
  | cascade (fault : Graph.CascadeFault)

/-- The result of a merge. -/
structure Outcome where
  dest : Text
  /-- The paths of the units in the output, in order. -/
  emitted : List Text
  diagnostics : List Diagnostic := []
  /-- Where the map was stored, if it is a file. -/
  mapPath : Option Text := none

namespace Outcome

/-- The paths of the units that were left out. -/
def excluded (o : Outcome) : List Text :=
  (o.diagnostics.filter (·.kind = .sourceExcluded)).map (·.path)

/-- An outcome with a notice in front of its diagnostics. -/
def withNotice (o : Outcome) (notice : Option Diagnostic) : Outcome :=
  { o with diagnostics := notice.toList ++ o.diagnostics }

end Outcome

namespace Merge

variable {m : Type → Type} [Monad m] [FileStore m] [Journal m]

/-- The part of the program that speaks here. -/
def speaker : Text := "orchestrator"

/-! ## Conflicts -/

/-- Whether the options ask for a map that would not fit the sources. -/
def conflicts (o : Options) : Bool :=
  o.sourceMap && o.mapStyle == "link".toList && o.mutatesContent

/-- What is to be said about a conflict. -/
def conflictText : Text :=
  "strip_banners or process option is enabled. Set source_map_style to 'embed' or 'inline'."

/-- The message about a conflict. -/
def conflictMessage (label : Text) : Text := label ++ ": " ++ conflictText

/-- The notice that there is no map because of a conflict. -/
def disabledNotice (label : Text) : Diagnostic :=
  { kind := .sourceMapDisabled
    path := label
    message := conflictText ++ " Skipping creation of source maps." }

/-- The options to go on with: conflicting ones are refused or, by force, lose
their map. -/
def checkSourceMap (o : Options) (force : Bool) (label : Text) :
    ExceptT MergeFault m (Options × Option Diagnostic) :=
  if !conflicts o then pure (o, none)
  else if !force then do
    (report .warning speaker (conflictMessage label) : m Unit)
    throw (.conflict label)
  else do
    (report .warning speaker (disabledNotice label).message : m Unit)
    pure ({ o with sourceMap := false }, some (disabledNotice label))

/-! ## Sources -/

/-- What has been loaded so far. -/
structure Loaded where
  /-- The text of each source; a function may have ended without one. -/
  contents : Table (Option Text) := []
  recorder : Option Mapping.Recorder := none
  missing : List Diagnostic := []

/-- A text that a function has to have given. -/
def requireText (t : Option Text) : Except MergeFault Text :=
  match t with
  | some t => .ok t
  | none => .error .noText

/-- The fault of a process as a fault of a merge. -/
def ofTransformFault : TransformFault → MergeFault
  | .hook fault => .hook fault
  | .render fault => .render fault

/-- A source as the options change it. -/
def prepare (o : Options) (r : Rendering m) (path content : Text) :
    ExceptT MergeFault m (Option Text) := do
  let processed ← (o.process.apply r content path).adapt ofTransformFault
  match o.stripBanners with
  | none => return processed
  | some kinds => return some (Banner.strip kinds (← requireText processed))

/-- Reads a source and registers it for the map. -/
def loadOne (o : Options) (r : Rendering m) (l : Loaded) (path : Text) :
    ExceptT MergeFault m Loaded := do
  let text ← (← ExceptT.lift (FileStore.read path)).mapError MergeFault.store
  let content ← prepare o r path text
  match l.recorder with
  | none => pure { l with contents := l.contents.insert (Path.canonical path) content }
  | some recorder => do
    let content ← requireText content
    let (cleaned, recorder) ← (recorder.register path content).adapt MergeFault.inherited
    pure { l with
      contents := l.contents.insert (Path.canonical path) (some cleaned)
      recorder := some recorder }

/-- Goes through the sources: missing ones are noted, directories passed
over. -/
def loadAll (o : Options) (r : Rendering m) (l : Loaded) : List Text → ExceptT MergeFault m Loaded
  | [] => pure l
  | path :: rest => do
    if !(← (FileStore.contains path : m Bool)) then
      loadAll o r { l with missing := l.missing ++ [Diagnostic.missingSource path] } rest
    else if ← (FileStore.isDirectory path : m Bool) then do
      (report .debug speaker ("Skipping directory " ++ path) : m Unit)
      loadAll o r l rest
    else do
      let l ← loadOne o r l path
      loadAll o r l rest

/-! ## The map -/

/-- The recorder of a merge, if it is mapped. -/
def startRecorder (o : Options) (dest : Text) : Except MergeFault (Option Mapping.Recorder) :=
  if !o.sourceMap then .ok none
  else
    match Mapping.Delivery.ofName? o.mapStyle with
    | none => .error (.unknownStyle o.mapStyle)
    | some delivery =>
      match o.mapName.path? dest with
      | .error fault => .error (.hook fault)
      | .ok path => .ok (some (Mapping.Recorder.start dest delivery path))

/-- Records units with separators between them. -/
def recordUnits (separator : Text) (r : Mapping.Recorder) (first : Bool) :
    List SourceText → Except MergeFault Mapping.Recorder
  | [] => .ok r
  | u :: rest =>
    match (if first then r else r.add separator).addUnit u with
    | (r, none) => recordUnits separator r false rest
    | (_, some fault) => .error (.record fault)

/-- Records everything that is written. -/
def recordOutput (o : Options) (banner footer : Text) (units : List SourceText)
    (r : Mapping.Recorder) : Except MergeFault Mapping.Recorder :=
  (recordUnits o.separator (r.add banner) true units).map (·.add footer)

/-- The fault of a map as a fault of a merge. -/
def ofFinishFault : Mapping.Recorder.FinishFault → MergeFault
  | .emptyPath => .emptyPath
  | .unwritable fault => .store fault

/-! ## The merge -/

/-- The graph of source texts, with a report of what was found. -/
def buildGraph (root marker : Text) (contents : List (Text × Text)) : m Graph := do
  let g := Graph.build root marker contents
  reportAll .debug "graph" (Graph.buildNotes contents g)
  pure g

/-- Orders the units of a graph, with a report of how many there were. -/
def assembleGraph (separator : Text) (g : Graph) : m (Except Graph.CascadeFault Graph.Assembly) := do
  match g.assemble separator with
  | .ok a =>
    report .debug "graph" a.note
    pure (.ok a)
  | .error fault => pure (.error fault)

/-- The note on a written output. -/
def createdNote (dest : Text) (written total : Nat) : Text :=
  "File " ++ dest ++ " created (" ++ Text.ofNat written ++ " of " ++ Text.ofNat total ++ " sources)."

/-- Explains the units that were left out, and says so. -/
def explainExcluded (g : Graph) : m (List Diagnostic) := do
  let present ← g.awaited.filterM FileStore.contains
  let found := g.diagnose (· ∈ present)
  reportAll .warning "diagnostics" (found.map (·.message))
  pure found

/-- Stores the map, if there is one; the answer is the comment that ends the
output and the path of the map. -/
def finishMap (o : Options) (banner footer : Text) (units : List SourceText)
    (recorder : Option Mapping.Recorder) : ExceptT MergeFault m (Text × Option Text) := do
  match recorder with
  | none => pure ([], none)
  | some r => do
    let r ← recordOutput o banner footer units r
    let (comment, r) ← (r.finish).adapt ofFinishFault
    pure (comment, if r.written then some r.mapPath else none)

/-- Merges sources into an output, with options that do not conflict. -/
def mergeInto (dest : Text) (sources : List Text) (o : Options) (r : Rendering m) :
    ExceptT MergeFault m Outcome := do
  let banner ← (r.render o.banner [] "banner").adapt MergeFault.render
  let footer ← (r.render o.footer [] "footer").adapt MergeFault.render
  let recorder ← startRecorder o dest
  let loaded ← loadAll o r { recorder := recorder } sources
  (reportAll .warning "diagnostics" (loaded.missing.map (·.message)) : m Unit)
  let contents ← loaded.contents.mapM fun e => (requireText e.2).map (e.1, ·)
  let g ← (buildGraph o.root Directive.defaultMarker contents : m Graph)
  let a ← (← ExceptT.lift (assembleGraph o.separator g)).mapError MergeFault.cascade
  let excluded ← (explainExcluded a.graph : m (List Diagnostic))
  let (comment, mapPath) ← finishMap o banner footer a.units loaded.recorder
  match ← ExceptT.lift (FileStore.write dest (banner ++ a.output ++ footer ++ comment)) with
  | .error fault => throw (.store fault)
  | .ok _ =>
    (report .info speaker (createdNote dest a.units.length loaded.contents.length) : m Unit)
    pure
      { dest := dest
        emitted := a.units.map (·.path)
        diagnostics := loaded.missing ++ excluded
        mapPath := mapPath }

/-- Merges sources into an output. -/
def merge (dest : Text) (sources : List Text) (o : Options) (force : Bool) (r : Rendering m) :
    ExceptT MergeFault m Outcome := do
  let (o, notice) ← checkSourceMap o force dest
  let outcome ← mergeInto dest sources o r
  pure (outcome.withNotice notice)

end Merge

end SourceMerge
