import SourceMerge.CommandLine.Invocation
import SourceMerge.Log.Plan
import SourceMerge.Run

/-!
# SourceMerge.CommandLine

The commands of the program, in any surroundings.  A fault of the configuration
or of a template, or a conflict, is told in a line and ends the command with
exit code 1; a command line that makes no sense ends it with code 2.  Other
faults are not caught.
-/

namespace SourceMerge.CommandLine

/-- A fault that is not caught. -/
inductive ProgramFault where
  /-- The log file cannot be made. -/
  | log (fault : StoreFault)
  | load (fault : Project.LoadFault)
  | merge (fault : MergeFault)

/-! ## Texts -/

/-- What is said about a fault of the store. -/
def storeMessage : StoreFault → Text
  | .notFound => "no such file or directory"
  | .isDirectory => "is a directory"
  | .notDirectory => "not a directory"
  | .occupied => "a file is in the way of a directory"
  | .undecodable => "a file is not encoded as expected"
  | .unencodable => "a text cannot be encoded"

/-- What is said about a fault of a merge. -/
def mergeMessage : MergeFault → Text
  | .conflict label => Merge.conflictMessage label
  | .unknownStyle name => Mapping.Delivery.unknownMessage name
  | .render fault => fault.message
  | .hook _ => "a function failed"
  | .noText => "a function gave no text"
  | .store fault => storeMessage fault
  | .inherited _ => "a source map is malformed"
  | .record _ => "a segment of a source map has no source"
  | .emptyPath => "a path is empty"
  | .cascade _ => "a dependent is no source"

/-- What is said about a fault that is not caught. -/
def ProgramFault.message : ProgramFault → Text
  | .log fault => storeMessage fault
  | .load (.project fault) => fault.message
  | .load (.store fault) => storeMessage fault
  | .load .noHome => "the home directory is unknown"
  | .merge fault => mergeMessage fault

/-- A path as seen from the working directory, if it is below that. -/
def shownFrom (here path : Text) : Text :=
  let path := Path.tidy path
  if Path.anchorOf path ≠ .absolute then path
  else
    match Path.names here, Path.names path with
    | start, target =>
      if start.isPrefixOf target then
        match target.drop start.length with
        | [] => ['.']
        | names => Text.joinWith ['/'] names
      else path

/-- The line about a target. -/
def targetLine (here : Text) (t : Target) : Text :=
  t.name ++ ": " ++ Text.joinWith ", " (t.destinations.map (shownFrom here ·.dest)) ++ ['\n']

/-- The remark on how many units were left out, if any. -/
def excludedRemark (o : Outcome) : Text :=
  if o.excluded = [] then [] else ", " ++ Text.ofNat o.excluded.length ++ " excluded"

/-- The line about an output. -/
def outcomeLine (here : Text) (o : Outcome) : Text :=
  shownFrom here o.dest ++ " written (" ++ Text.ofNat o.emitted.length ++ " files" ++
    excludedRemark o ++ ")\n"

/-- What a caught fault of a run is told as. -/
def runMessage? : RunFault → Option Text
  | .merge (.conflict label) =>
    some (Merge.conflictMessage label ++ "\nUse --force to continue without source maps.\n")
  | .merge (.render fault) =>
    if fault.isOfTemplate then some ("oconcat run failed: " ++ fault.message ++ ['\n']) else none
  | .project fault => some ("oconcat run failed: " ++ fault.message ++ ['\n'])
  | .merge _ => none

/-- A fault of a run that is not told. -/
def uncaught : RunFault → ProgramFault
  | .project fault => .load (.project fault)
  | .merge fault => .merge fault

/-! ## Commands -/

variable {m : Type → Type} [Monad m] [FileStore m] [FolderView m] [Journal m] [Terminal m]

/-- Prints texts, or another one if there are none. -/
def printAll (empty : Text) (lines : List Text) : m Unit :=
  if lines = [] then Terminal.print empty else lines.forM Terminal.print

/-- Lists the targets. -/
def listTargets (p : Project) : m Nat := do
  let here ← FileStore.workingDirectory
  printAll "No targets configured\n" (p.targets.map (targetLine here))
  pure 0

/-- Merges the outputs of targets. -/
def runTargets (p : Project) (targets : List Text) (force : Bool) (r : Rendering m) :
    ExceptT ProgramFault m Nat := do
  match ← ExceptT.lift (Run.run p targets force r).run with
  | .ok outcomes =>
    let here ← (FileStore.workingDirectory : m Text)
    (printAll "Nothing to merge\n" (outcomes.map (outcomeLine here)) : m Unit)
    pure 0
  | .error fault =>
    match runMessage? fault with
    | some message =>
      (Terminal.printError message : m Unit)
      pure 1
    | none => throw (uncaught fault)

/-- Carries out what a command line asks for; the answer is the exit code. -/
def invoke (reader : Project.Reader) (modules : List HookModule) (r : Rendering m)
    (i : Invocation) : ExceptT ProgramFault m Nat := do
  let plan := LogPlan.ofSwitches i.verbose i.quiet i.logFile
  (← ExceptT.lift (Terminal.startLog plan)).mapError ProgramFault.log
  match ← ExceptT.lift (Project.load reader modules i.path).run with
  | .ok p =>
    match i.command with
    | .targets => ExceptT.lift (listTargets p)
    | .run targets force => runTargets p targets force r
  | .error (.project fault) =>
    if fault.isOfConfiguration then do
      (Terminal.printError (fault.message ++ ['\n']) : m Unit)
      pure 1
    else throw (.load (.project fault))
  | .error fault => throw (.load fault)

/-- How the program is used. -/
def usage : Text :=
  "usage: oconcat [-h] [-v] [-q] [--log-file LOG_FILE] (run | targets) ...\n" ++
    "       run [-h] [-v] [-q] [-t TARGET] [--force] [path]\n" ++
    "       targets [-h] [-v] [-q] [path]\n"

/-- The program. -/
def execute (reader : Project.Reader) (modules : List HookModule) (r : Rendering m)
    (arguments : List Text) : ExceptT ProgramFault m Nat :=
  match request arguments with
  | .help => do
    (Terminal.print usage : m Unit)
    pure 0
  | .misuse => do
    (Terminal.printError usage : m Unit)
    pure 2
  | .invocation i => invoke reader modules r i

end SourceMerge.CommandLine
