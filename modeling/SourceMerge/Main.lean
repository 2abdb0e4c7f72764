import SourceMerge.CommandLine
import SourceMerge.Text.Utf8
import SourceMerge.Workshop
import Std.Time.Zoned

/-!
# SourceMerge.Main

The program in its real surroundings: the files of the machine, its clock and
its terminal.
-/

namespace SourceMerge

/-- The program remembers where records go. -/
abbrev Program := StateT (Option LogPlan) IO

namespace Program

/-- A text as the machine takes it. -/
def out (t : Text) : String := String.ofList t

/-- A path as the machine takes it. -/
def onDisk (path : Text) := System.mkFilePath [out (Path.tidy path)]

/-- The fault that the machine reports about a path. -/
def faultOf (path : Text) (e : IO.Error) : IO StoreFault :=
  match e with
  | .noFileOrDirectory .. => pure .notFound
  | .alreadyExists .. => pure .occupied
  | .inappropriateType .. => do
    if ← (onDisk path).isDir then pure .isDirectory else pure .notDirectory
  | e => throw e

/-- An action on a path, its faults told apart. -/
def attempt {α : Type} (path : Text) (act : IO α) : IO (Except StoreFault α) := do
  try
    return .ok (← act)
  catch e => return .error (← faultOf path e)

/-- The text of a file, its line ends made line feeds. -/
def readText (path : Text) : IO (Except StoreFault Text) := do
  match ← attempt path (IO.FS.readBinFile (onDisk path)) with
  | .error fault => return .error fault
  | .ok bytes =>
    match Text.ofUtf8? bytes.toList with
    | some t => return .ok (Text.unifyNewlines t)
    | none => return .error .undecodable

/-- Stores a text; missing directories above the file are made. -/
def writeText (path content : Text) : IO (Except StoreFault Unit) := do
  let above := (onDisk path).parent.getD (onDisk ['.'])
  match ← attempt path (IO.FS.createDirAll above) with
  | .error fault => return .error fault
  | .ok _ =>
    attempt path (IO.FS.writeBinFile (onDisk path) (ByteArray.mk (Text.toUtf8 content).toArray))

/-- Adds a text at the end of a file. -/
def appendText (path content : Text) : IO Unit := do
  let handle ← IO.FS.Handle.mk (onDisk path) .append
  handle.write (ByteArray.mk (Text.toUtf8 content).toArray)

/-- The names in a directory, each with whether it is a directory. -/
def entries (path : Text) : IO (List (Text × Bool)) := do
  if ← (onDisk path).isDir then
    (← (onDisk path).readDir).toList.mapM fun e => do
      return (e.fileName.toList, ← e.path.isDir)
  else return []

/-- The ways to everything below a directory through names that are kept. -/
partial def below (keep : Text → Bool) (path : Text) : IO (List (List Text × Bool)) := do
  let found ← (← entries path).mapM fun e => do
    if keep e.1 then
      let further ← if e.2 then below keep (Path.join path e.1) else pure []
      return ([e.1], e.2) :: further.map fun w => (e.1 :: w.1, w.2)
    else return []
  return found.flatten

/-- The time of day and the date, as in the lines of a log file. -/
def time : IO Text := do
  let now ← Std.Time.PlainDateTime.now
  return Text.padded 4 now.year.toInt.toNat ++ "-".toList ++ Text.padded 2 now.month.toNat ++
    "-".toList ++ Text.padded 2 now.day.toNat ++ " ".toList ++ Text.padded 2 now.hour.toNat ++
    ":".toList ++ Text.padded 2 now.minute.toNat ++ ":".toList ++
    Text.padded 2 now.second.toInt.toNat ++ ",".toList ++
    Text.padded 3 (now.nanosecond.toNat / 1000000)

/-- The day. -/
def today : IO Date := do
  let now ← Std.Time.PlainDateTime.now
  return { year := now.year.toInt.toNat, month := now.month.toNat, day := now.day.toNat }

/-- Shows a record where a plan wants it. -/
def showRecord (plan : LogPlan) (r : Record) : IO Unit := do
  if let some line := plan.consoleLine? r then IO.eprint (out line)
  if let some file := plan.file then
    if let some line := plan.fileLine? (← time) r then appendText file line

/-- Starts to follow a plan. -/
def follow (plan : LogPlan) : IO (Except StoreFault Unit) :=
  match plan.file with
  | none => return .ok ()
  | some file => attempt file (appendText file [])

end Program

instance : FileStore Program where
  contains path := (Program.onDisk path).pathExists
  isDirectory path := (Program.onDisk path).isDir
  read path := do return (← Program.readText path).map Text.dropMark
  readMarked path := Program.readText path
  write path content := Program.writeText path content
  workingDirectory := do return (← IO.currentDir).toString.toList

instance : FolderView Program where
  entries path := Program.entries path
  below keep path := Program.below keep path
  home := do return (← IO.getEnv "HOME").map String.toList

instance : Journal Program where
  record r := do
    if let some plan := ← get then Program.showRecord plan r

instance : Terminal Program where
  print t := IO.print (Program.out t)
  printError t := IO.eprint (Program.out t)
  startLog plan := do
    set (some plan)
    Program.follow plan

end SourceMerge

open SourceMerge in
/-- Carries out the command line; a fault that is not caught ends the program
with exit code 1. -/
def main (arguments : List String) : IO UInt32 := do
  let renderer : Rendering (Workshop Template.Memory Program) :=
    .shared (Template.interpreter (← Program.today))
  let action :=
    (CommandLine.execute Project.plainReader [] renderer (arguments.map String.toList)).run
  match (← (action.run []).run none).1.1 with
  | .ok code => return code.toUInt32
  | .error fault =>
    IO.eprintln (Program.out fault.message)
    return 1
