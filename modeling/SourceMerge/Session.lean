import SourceMerge.Log.Plan
import SourceMerge.Store.Disk

/-!
# SourceMerge.Session

A session as a value: a disk, what has been printed, and the records made so
far.  Everything that a merge or a command asks of its surroundings is a change
of this value.
-/

namespace SourceMerge

/-- The surroundings of a command. -/
structure Session where
  disk : Disk := {}
  home : Option Text := none
  /-- What the clock shows in lines of a log file. -/
  time : Text := []
  /-- Where records go; without a plan they are only kept. -/
  plan : Option LogPlan := none
  records : List Record := []
  /-- What was written to the standard output. -/
  output : Text := []
  /-- What was written to the standard error output. -/
  errors : Text := []

namespace Session

/-- A path for use on the disk. -/
def onDisk (path : Text) : Text := Path.tidy path

/-- Shows a record on the console. -/
def showRecord (s : Session) (p : LogPlan) (r : Record) : Session :=
  { s with errors := s.errors ++ (p.consoleLine? r).getD [] }

/-- Keeps a record in the log file. -/
def fileRecord (s : Session) (p : LogPlan) (r : Record) : Session :=
  match p.file, p.fileLine? s.time r with
  | some file, some line => { s with disk := (s.disk.append file line).2 }
  | _, _ => s

/-- The session after a record was made. -/
def note (s : Session) (r : Record) : Session :=
  let s := { s with records := s.records ++ [r] }
  match s.plan with
  | none => s
  | some p => (s.showRecord p r).fileRecord p r

/-- Starts to follow a plan.  If the file cannot be made, only the console is
left of the plan. -/
def startLog (s : Session) (p : LogPlan) : Except StoreFault Unit × Session :=
  match p.file with
  | none => (.ok (), { s with plan := some p })
  | some file =>
    let (result, disk) := s.disk.append (onDisk file) []
    let kept : Option Text := if result.isOk then some (Path.absolute disk.workingDirectory file) else none
    (result, { s with disk := disk, plan := some { p with file := kept } })

end Session

instance : FileStore (StateM Session) where
  contains path := do return (← get).disk.contains (Session.onDisk path)
  isDirectory path := do return (← get).disk.isDirectory (Session.onDisk path)
  read path := do return (← get).disk.read (Session.onDisk path)
  readMarked path := do return (← get).disk.readAs .utf8 (Session.onDisk path)
  write path content := modifyGet fun s =>
    let (result, disk) := s.disk.write (Session.onDisk path) content
    (result, { s with disk := disk })
  workingDirectory := do return (← get).disk.workingDirectory

instance : FolderView (StateM Session) where
  entries path := do return (← get).disk.entries path
  below keep path := do return (← get).disk.below keep path
  home := do return (← get).home

instance : Journal (StateM Session) where
  record r := modify (·.note r)

instance : Terminal (StateM Session) where
  print t := modify fun s => { s with output := s.output ++ t }
  printError t := modify fun s => { s with errors := s.errors ++ t }
  startLog p := modifyGet (·.startLog p)

end SourceMerge
