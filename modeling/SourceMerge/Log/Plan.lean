import SourceMerge.Log
import SourceMerge.Store

/-!
# SourceMerge.Log.Plan

Where the records of a command go: to the console, and to a file if one is
named.  The console shows progress, or everything, or warnings only; the file
keeps progress even where the console is quiet.
-/

namespace SourceMerge

/-- Where records go, and which. -/
structure LogPlan where
  /-- The lowest level that the console shows. -/
  console : Level
  /-- The path of the file. -/
  file : Option Text := none

namespace LogPlan

/-- The plan that the switches of a command ask for; of two that contradict
each other the one for more wins. -/
def ofSwitches (verbose quiet : Bool) (file : Option Text) : LogPlan :=
  { console := if verbose then .debug else if quiet then .warning else .info
    file := file }

/-- The lowest level that the file keeps. -/
def fileLevel (p : LogPlan) : Level := p.console.min .info

/-- The lowest level that goes anywhere. -/
def level (p : LogPlan) : Level := if p.file.isSome then p.fileLevel else p.console

/-- Whether a level is at least as grave as another one. -/
def reaches (lowest level : Level) : Bool := lowest.rank ≤ level.rank

/-- The line that the console shows of a record. -/
def consoleLine? (p : LogPlan) (r : Record) : Option Text :=
  if reaches p.console r.level then
    some ("[" ++ programName ++ "] " ++ r.level.name ++ " " ++ r.message ++ ['\n'])
  else none

/-- The line that the file keeps of a record made at a time. -/
def fileLine? (p : LogPlan) (time : Text) (r : Record) : Option Text :=
  if p.file.isSome && reaches p.fileLevel r.level then
    some (time ++ " " ++ r.level.name ++ " " ++ r.speaker ++ ": " ++ r.message ++ ['\n'])
  else none

end LogPlan

/-- A monad that talks to whoever gave the command. -/
class Terminal (m : Type → Type) where
  /-- Writes to the standard output. -/
  print : Text → m Unit
  /-- Writes to the standard error output. -/
  printError : Text → m Unit
  /-- Lets records go where a plan says from now on.  The file of the plan is
  made if it is missing. -/
  startLog : LogPlan → m (Except StoreFault Unit)

end SourceMerge
