import SourceMerge.CommandLine.Switch

/-!
# SourceMerge.CommandLine.Invocation

What a command line asks for.  Switches about the log may stand before the
command or behind it; the command takes a path at most, and what is left over
is a fault.  Two hyphens end the switches of a command.
-/

namespace SourceMerge.CommandLine

/-- The commands. -/
inductive Command where
  /-- Merge the outputs of the named targets, or of all. -/
  | run (targets : List Text) (force : Bool)
  /-- List the targets. -/
  | targets

/-- What a command line asks for. -/
structure Invocation where
  command : Command
  path : Text := ['.']
  verbose : Bool := false
  quiet : Bool := false
  logFile : Option Text := none

/-- The outcome of reading a command line. -/
inductive Request where
  | invocation (i : Invocation)
  | help
  | misuse

/-- The switches. -/
inductive Key where
  | help
  | verbose
  | quiet
  | logFile
  | target
  | force
  deriving DecidableEq

/-- The switches that every command has. -/
def commonSwitches : List (Switch Key) :=
  [{ key := .help, letter := some 'h', name := "help" },
    { key := .verbose, letter := some 'v', name := "verbose" },
    { key := .quiet, letter := some 'q', name := "quiet" }]

/-- The switches before the command. -/
def mainSwitches : List (Switch Key) :=
  commonSwitches ++ [{ key := .logFile, name := "log-file", takesValue := true }]

/-- The switches of the command that merges. -/
def runSwitches : List (Switch Key) :=
  commonSwitches ++
    [{ key := .target, letter := some 't', name := "target", takesValue := true },
      { key := .force, name := "force" }]

/-- What has been read so far. -/
structure Heard where
  verbose : Bool := false
  quiet : Bool := false
  logFile : Option Text := none
  targets : List Text := []
  force : Bool := false
  path : Option Text := none
  /-- The last argument was the path. -/
  justPath : Bool := false
  /-- Something was left over. -/
  stray : Bool := false

namespace Heard

/-- Takes in a switch; there is no more to read once help is asked for. -/
def take (h : Heard) : Key × Option Text → Option Heard
  | (.help, _) => none
  | (.verbose, _) => some { h with verbose := true }
  | (.quiet, _) => some { h with quiet := true }
  | (.logFile, value) => some { h with logFile := value }
  | (.target, value) => some { h with targets := h.targets ++ value.toList }
  | (.force, _) => some { h with force := true }

/-- Takes in a word that stands for the path. -/
def takePath (h : Heard) (word : Text) : Heard :=
  if h.path.isNone then { h with path := some word, justPath := true }
  else { h with stray := true, justPath := false }

end Heard

/-- Why reading stops before the end. -/
inductive Stop where
  | help
  | misuse

/-- Takes in the switches that one argument gives. -/
def takeAll (h : Heard) : List (Key × Option Text) → Except Stop Heard
  | [] => .ok h
  | g :: rest =>
    match h.take g with
    | some h => takeAll h rest
    | none => .error .help

/-- Takes in an argument read as a switch; the answer says whether the next
argument was used up as its value. -/
def takeSwitch (switches : List (Switch Key)) (h : Heard) (s : Switch Key) (byLetter : Bool)
    (attached : Option Text) (next : Option Text) : Except Stop (Heard × Bool) := do
  match s.given switches byLetter attached with
  | none => throw .misuse
  | some (given, open') =>
    match open' with
    | none => return (← takeAll { h with justPath := false } given, false)
    | some key =>
      match next with
      | some value =>
        match Switch.read switches value, value with
        | _, ['-', '-'] => throw .misuse
        | .word, value =>
          return (← takeAll { h with justPath := false } (given ++ [(key, some value)]), true)
        | _, _ => throw .misuse
      | none => throw .misuse

/-- Takes in what follows two hyphens, all of it words. -/
def takeWords (h : Heard) (words : List Text) : Heard :=
  match h.path, words with
  | none, [] => { h with path := some ['.'] }
  | none, [word] => { h with path := some word }
  | some _, [] => if h.justPath then h else { h with stray := true }
  | _, _ => { h with stray := true }

/-- Reads the arguments behind a command. -/
def readArguments (switches : List (Switch Key)) (h : Heard) : List Text → Except Stop Heard
  | [] => .ok h
  | ['-', '-'] :: rest => .ok (takeWords h rest)
  | argument :: rest =>
    match Switch.read switches argument with
    | .word => readArguments switches (h.takePath argument) rest
    | .unknown => readArguments switches { h with stray := true, justPath := false } rest
    | .ambiguous => .error .misuse
    | .switch s byLetter attached =>
      match takeSwitch switches h s byLetter attached rest.head? with
      | .error stop => .error stop
      | .ok (h, false) => readArguments switches h rest
      | .ok (h, true) => readArguments switches h rest.tail
termination_by arguments => arguments.length
decreasing_by all_goals (simp only [List.length_cons, List.length_tail]; omega)

/-- The switches of a command, and what was read as an invocation of it. -/
def commandOf? (name : Text) : Option (List (Switch Key) × (Heard → Command)) :=
  if name = "run".toList then some (runSwitches, fun h => .run h.targets h.force)
  else if name = "targets".toList then some (commonSwitches, fun _ => .targets)
  else none

/-- The invocation that was read, if nothing was left over. -/
def finish (h : Heard) (command : Heard → Command) : Request :=
  if h.stray then .misuse
  else
    .invocation
      { command := command h
        path := h.path.getD ['.']
        verbose := h.verbose
        quiet := h.quiet
        logFile := h.logFile }

/-- Reads the arguments up to the command and then those behind it. -/
def readMain (h : Heard) : List Text → Request
  | [] => .misuse
  | argument :: rest =>
    match Switch.read mainSwitches argument with
    | .word =>
      match commandOf? argument with
      | none => .misuse
      | some (switches, command) =>
        match readArguments switches h rest with
        | .error .help => .help
        | .error .misuse => .misuse
        | .ok h => finish h command
    | .unknown => readMain { h with stray := true } rest
    | .ambiguous => .misuse
    | .switch s byLetter attached =>
      match takeSwitch mainSwitches h s byLetter attached rest.head? with
      | .error .help => .help
      | .error .misuse => .misuse
      | .ok (h, false) => readMain h rest
      | .ok (h, true) => readMain h rest.tail
termination_by arguments => arguments.length
decreasing_by all_goals (simp only [List.length_cons, List.length_tail]; omega)

/-- What a command line asks for. -/
def request (arguments : List Text) : Request := readMain {} arguments

end SourceMerge.CommandLine
