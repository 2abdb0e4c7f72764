import SourceMerge.Text

/-!
# SourceMerge.CommandLine.Switch

Switches on a command line.  A switch has a long name behind two hyphens, which
may be cut short as long as it stays unambiguous, and perhaps a letter behind
one.  Letters may share their hyphen; a value follows as the next argument,
behind `=`, or right behind the letter.  An argument that begins with a hyphen
is still a plain word if it is nothing but a hyphen, a negative number, or
unknown and holds a space.
-/

namespace SourceMerge.CommandLine

/-- A switch of a command; `key` says which. -/
structure Switch (α : Type) where
  key : α
  letter : Option Char := none
  name : Text
  takesValue : Bool := false

/-- What an argument is read as. -/
inductive Reading (α : Type) where
  | word
  /-- A switch, with what stands behind it in the same argument.  `byLetter`
  says that it was given by its letter. -/
  | switch (s : Switch α) (byLetter : Bool) (attached : Option Text)
  | unknown
  /-- Several switches have a name that begins like this. -/
  | ambiguous

namespace Switch

variable {α : Type}

/-- The switch of a letter. -/
def ofLetter? (switches : List (Switch α)) (c : Char) : Option (Switch α) :=
  switches.find? (·.letter == some c)

/-- Whether a text is a negative number, with or without decimals. -/
def isNegativeNumber : Text → Bool
  | '-' :: t =>
    let isDigit (c : Char) : Bool := (Text.digitValue? c).isSome
    match t.dropWhile isDigit with
    | [] => !t.isEmpty
    | '.' :: decimals => !decimals.isEmpty && decimals.all isDigit
    | _ => false
  | _ => false

/-- How an argument that names no switch is read. -/
def readOther (argument : Text) : Reading α :=
  if isNegativeNumber argument || argument.contains ' ' then .word else .unknown

/-- Reads an argument behind two hyphens. -/
def readLong (switches : List (Switch α)) (argument body : Text) : Reading α :=
  let (name, attached) := Text.cutAt '=' body
  match switches.find? (·.name == body), switches.find? (·.name == name) with
  | some s, _ => .switch s false none
  | none, some s => .switch s false attached
  | none, none =>
    match switches.filter fun s => name.isPrefixOf s.name with
    | [s] => .switch s false attached
    | [] => readOther argument
    | _ => .ambiguous

/-- Reads an argument of a hyphen and a letter with something behind it. -/
def readLetter (switches : List (Switch α)) (argument : Text) (c : Char) (rest : Text) :
    Reading α :=
  match ofLetter? switches c, rest with
  | some s, [] => .switch s true none
  | some s, '=' :: value => .switch s true (some value)
  | some s, rest => .switch s true (some rest)
  | none, _ => readOther argument

/-- Reads an argument. -/
def read (switches : List (Switch α)) (argument : Text) : Reading α :=
  match argument with
  | '-' :: '-' :: body => readLong switches argument body
  | '-' :: c :: rest => readLetter switches argument c rest
  | _ => .word

/-- The switches that letters behind one hyphen give, each with its value.  The
last one may still want a value from the next argument. -/
def spread (switches : List (Switch α)) (s : Switch α) :
    Option Text → Option (List (α × Option Text) × Option α)
  | none => some (if s.takesValue then ([], some s.key) else ([(s.key, none)], none))
  | some attached =>
    if s.takesValue then some ([(s.key, some attached)], none)
    else
      match attached with
      | [] => none
      | c :: rest =>
        match ofLetter? switches c with
        | none => none
        | some next =>
          (spread switches next (if rest = [] then none else some rest)).map fun (given, open') =>
            ((s.key, none) :: given, open')
termination_by attached => (attached.getD []).length + (if attached.isSome then 1 else 0)
decreasing_by
  split <;> simp_all

/-- The switches that an argument gives: a long one does not share its
argument. -/
def given (switches : List (Switch α)) (s : Switch α) (byLetter : Bool) (attached : Option Text) :
    Option (List (α × Option Text) × Option α) :=
  if byLetter || s.takesValue || attached.isNone then spread switches s attached else none

end Switch

end SourceMerge.CommandLine
