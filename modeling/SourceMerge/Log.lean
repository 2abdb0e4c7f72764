import SourceMerge.Text

/-!
# SourceMerge.Log

What a run reports while it works: records of a level, the part of the program
that speaks and a message.  A monad that carries a `Journal` takes them in the
order in which they are made.
-/

namespace SourceMerge

/-- How grave a record is. -/
inductive Level where
  | debug
  | info
  | warning
  | error
  | critical
  deriving DecidableEq

namespace Level

/-- The rank by which levels are compared. -/
def rank : Level → Nat
  | .debug => 10
  | .info => 20
  | .warning => 30
  | .error => 40
  | .critical => 50

/-- The name of a level in a log line. -/
def name : Level → Text
  | .debug => "DEBUG"
  | .info => "INFO"
  | .warning => "WARNING"
  | .error => "ERROR"
  | .critical => "CRITICAL"

/-- The lower of two levels. -/
def min (a b : Level) : Level := if a.rank ≤ b.rank then a else b

end Level

/-- The root of all speaker names. -/
def programName : Text := "oconcat"

/-- The full name of a part of the program; the empty name is the program's. -/
def speakerName (part : Text) : Text :=
  if part = [] then programName else programName ++ "." ++ part

/-- One report. -/
structure Record where
  level : Level
  /-- The full name of the part that speaks. -/
  speaker : Text
  message : Text

/-- A monad that takes records. -/
class Journal (m : Type → Type) where
  record : Record → m Unit

/-- Reports a message of a part of the program. -/
def report {m : Type → Type} [Journal m] (level : Level) (part message : Text) : m Unit :=
  Journal.record ⟨level, speakerName part, message⟩

/-- Reports several messages of one level. -/
def reportAll {m : Type → Type} [Monad m] [Journal m] (level : Level) (part : Text)
    (messages : List Text) : m Unit :=
  messages.forM (report level part)

end SourceMerge
