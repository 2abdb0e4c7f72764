import SourceMerge.Text

/-!
# SourceMerge.Text.Position

Places in a text.  A position counts lines from one and columns from zero, in
code points; only a line feed ends a line.  `Position.after` is the place that
is reached when a text has been walked through, and `Text.charAt?` is the view
the other way: the character that stands at a place.
-/

namespace SourceMerge

/-- A line, counted from one, and a column, counted from zero.  Both are
integers, for a place that is only claimed may lie outside of every text. -/
structure Position where
  line : Int
  column : Int
  deriving DecidableEq

namespace Position

/-- Where every text begins. -/
def start : Position := ⟨1, 0⟩

/-- The place after one more character. -/
def step (p : Position) (c : Char) : Position :=
  if c = '\n' then ⟨p.line + 1, 0⟩ else ⟨p.line, p.column + 1⟩

/-- The place after a whole text. -/
def after (p : Position) (t : Text) : Position := t.foldl step p

@[simp] theorem after_nil (p : Position) : p.after [] = p := rfl

@[simp] theorem after_cons (p : Position) (c : Char) (t : Text) :
    p.after (c :: t) = (p.step c).after t := rfl

theorem after_append (p : Position) (s t : Text) : p.after (s ++ t) = (p.after s).after t := by
  simp [after]

end Position

namespace Text

/-- The character at `wanted`, for a text whose first character stands at
`here`. -/
def charFrom? (here wanted : Position) : Text → Option Char
  | [] => none
  | c :: rest => if here = wanted then some c else charFrom? (here.step c) wanted rest

/-- The character that stands at a place of a text; the line feed that ends a
line is its last character. -/
def charAt? (t : Text) (wanted : Position) : Option Char :=
  charFrom? Position.start wanted t

end Text

end SourceMerge
