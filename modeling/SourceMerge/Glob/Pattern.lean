import SourceMerge.Text

/-!
# SourceMerge.Glob.Pattern

Wildcard patterns for a single name.  `*` stands for any run of characters, `?`
for one character, and a class in square brackets for one of its characters; a
class may hold ranges, and `!` at its beginning turns it round.  A bracket that
is never closed is an ordinary character, as is everything else.

A range whose ends are the wrong way round is cut out of its class before the
class is looked at, so what stands behind it may then begin the class.
-/

namespace SourceMerge.Glob

/-! ## Classes -/

/-- An item of a class. -/
inductive ClassItem where
  | one (c : Char)
  | range (first last : Char)
  deriving DecidableEq

namespace ClassItem

/-- Whether a character is one of the item. -/
def holds (c : Char) : ClassItem → Bool
  | .one d => c == d
  | .range first last => first.val ≤ c.val && c.val ≤ last.val

/-- Whether the item is a range that runs backwards. -/
def isReversed : ClassItem → Bool
  | .one _ => false
  | .range first last => last.val < first.val

/-- The items that characters spell: a hyphen between two characters makes a
range of them. -/
def read : Text → List ClassItem
  | first :: '-' :: last :: rest => .range first last :: read rest
  | c :: rest => .one c :: read rest
  | [] => []

end ClassItem

/-- A class of characters: those of its items, or all others. -/
structure CharClass where
  negated : Bool
  items : List ClassItem
  deriving DecidableEq

namespace CharClass

/-- Whether a character is in the class. -/
def holds (cls : CharClass) (c : Char) : Bool := cls.items.any (·.holds c) != cls.negated

/-- The class that items make.  A `!` in front is no item; where it began a
range, the hyphen and the end of the range are left of that. -/
def ofItems : List ClassItem → CharClass
  | .one '!' :: rest => ⟨true, rest⟩
  | .range '!' last :: rest => ⟨true, .one '-' :: .one last :: rest⟩
  | items => ⟨false, items⟩

/-- The class that stands between two brackets. -/
def ofContent (content : Text) : CharClass :=
  let items : List ClassItem :=
    match content with
    | '!' :: rest => .one '!' :: ClassItem.read rest
    | content => ClassItem.read content
  ofItems (items.filter (!·.isReversed))

/-- The number of characters between an opening bracket and the one that closes
the class.  A closing bracket right at the beginning, also behind `!`, belongs
to the class. -/
def contentLength? (t : Text) : Option Nat :=
  let head :=
    match t with
    | '!' :: ']' :: _ => 2
    | '!' :: _ => 1
    | ']' :: _ => 1
    | _ => 0
  let body := (t.drop head).takeWhile (· != ']')
  let n := head + body.length
  if n < t.length then some n else none

end CharClass

/-! ## Patterns -/

/-- A part of a pattern. -/
inductive Piece where
  /-- Any run of characters. -/
  | run
  /-- Any character. -/
  | any
  | oneOf (cls : CharClass)
  | plain (c : Char)
  deriving DecidableEq

/-- The parts of a pattern. -/
def pieces : Text → List Piece
  | [] => []
  | c :: rest =>
    if c = '*' then .run :: pieces rest
    else if c = '?' then .any :: pieces rest
    else if c = '[' then
      match CharClass.contentLength? rest with
      | some n => .oneOf (.ofContent (rest.take n)) :: pieces (rest.drop (n + 1))
      | none => .plain c :: pieces rest
    else .plain c :: pieces rest
termination_by t => t.length
decreasing_by all_goals (simp only [List.length_drop, List.length_cons]; omega)

/-- Whether a text, or what is left of it after some characters, satisfies
`p`. -/
def anyEnd (p : Text → Bool) : Text → Bool
  | [] => p []
  | c :: rest => p (c :: rest) || anyEnd p rest

/-- Whether a text consists of what the parts stand for. -/
def fits : List Piece → Text → Bool
  | [], t => t.isEmpty
  | .run :: rest, t => anyEnd (fits rest) t
  | .any :: rest, t =>
    match t with
    | _ :: t => fits rest t
    | [] => false
  | .oneOf cls :: rest, t =>
    match t with
    | c :: t => cls.holds c && fits rest t
    | [] => false
  | .plain d :: rest, t =>
    match t with
    | c :: t => c == d && fits rest t
    | [] => false

/-- Whether a name is of the form of a pattern. -/
def fitsPattern (pattern name : Text) : Bool := fits (pieces pattern) name

/-! ## Magic -/

/-- Whether a character has a meaning of its own in patterns. -/
def isMagic (c : Char) : Bool := c == '*' || c == '?' || c == '['

/-- Whether a text is more than a plain name as a pattern. -/
def hasMagic (t : Text) : Bool := t.any isMagic

/-- The pattern that only a given text fits. -/
def escape (t : Text) : Text := t.flatMap fun c => if isMagic c then ['[', c, ']'] else [c]

/-- Whether a name is hidden: it begins with a point. -/
def isHidden (name : Text) : Bool := name.head? == some '.'

end SourceMerge.Glob
