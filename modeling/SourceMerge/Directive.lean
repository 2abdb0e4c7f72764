import SourceMerge.Text
import SourceMerge.Text.Position

/-!
# SourceMerge.Directive

Dependency directives inside a source text.  A directive is the marker, `("`,
a reference, `")`, an optional `;` and an optional line end.  In the reference
a backslash takes the following character with it, unless that is a line feed;
a bare quote ends it.  Scanning from the left, the next directive starts at the
first place where one can be read, and the search goes on behind it; a text is
thus cut into directives and plain characters, from which the stripped content,
the references and the places where content lines began are all read off.
-/

namespace SourceMerge

/-- A directive as it stands in the text, and the reference it makes. -/
structure Directive where
  lexeme : Text
  reference : Text

namespace Directive

/-- The marker in use where no other is given. -/
def defaultMarker : Text := "dependsOn"

/-! ## Reading one directive -/

/-- The reference up to the closing `")`, and what follows that. -/
def reference? : Text → Option (Text × Text)
  | '"' :: ')' :: rest => some ([], rest)
  | '"' :: _ => none
  | '\\' :: c :: rest =>
    if c = '\n' then none
    else (reference? rest).map fun (body, after) => ('\\' :: c :: body, after)
  | ['\\'] => none
  | c :: rest => (reference? rest).map fun (body, after) => (c :: body, after)
  | [] => none

/-- The optional end of a directive: a semicolon, then a line end. -/
def tail (t : Text) : Text :=
  let (semicolon, rest) :=
    match t with
    | ';' :: rest => ([';'], rest)
    | _ => (([] : Text), t)
  match rest with
  | '\n' :: _ => semicolon ++ ['\n']
  | '\r' :: '\n' :: _ => semicolon ++ ['\r', '\n']
  | _ => semicolon

/-- The directive that begins a text, if one does. -/
def read? (marker t : Text) : Option Directive :=
  match Text.dropStart? (marker ++ ['(', '"']) t with
  | none => none
  | some rest =>
    match reference? rest with
    | none => none
    | some (reference, after) =>
      some ⟨marker ++ ['(', '"'] ++ reference ++ ['"', ')'] ++ tail after, reference⟩

/-! ## Scanning a text -/

/-- A stretch of a scanned text. -/
inductive Token where
  | plain (c : Char)
  | directive (d : Directive)

/-- The characters that a stretch was read from. -/
def Token.lexeme : Token → Text
  | .plain c => [c]
  | .directive d => d.lexeme

/-- Cuts a text into directives and plain characters. -/
def scan (marker : Text) : Text → List Token
  | [] => []
  | c :: rest =>
    match read? marker (c :: rest) with
    | some d => .directive d :: scan marker (rest.drop (d.lexeme.length - 1))
    | none => .plain c :: scan marker rest
termination_by t => t.length
decreasing_by all_goals (simp only [List.length_drop, List.length_cons]; omega)

/-- Where a directive was found: its first offset, the offset behind it and its
reference. -/
structure Match where
  first : Nat
  last : Nat
  reference : Text

/-- The places of the directives among tokens that begin at `offset`. -/
def matchesFrom (offset : Nat) : List Token → List Match
  | [] => []
  | .plain _ :: rest => matchesFrom (offset + 1) rest
  | .directive d :: rest =>
    let last := offset + d.lexeme.length
    ⟨offset, last, d.reference⟩ :: matchesFrom last rest

/-- The places of all directives in a text. -/
def findAll (marker t : Text) : List Match := matchesFrom 0 (scan marker t)

/-! ## Stripping -/

/-- The characters that are in no directive. -/
def plainText (tokens : List Token) : Text :=
  tokens.flatMap fun
    | .plain c => [c]
    | .directive _ => []

/-- The references of the directives in textual order. -/
def references (tokens : List Token) : List Text :=
  tokens.filterMap fun
    | .plain _ => none
    | .directive d => some d.reference

/-- Where each line of the plain text begins in the scanned text.  `here` is the
place of the next token, and `fresh` says that a line of the plain text begins
with the next plain character; directives in front of that character are
skipped. -/
def originsFrom (here : Position) (fresh : Bool) : List Token → List Position
  | [] => if fresh then [here] else []
  | .directive d :: rest => originsFrom (here.after d.lexeme) fresh rest
  | .plain c :: rest =>
    let later := originsFrom (here.step c) (c == '\n') rest
    if fresh then here :: later else later

/-- A text without its directives. -/
structure Stripped where
  content : Text
  references : List Text
  /-- For each line of the content, the place in the full text where it began. -/
  origins : List Position

/-- Takes the directives out of a text. -/
def strip (marker raw : Text) : Stripped :=
  let tokens := scan marker raw
  { content := plainText tokens
    references := references tokens
    origins := originsFrom Position.start true tokens }

end Directive

end SourceMerge
