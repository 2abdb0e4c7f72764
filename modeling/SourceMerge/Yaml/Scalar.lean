import SourceMerge.Text.Blank
import SourceMerge.Yaml.Cursor

/-!
# SourceMerge.Yaml.Scalar

Scalars as they are written.  A plain scalar ends at a comment, at a colon that
white space follows and, inside brackets, at the characters that structure
them; its lines are folded.  Quoted scalars fold their lines as well, with
escapes between double quotes.  A block scalar keeps its lines or folds them,
and its header says what becomes of the line ends behind the last line.
-/

namespace SourceMerge.Yaml

/-- Line ends and what takes their place when lines are folded: a single line
feed becomes a space, and vanishes before further ones. -/
def foldBreaks (first : Char) (more : Text) : Text :=
  (if first ≠ '\n' then [first] else if more = [] then [' '] else []) ++ more

/-! ## Plain scalars -/

/-- Whether a plain scalar ends at a character, with the one behind it. -/
def endsPlain (inFlow : Bool) (c : Char) (behind : Option Char) : Bool :=
  isGap c || isBreak c ||
    (c == ':' && (endsWord behind ||
      (inFlow && behind.any (· ∈ [',', '[', ']', '\x7b', '\x7d'])))) ||
    (inFlow && c ∈ [',', '?', '[', ']', '\x7b', '\x7d'])

/-- The characters up to the end of a word of a plain scalar. -/
def plainWord (inFlow : Bool) : Text → Text
  | [] => []
  | c :: rest => if endsPlain inFlow c rest.head? then [] else c :: plainWord inFlow rest

/-- Line ends behind the first one, with spaces between them; `none` where a
document ends. -/
def plainBreaks? : Nat → Cursor → Option (Text × Cursor)
  | 0, c => some ([], c)
  | fuel + 1, c =>
    match c.peek with
    | some ' ' => plainBreaks? fuel c.next
    | _ =>
      match c.lineBreak? with
      | none => some ([], c)
      | some (b, c) =>
        if c.atSeparator then none
        else (plainBreaks? fuel c).map fun (bs, c) => (b :: bs, c)

/-- What stands between two words of a plain scalar, whether a line has ended
there, and where the scalar would go on; an empty text ends it. -/
def plainSpaces (c : Cursor) : Text × Bool × Cursor :=
  let (spaces, c) := c.takeWhile (· == ' ')
  match c.lineBreak? with
  | none => (spaces, false, c)
  | some (b, c) =>
    if c.atSeparator then ([], true, c)
    else
      match plainBreaks? (c.rest.length + 1) c with
      | none => ([], true, c)
      | some (bs, c) => (foldBreaks b bs, true, c)

/-- A plain scalar: its text, whether its end is behind a line end, and what
follows it.  `indent` is the least column of a further line. -/
def plain (inFlow : Bool) (indent : Int) : Nat → Text → Bool → Cursor → Text × Bool × Cursor
  | 0, _, broken, c => ([], broken, c)
  | fuel + 1, spaces, broken, c =>
    if c.peek = some '#' then ([], broken, c)
    else
      match plainWord inFlow c.rest with
      | [] => ([], broken, c)
      | word =>
        let c := c.skip word.length
        let (between, broken, after) := plainSpaces c
        if between = [] ∨ after.peek = some '#' ∨ (!inFlow ∧ (after.column : Int) < indent) then
          (spaces ++ word, broken, after)
        else
          let (more, broken, after) := plain inFlow indent fuel between broken after
          (spaces ++ word ++ more, broken, after)

/-! ## Quoted scalars -/

/-- The characters of short escapes. -/
def shortEscapes : List (Char × Char) :=
  [('0', Char.ofNat 0), ('a', Char.ofNat 7), ('b', Char.ofNat 8), ('t', '\t'), ('\t', '\t'),
    ('n', '\n'), ('v', Char.ofNat 11), ('f', Char.ofNat 12), ('r', '\r'), ('e', Char.ofNat 27),
    (' ', ' '), ('"', '"'), ('\\', '\\'), ('/', '/'), ('N', Char.ofNat 0x85),
    ('_', Char.ofNat 0xA0), ('L', Char.ofNat 0x2028), ('P', Char.ofNat 0x2029)]

/-- The number of digits of the escapes that give a code point. -/
def digitEscapes : List (Char × Nat) := [('x', 2), ('u', 4), ('U', 8)]

/-- Line ends between the lines of a quoted scalar, with blanks between them. -/
def quotedBreaks? : Nat → Cursor → Option (Text × Cursor)
  | 0, _ => none
  | fuel + 1, c =>
    if c.atSeparator then none
    else
      let c := c.dropWhile isGap
      match c.lineBreak? with
      | none => some ([], c)
      | some (b, c) => (quotedBreaks? fuel c).map fun (bs, c) => (b :: bs, c)

/-- What an escape stands for; the cursor is behind the backslash. -/
def escape? (c : Cursor) : Option (Text × Cursor) :=
  match c.peek with
  | none => none
  | some ch =>
    match shortEscapes.lookup ch with
    | some meant => some ([meant], c.next)
    | none =>
      match digitEscapes.lookup ch with
      | some count =>
        let digits := c.next.rest.take count
        if digits.length = count ∧ digits.all (fun d => (Text.hexValue? d).isSome) then
          let n := Text.numeral 16 digits
          some ([if n.isValidChar then Char.ofNat n else Char.ofNat 0xFFFD], c.next.skip count)
        else none
      | none =>
        match c.lineBreak? with
        | none => none
        | some (_, c) => quotedBreaks? (c.rest.length + 1) c

/-- A quoted scalar whose opening quote has been read: its text and what
follows the closing quote. -/
def quoted? (double : Bool) : Nat → Cursor → Option (Text × Cursor)
  | 0, _ => none
  | fuel + 1, c =>
    match c.peek with
    | none => none
    | some ch =>
      if !double && ch == '\'' then
        if c.peekAt 1 = some '\'' then
          (quoted? double fuel (c.skip 2)).map fun (t, c) => ('\'' :: t, c)
        else some ([], c.next)
      else if double && ch == '"' then some ([], c.next)
      else if double && ch == '\\' then
        match escape? c.next with
        | none => none
        | some (meant, c) => (quoted? double fuel c).map fun (t, c) => (meant ++ t, c)
      else if isGap ch || isBreak ch then
        let (gap, c) := c.takeWhile isGap
        match c.lineBreak? with
        | none =>
          if c.rest = [] then none else (quoted? double fuel c).map fun (t, c) => (gap ++ t, c)
        | some (b, c) =>
          match quotedBreaks? (c.rest.length + 1) c with
          | none => none
          | some (bs, c) => (quoted? double fuel c).map fun (t, c) => (foldBreaks b bs ++ t, c)
      else (quoted? double fuel c.next).map fun (t, c) => (ch :: t, c)

/-! ## Block scalars -/

/-- What becomes of the line ends behind the last line of a block scalar. -/
inductive Chomping where
  | strip
  | clip
  | keep
  deriving DecidableEq

/-- The sign that says what becomes of the last line ends. -/
def chompingOf? : Option Char → Option Chomping
  | some '+' => some .keep
  | some '-' => some .strip
  | _ => none

/-- The digit that gives the indentation; zero is none. -/
def incrementOf? : Option Char → Option (Option Nat)
  | some c => if c.isDigit then some (if c = '0' then none else some (c.toNat - '0'.toNat)) else none
  | none => none

/-- The header of a block scalar: a sign and a digit in either order, blanks, a
comment and the line end. -/
def blockHeader? (c : Cursor) : Option (Chomping × Option Nat × Cursor) := do
  let (chomping, increment, c) ←
    match chompingOf? c.peek with
    | some chomping =>
      match incrementOf? c.next.peek with
      | some none => none
      | some (some n) => some (chomping, some n, c.skip 2)
      | none => some (chomping, none, c.next)
    | none =>
      match incrementOf? c.peek with
      | some none => none
      | some (some n) =>
        match chompingOf? c.next.peek with
        | some chomping => some (chomping, some n, c.skip 2)
        | none => some (.clip, some n, c.next)
      | none => some (.clip, none, c)
  if c.peek = some ' ' ∨ endsLine c.peek then
    let c := c.dropWhile (· == ' ')
    let c := if c.peek = some '#' then c.dropWhile (!isBreak ·) else c
    if endsLine c.peek then
      some (chomping, increment, ((c.lineBreak?).map (·.2)).getD c)
    else none
  else none

/-- The empty lines at the beginning of a block scalar, and the greatest column
that spaces reach there. -/
def blockIndentation : Nat → Nat → Cursor → Text × Nat × Cursor
  | 0, widest, c => ([], widest, c)
  | fuel + 1, widest, c =>
    match c.lineBreak? with
    | some (b, c) =>
      let (bs, widest, c) := blockIndentation fuel widest c
      (b :: bs, widest, c)
    | none =>
      if c.peek = some ' ' then
        blockIndentation fuel (max widest c.next.column) c.next
      else ([], widest, c)

/-- Moves over spaces up to a column. -/
def skipTo (column : Nat) (c : Cursor) : Cursor :=
  c.skip ((c.rest.take (column - c.column)).takeWhile (· == ' ')).length

/-- Empty lines inside a block scalar. -/
def blockBreaks (indent : Nat) : Nat → Cursor → Text × Cursor
  | 0, c => ([], c)
  | fuel + 1, c =>
    let c := skipTo indent c
    match c.lineBreak? with
    | some (b, c) =>
      let (bs, c) := blockBreaks indent fuel c
      (b :: bs, c)
    | none => ([], c)

/-- The lines of a block scalar from a line on that belongs to it, with `breaks`
before that line: their text, the line end behind the last line, the empty
lines behind that, and what follows. -/
def blockLines (folded : Bool) (indent : Nat) : Nat → Text → Cursor → Text × Text × Text × Cursor
  | 0, breaks, c => ([], [], breaks, c)
  | fuel + 1, breaks, c =>
    let startsGap := c.peek.any isGap
    let (line, c) := c.takeWhile (!isBreak ·)
    let (ending, c) :=
      match c.lineBreak? with
      | some (b, c) => ([b], c)
      | none => ([], c)
    let (more, c) := blockBreaks indent (c.rest.length + 1) c
    if c.column = indent ∧ c.rest ≠ [] then
      let glue : Text :=
        if folded && ending == ['\n'] && !startsGap && !c.peek.any isGap then
          if more = [] then [' '] else []
        else ending
      let (rest, ending, last, c) := blockLines folded indent fuel more c
      (breaks ++ line ++ glue ++ rest, ending, last, c)
    else (breaks ++ line, ending, more, c)

/-- A block scalar whose mark has been read, inside a block of the given
indentation: its text and what follows it. -/
def block? (folded : Bool) (outer : Int) (c : Cursor) : Option (Text × Cursor) := do
  let (chomping, increment, c) ← blockHeader? c
  let least := (max (outer + 1) 1).toNat
  let (breaks, indent, c) :=
    match increment with
    | some n =>
      let indent := least + n - 1
      let (breaks, c) := blockBreaks indent (c.rest.length + 1) c
      (breaks, indent, c)
    | none =>
      let (breaks, widest, c) := blockIndentation (c.rest.length + 1) 0 c
      (breaks, max least widest, c)
  let (body, ending, last, c) :=
    if c.column = indent ∧ c.rest ≠ [] then
      blockLines folded indent (c.rest.length + 1) breaks c
    else ([], [], breaks, c)
  let tail :=
    match chomping with
    | .strip => []
    | .clip => ending
    | .keep => ending ++ last
  some (body ++ tail, c)

end SourceMerge.Yaml
