import SourceMerge.Yaml.Scalar

/-!
# SourceMerge.Yaml.Token

A YAML text as tokens.  Outside of brackets, structure is indentation: a dash or
a key that stands further to the right than the block around it begins a new
block, and a line further to the left ends the blocks it leaves.  A key is only
known as one when its colon comes, so the scanner remembers where the last one
could have begun, for each depth of brackets, and puts the key token there
afterwards; it must stand on one line and within 1024 characters.
-/

namespace SourceMerge.Yaml

/-- What a tag says: nothing beyond being there, one of the common types by its
short name, or a type that is not known. -/
inductive Tag where
  | plain
  | common (name : Text)
  | unknown

/-- The tokens. -/
inductive Token where
  | directive
  | documentStart
  | documentEnd
  | blockSequenceStart
  | blockMappingStart
  | blockEnd
  | flowSequenceStart
  | flowSequenceEnd
  | flowMappingStart
  | flowMappingEnd
  | blockEntry
  | flowEntry
  | key
  | value
  | alias (name : Text)
  | anchor (name : Text)
  | tag (t : Tag)
  | scalar (t : Text) (plain : Bool)

/-- A place where a key may have begun. -/
structure PossibleKey where
  /-- The number of tokens before it. -/
  place : Nat
  /-- It has to be a key, for nothing else can stand at its column. -/
  required : Bool
  index : Nat
  line : Nat
  column : Nat

/-- How far a text has been scanned. -/
structure Scan where
  cursor : Cursor
  tokens : List Token := []
  /-- The depth of brackets. -/
  depth : Nat := 0
  indent : Int := -1
  indents : List Int := []
  /-- A key may begin here. -/
  keyAllowed : Bool := true
  /-- Possible keys by depth. -/
  keys : List (Nat × PossibleKey) := []

namespace Scan

/-- Adds a token. -/
def push (s : Scan) (t : Token) : Scan := { s with tokens := s.tokens ++ [t] }

/-- Forgets the possible key of the present depth; one that has to be a key may
not be forgotten. -/
def dropKey? (s : Scan) : Option Scan :=
  match s.keys.lookup s.depth with
  | none => some s
  | some k =>
    if k.required then none else some { s with keys := s.keys.filter (·.1 ≠ s.depth) }

/-- Remembers that a key may begin here. -/
def saveKey? (s : Scan) : Option Scan :=
  if s.keyAllowed then do
    let s ← s.dropKey?
    let k : PossibleKey :=
      { place := s.tokens.length
        required := s.depth = 0 ∧ s.indent = s.cursor.column
        index := s.cursor.index
        line := s.cursor.line
        column := s.cursor.column }
    some { s with keys := (s.depth, k) :: s.keys }
  else some s

/-- Forgets the possible keys that are on an earlier line or too far back. -/
def dropStaleKeys? (s : Scan) : Option Scan :=
  let stale (k : PossibleKey) : Bool :=
    k.line ≠ s.cursor.line || 1024 < s.cursor.index - k.index
  if s.keys.any fun e => stale e.2 && e.2.required then none
  else some { s with keys := s.keys.filter fun e => !stale e.2 }

/-- Ends the blocks that begin to the right of a column. -/
def unwind (column : Int) (s : Scan) : Scan :=
  if s.depth ≠ 0 then s
  else
    let left := (s.indent :: s.indents).takeWhile (column < ·)
    match (s.indent :: s.indents).drop left.length with
    | [] => s
    | indent :: indents =>
      { s with
        indent := indent
        indents := indents
        tokens := s.tokens ++ left.map fun _ => .blockEnd }

/-- Begins a block at a column, if that is further to the right. -/
def indentTo (s : Scan) (column : Nat) : Bool × Scan :=
  if s.indent < column then
    (true, { s with indent := column, indents := s.indent :: s.indents })
  else (false, s)

/-- Moves over blanks, comments and line ends to the next token. -/
def toNextToken : Nat → Scan → Scan
  | 0, s => s
  | fuel + 1, s =>
    let c := s.cursor.dropWhile (· == ' ')
    let c := if c.peek = some '#' then c.dropWhile (!isBreak ·) else c
    match c.lineBreak? with
    | some (_, c) =>
      toNextToken fuel { s with cursor := c, keyAllowed := s.keyAllowed || s.depth = 0 }
    | none => { s with cursor := c }

/-! ## Anchors, tags and directives -/

/-- Whether a character may stand in the name of an anchor. -/
def isAnchorChar (c : Char) : Bool := c.isAlphanum || c == '-' || c == '_'

/-- The name of an anchor or alias, behind its mark. -/
def anchorName? (c : Cursor) : Option (Text × Cursor) :=
  let (name, c) := c.takeWhile isAnchorChar
  if name = [] then none
  else if endsWord c.peek || c.peek.any (· ∈ ['?', ':', ',', ']', '\x7d', '%', '@', Char.ofNat 0x60])
  then some (name, c)
  else none

/-- The beginning of the full names of the common types. -/
def commonTagHead : Text := "tag:yaml.org,2002:"

/-- A tag, at its exclamation mark. -/
def tag? (c : Cursor) : Option (Tag × Cursor) :=
  let c := c.next
  let finish (t : Tag) (c : Cursor) : Option (Tag × Cursor) :=
    if endsLine c.peek || c.peek = some ' ' then some (t, c) else none
  match c.peek with
  | some '<' =>
    let (uri, c) := c.next.takeWhile fun ch => ch != '>' && !isGap ch && !isBreak ch
    if c.peek = some '>' then
      match Text.dropStart? commonTagHead uri with
      | some name => finish (.common name) c.next
      | none => finish .unknown c.next
    else none
  | some '!' =>
    let (name, c) := c.next.takeWhile fun ch => !isGap ch && !isBreak ch && ch ∉ [',', '[', ']']
    if name = [] then none else finish (.common name) c
  | p =>
    if endsWord p then finish .plain c
    else
      let (_, c) := c.takeWhile fun ch => !isGap ch && !isBreak ch && ch ∉ [',', '[', ']']
      finish .unknown c

/-- The end of a directive: blanks and a comment may stand before the line
end. -/
def directiveEnd? (c : Cursor) : Option Cursor :=
  let c := c.dropWhile (· == ' ')
  let c := if c.peek = some '#' then c.dropWhile (!isBreak ·) else c
  if endsLine c.peek then some c else none

/-- The version that a directive asks for, which has to be one of the first. -/
def version? (c : Cursor) : Option Cursor := do
  let isDigit (ch : Char) : Bool := (Text.digitValue? ch).isSome
  let (major, c) := (c.dropWhile (· == ' ')).takeWhile isDigit
  let (minor, after) := c.next.takeWhile isDigit
  if major = [] ∨ Text.numeral 10 major ≠ 1 ∨ c.peek ≠ some '.' ∨ minor = [] then none
  else if endsLine after.peek ∨ after.peek = some ' ' then directiveEnd? after
  else none

/-- A directive.  One that asks for a version is checked, any other is passed
over. -/
def directive? (c : Cursor) : Option Cursor :=
  let (name, c) := c.next.takeWhile isAnchorChar
  if name = [] then none
  else if endsLine c.peek ∨ c.peek = some ' ' then
    if name = "YAML".toList then version? c else some (c.dropWhile (!isBreak ·))
  else none

/-! ## Tokens -/

/-- Adds a document mark. -/
def documentMark? (s : Scan) (t : Token) : Option Scan := do
  let s ← (s.unwind (-1)).dropKey?
  some (Scan.push { s with keyAllowed := false, cursor := s.cursor.skip 3 } t)

/-- Opens a bracket. -/
def openFlow? (s : Scan) (t : Token) : Option Scan := do
  let s ← s.saveKey?
  some (Scan.push { s with depth := s.depth + 1, keyAllowed := true, cursor := s.cursor.next } t)

/-- Closes a bracket. -/
def closeFlow? (s : Scan) (t : Token) : Option Scan := do
  let s ← s.dropKey?
  if s.depth = 0 then none
  else some (Scan.push { s with depth := s.depth - 1, keyAllowed := false, cursor := s.cursor.next } t)

/-- A comma between brackets. -/
def flowEntry? (s : Scan) : Option Scan := do
  let s ← s.dropKey?
  some (Scan.push { s with keyAllowed := true, cursor := s.cursor.next } .flowEntry)

/-- A mark that begins a block where keys are allowed. -/
def beginBlock? (s : Scan) (start : Token) : Option Scan :=
  if s.depth ≠ 0 then some s
  else if !s.keyAllowed then none
  else
    match s.indentTo s.cursor.column with
    | (true, s) => some (s.push start)
    | (false, s) => some s

/-- A dash. -/
def blockEntry? (s : Scan) : Option Scan := do
  let s ← s.beginBlock? .blockSequenceStart
  let s ← Scan.dropKey? { s with keyAllowed := true }
  some (Scan.push { s with cursor := s.cursor.next } .blockEntry)

/-- A question mark. -/
def keyMark? (s : Scan) : Option Scan := do
  let s ← s.beginBlock? .blockMappingStart
  let s ← Scan.dropKey? { s with keyAllowed := s.depth = 0 }
  some (Scan.push { s with cursor := s.cursor.next } .key)

/-- A colon: it makes the possible key before it one, or stands by itself. -/
def valueMark? (s : Scan) : Option Scan :=
  match s.keys.lookup s.depth with
  | some k =>
    let s := { s with keys := s.keys.filter (·.1 ≠ s.depth) }
    let (begins, s) := if s.depth = 0 then s.indentTo k.column else (false, s)
    let inserted := if begins then [.blockMappingStart, .key] else [.key]
    let s :=
      { s with
        keyAllowed := false
        tokens := s.tokens.take k.place ++ inserted ++ s.tokens.drop k.place
        cursor := s.cursor.next }
    some (s.push .value)
  | none => do
    let s ← s.beginBlock? .blockMappingStart
    let s ← Scan.dropKey? { s with keyAllowed := s.depth = 0 }
    some (Scan.push { s with cursor := s.cursor.next } .value)

/-- A token that may be a key. -/
def keyLike? (s : Scan) (read : Cursor → Option (Token × Cursor)) : Option Scan := do
  let s ← s.saveKey?
  let (t, c) ← read s.cursor
  some (Scan.push { s with keyAllowed := false, cursor := c } t)

/-- A block scalar. -/
def blockScalar? (s : Scan) (folded : Bool) : Option Scan := do
  let s ← Scan.dropKey? { s with keyAllowed := true }
  let (t, c) ← block? folded s.indent s.cursor.next
  some (Scan.push { s with cursor := c } (.scalar t false))

/-- A plain scalar. -/
def plainScalar? (s : Scan) : Option Scan := do
  let s ← s.saveKey?
  let (t, broken, c) :=
    plain (s.depth ≠ 0) (s.indent + 1) (s.cursor.rest.length + 1) [] false s.cursor
  some (Scan.push { s with keyAllowed := broken, cursor := c } (.scalar t true))

/-- Whether a plain scalar can begin here. -/
def startsPlain (s : Scan) (ch : Char) (behind : Option Char) : Bool :=
  (!(isGap ch || isBreak ch) &&
      ch ∉ ['-', '?', ':', ',', '[', ']', '\x7b', '\x7d', '#', '&', '*', '!', '|', '>', '\'', '"',
        '%', '@', Char.ofNat 0x60]) ||
    (!endsWord behind && (ch == '-' || (s.depth = 0 && (ch == '?' || ch == ':'))))

/-- The next token, at a character. -/
def token? (s : Scan) (ch : Char) : Option Scan :=
  let c := s.cursor
  let behind := c.peekAt 1
  let inFlow := s.depth ≠ 0
  if ch = '%' ∧ c.column = 0 then do
    let s ← (s.unwind (-1)).dropKey?
    let c ← directive? s.cursor
    some (Scan.push { s with keyAllowed := false, cursor := c } .directive)
  else if ch = '-' ∧ c.column = 0 ∧ c.atSeparator then s.documentMark? .documentStart
  else if ch = '.' ∧ c.column = 0 ∧ c.atSeparator then s.documentMark? .documentEnd
  else if ch = '[' then s.openFlow? .flowSequenceStart
  else if ch = '\x7b' then s.openFlow? .flowMappingStart
  else if ch = ']' then s.closeFlow? .flowSequenceEnd
  else if ch = '\x7d' then s.closeFlow? .flowMappingEnd
  else if ch = ',' then s.flowEntry?
  else if ch = '-' ∧ endsWord behind then s.blockEntry?
  else if ch = '?' ∧ (inFlow ∨ endsWord behind) then s.keyMark?
  else if ch = ':' ∧ (inFlow ∨ endsWord behind) then s.valueMark?
  else if ch = '*' then
    s.keyLike? fun c => (anchorName? c.next).map fun (n, c) => (.alias n, c)
  else if ch = '&' then
    s.keyLike? fun c => (anchorName? c.next).map fun (n, c) => (.anchor n, c)
  else if ch = '!' then s.keyLike? fun c => (tag? c).map fun (t, c) => (.tag t, c)
  else if ch = '|' ∧ ¬inFlow then s.blockScalar? false
  else if ch = '>' ∧ ¬inFlow then s.blockScalar? true
  else if ch = '\'' then
    s.keyLike? fun c =>
      (quoted? false (c.rest.length + 1) c.next).map fun (t, c) => (.scalar t false, c)
  else if ch = '"' then
    s.keyLike? fun c =>
      (quoted? true (c.rest.length + 1) c.next).map fun (t, c) => (.scalar t false, c)
  else if s.startsPlain ch behind then s.plainScalar?
  else none

/-- Scans to the end of the text. -/
def run? : Nat → Scan → Option Scan
  | 0, _ => none
  | fuel + 1, s => do
    let s ← (s.toNextToken (s.cursor.rest.length + 1)).dropStaleKeys?
    let s := s.unwind s.cursor.column
    match s.cursor.peek with
    | none => (s.unwind (-1)).dropKey?
    | some ch =>
      let s ← s.token? ch
      run? fuel s

end Scan

/-- The tokens of a text, if every character of it may stand where it does; a
byte order mark may begin it. -/
def tokens? (t : Text) : Option (List Token) :=
  if t.all isAllowed then
    let start : Cursor := ⟨t, 0, 0, 0⟩
    let start := if t.head? = some (Char.ofNat 0xFEFF) then start.next else start
    (Scan.run? (t.length + 2) { cursor := start }).map (·.tokens)
  else none

end SourceMerge.Yaml
