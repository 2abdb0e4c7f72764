import SourceMerge.Data
import SourceMerge.Text.Blank
import SourceMerge.Text.Identifier
import SourceMerge.Text.Utf8

/-!
# SourceMerge.Template.Token

Templates as tokens.  Outside of its marks a template is plain text.  Two open
braces begin an output, a brace and a percent sign a tag, a brace and a hash a
comment; a minus sign at the inner side of a mark takes the white space beyond
it away.  A mark that opens but never closes makes the template invalid, except
that a comment or a raw part which ends with the template right after its
opener is empty.
-/

namespace SourceMerge.Template

/-- The kinds of tokens. -/
inductive TokenKind where
  | text (t : Text)
  | outputBegin
  | outputEnd
  | tagBegin
  | tagEnd
  | name (t : Text)
  | integer (n : Nat)
  | float (x : Float)
  | string (t : Text)
  | operator (t : Text)

/-- A token and the line on which it begins. -/
structure Token where
  kind : TokenKind
  line : Nat

/-! ## String literals -/

/-- The number that the next digits of a base denote, at most `count` of them,
how many there were, and what follows. -/
def takeDigits (base count : Nat) (t : Text) : Nat × Nat × Text :=
  match count, t with
  | 0, _ => (0, 0, t)
  | _, [] => (0, 0, [])
  | count + 1, c :: rest =>
    match Text.hexValue? c with
    | none => (0, 0, c :: rest)
    | some v =>
      if v < base then
        let (n, used, after) := takeDigits base count rest
        (v * base.pow used + n, used + 1, after)
      else (0, 0, c :: rest)

/-- A code point as a character; what is none becomes the replacement
character. -/
def charOfPoint (n : Nat) : Char := if n.isValidChar then Char.ofNat n else Char.ofNat 0xFFFD

/-- What an escape of exactly `count` hexadecimal digits stands for. -/
def fixedEscape? (count : Nat) (t : Text) : Option (Text × Text) :=
  let (n, used, after) := takeDigits 16 count t
  if used = count ∧ n < 0x110000 then some ([charOfPoint n], after) else none

/-- What an escape stands for, and what follows; `t` begins after the
backslash.  An unknown escape stands for itself. -/
def escape? : Text → Option (Text × Text)
  | [] => none
  | c :: rest =>
    match c with
    | '\n' => some ([], rest)
    | '\\' => some (['\\'], rest)
    | '\'' => some (['\''], rest)
    | '"' => some (['"'], rest)
    | 'a' => some ([Char.ofNat 7], rest)
    | 'b' => some ([Char.ofNat 8], rest)
    | 'f' => some ([Char.ofNat 12], rest)
    | 'n' => some (['\n'], rest)
    | 'r' => some (['\r'], rest)
    | 't' => some (['\t'], rest)
    | 'v' => some ([Char.ofNat 11], rest)
    | 'x' => fixedEscape? 2 rest
    | 'u' => fixedEscape? 4 rest
    | 'U' => fixedEscape? 8 rest
    | 'N' => none
    | _ =>
      if '0' ≤ c ∧ c ≤ '7' then
        let (n, _, after) := takeDigits 8 3 (c :: rest)
        some ([charOfPoint n], after)
      else if c.toNat < 0x80 then some (['\\', c], rest)
      else if c.toNat < 0x100 then some ('\\' :: 'x' :: Text.hex 2 c.toNat, rest)
      else if c.toNat < 0x10000 then some ('\\' :: 'u' :: Text.hex 4 c.toNat, rest)
      else some ('\\' :: 'U' :: Text.hex 8 c.toNat, rest)

/-- The text that a string literal denotes, from what stands between its
quotes. -/
def unescape? : Nat → Text → Option Text
  | 0, _ => none
  | _, [] => some []
  | fuel + 1, '\\' :: rest =>
    match escape? rest with
    | none => none
    | some (meant, after) => (unescape? fuel after).map (meant ++ ·)
  | fuel + 1, c :: rest => (unescape? fuel rest).map (c :: ·)

/-- What stands up to the closing quote, and what follows it. -/
def quotedBody? (quote : Char) : Text → Option (Text × Text)
  | [] => none
  | '\\' :: c :: rest => (quotedBody? quote rest).map fun (body, after) => ('\\' :: c :: body, after)
  | c :: rest =>
    if c = quote then some ([], rest)
    else if c = '\\' then none
    else (quotedBody? quote rest).map fun (body, after) => (c :: body, after)

/-! ## Numbers -/

/-- A digit, or an underscore that a digit follows: the rest of a run of digits
of which the first has been read. -/
def moreDigits (isDigit : Char → Bool) : Text → Text × Text
  | [] => ([], [])
  | '_' :: c :: rest =>
    if isDigit c then
      let (ds, after) := moreDigits isDigit rest
      (c :: ds, after)
    else ([], '_' :: c :: rest)
  | c :: rest =>
    if isDigit c then
      let (ds, after) := moreDigits isDigit rest
      (c :: ds, after)
    else ([], c :: rest)

/-- A run of decimal digits, in which single underscores may stand. -/
def digitRun? : Text → Option (Text × Text)
  | [] => none
  | c :: rest =>
    if c.isDigit then
      let (ds, after) := moreDigits Char.isDigit rest
      some (c :: ds, after)
    else none

/-- An exponent: its letter, perhaps a sign, and digits. -/
def exponent? : Text → Option (Int × Text)
  | c :: rest =>
    if c = 'e' ∨ c = 'E' then
      match rest with
      | '-' :: rest => (digitRun? rest).map fun (ds, after) => (-(Text.numeral 10 ds : Int), after)
      | '+' :: rest => (digitRun? rest).map fun (ds, after) => ((Text.numeral 10 ds : Int), after)
      | rest => (digitRun? rest).map fun (ds, after) => ((Text.numeral 10 ds : Int), after)
    else none
  | [] => none

/-- A number with a fraction or an exponent. -/
def floatLiteral? (t : Text) : Option (Float × Text) :=
  match digitRun? t with
  | none => none
  | some (whole, rest) =>
    let fraction :=
      match rest with
      | '.' :: more => digitRun? more
      | _ => none
    match fraction with
    | some (ds, after) =>
      let digits := Text.numeral 10 (whole ++ ds)
      match exponent? after with
      | some (e, after) => some (Decimal.toFloat digits (e - ds.length), after)
      | none => some (Decimal.toFloat digits (-(ds.length : Int)), after)
    | none =>
      (exponent? rest).map fun (e, after) => (Decimal.toFloat (Text.numeral 10 whole) e, after)

/-- Digits of a base that may begin with an underscore. -/
def basedLiteral? (base : Nat) (isDigit : Char → Bool) (t : Text) : Option (Nat × Text) :=
  match moreDigits isDigit t with
  | ([], _) => none
  | (ds, after) => some (Text.numeral base ds, after)

/-- A whole number; zero may be repeated, but no other number begins with it. -/
def integerLiteral? (t : Text) : Option (Nat × Text) :=
  match t with
  | '0' :: rest =>
    let based :=
      match rest with
      | c :: more =>
        if c = 'b' ∨ c = 'B' then basedLiteral? 2 (fun d => d == '0' || d == '1') more
        else if c = 'o' ∨ c = 'O' then basedLiteral? 8 (fun d => '0' ≤ d && d ≤ '7') more
        else if c = 'x' ∨ c = 'X' then basedLiteral? 16 (fun d => (Text.hexValue? d).isSome) more
        else none
      | [] => none
    match based with
    | some found => some found
    | none => some (0, (moreDigits (· == '0') rest).2)
  | _ => (digitRun? t).map fun (ds, after) => (Text.numeral 10 ds, after)

/-! ## Inside a mark -/

/-- The operators, longer ones before their beginnings. -/
def operators : List Text :=
  ["//", "**", "==", "!=", ">=", "<=", "+", "-", "/", "*", "%", "~", "[", "]", "(", ")",
    ['\x7b'], ['\x7d'], ">", "<", "=", ".", ":", "|", ",", ";"]

/-- The bracket that closes an opening one. -/
def closing? : Text → Option Text
  | ['('] => some [')']
  | ['['] => some [']']
  | ['\x7b'] => some ['\x7d']
  | _ => none

/-- The end of a mark: what follows it, if it stands here. -/
def markEnd? (isTag : Bool) (t : Text) : Option Text :=
  let close : Text := if isTag then ['%', '\x7d'] else ['\x7d', '\x7d']
  match Text.dropStart? ('-' :: close) t with
  | some rest => some (Text.trimStart rest)
  | none =>
    match if isTag then Text.dropStart? ('+' :: close) t else none with
    | some rest => some rest
    | none => Text.dropStart? close t

/-- The number of line feeds in a text. -/
def lineFeeds (t : Text) : Nat := t.count '\n'

/-- The line reached when `before` has become `after`. -/
def lineAt (line : Nat) (before after : Text) : Nat :=
  line + lineFeeds (before.take (before.length - after.length))

/-- One token inside a mark that is not its end, and what follows it. -/
def innerToken? (afterPoint : Bool) (t : Text) : Option (TokenKind × Text) :=
  match if afterPoint then none else floatLiteral? t with
  | some (x, after) => some (.float x, after)
  | none =>
    match integerLiteral? t with
    | some (n, after) => some (.integer n, after)
    | none =>
      let name := t.takeWhile Text.isNameChar
      if name ≠ [] then
        if Text.isIdentifier name then some (.name name, t.drop name.length) else none
      else
        match t with
        | c :: rest =>
          if c = '"' ∨ c = '\'' then
            match quotedBody? c rest with
            | none => none
            | some (body, after) =>
              (unescape? (body.length + 1) body).map fun s => (.string s, after)
          else
            operators.findSome? fun o => (Text.dropStart? o t).map fun after => (.operator o, after)
        | [] => none

/-- The tokens inside a mark up to its end, and what follows it with its line.
`open'` holds the brackets still to be closed: while there are any, the mark
does not end.  At the end of the template there is no end token. -/
def inner? (isTag : Bool) : Nat → Nat → List Text → Bool → Text →
    Option (List Token × Text × Nat)
  | 0, _, _, _, _ => none
  | fuel + 1, line, pending, afterPoint, t =>
    match t with
    | [] => some ([], [], line)
    | c :: rest =>
      match if pending.isEmpty then markEnd? isTag t else none with
      | some after =>
        some ([⟨if isTag then .tagEnd else .outputEnd, line⟩], after, lineAt line t after)
      | none =>
        if Text.isBlank c then
          inner? isTag fuel (if c = '\n' then line + 1 else line) pending false rest
        else
          match innerToken? afterPoint t with
          | none => none
          | some (kind, after) =>
            let go (pending : List Text) (point : Bool) :=
              (inner? isTag fuel (lineAt line t after) pending point after).map
                fun (tokens, found) => (⟨kind, line⟩ :: tokens, found)
            match kind with
            | .operator o =>
              match closing? o with
              | some close => go (close :: pending) false
              | none =>
                if o = [')'] ∨ o = [']'] ∨ o = ['\x7d'] then
                  match pending with
                  | close :: pending => if close = o then go pending false else none
                  | [] => none
                else go pending (o == ['.'])
            | _ => go pending false

/-! ## Outside of the marks -/

/-- The marks that interrupt plain text. -/
inductive Mark where
  | output
  | tag
  | comment

/-- The plain text up to the next mark, the mark and what follows it. -/
def cutAtMark : Text → Text × Option (Mark × Text)
  | [] => ([], none)
  | c :: rest =>
    match c, rest with
    | '\x7b', '\x7b' :: after => ([], some (.output, after))
    | '\x7b', '%' :: after => ([], some (.tag, after))
    | '\x7b', '#' :: after => ([], some (.comment, after))
    | _, _ =>
      let (t, found) := cutAtMark rest
      (c :: t, found)

/-- The sign at the inner side of an opener: whether white space before it goes
away, and what follows the sign. -/
def openSign : Text → Bool × Text
  | '-' :: rest => (true, rest)
  | '+' :: rest => (false, rest)
  | t => (false, t)

/-- What follows a comment whose opener has been read. -/
def afterComment? : Text → Option Text
  | [] => none
  | '-' :: '#' :: '\x7d' :: rest => some (Text.trimStart rest)
  | '#' :: '\x7d' :: rest => some rest
  | _ :: rest => afterComment? rest

/-- A tag that holds just a word: what follows the tag.  `t` begins after the
sign of the opener. -/
def bareTag? (word : Text) (t : Text) : Option Text :=
  match Text.dropStart? word (Text.trimStart t) with
  | none => none
  | some rest => markEnd? true (Text.trimStart rest)

/-- The text of a raw part and what follows the tag that ends it. -/
def rawBody? : Text → Option (Text × Text)
  | [] => none
  | '\x7b' :: '%' :: rest =>
    let (trim, inside) := openSign rest
    match bareTag? "endraw" inside with
    | some after => some ([], if trim then '-' :: after else '+' :: after)
    | none => (rawBody? ('%' :: rest)).map fun (body, after) => ('\x7b' :: body, after)
  | c :: rest => (rawBody? rest).map fun (body, after) => (c :: body, after)

/-- A text token, unless the text is empty. -/
def textToken (line : Nat) (t : Text) : List Token :=
  if t = [] then [] else [⟨.text t, line⟩]

/-- The tokens of a template that is read from `line` on. -/
def tokensFrom? : Nat → Nat → Text → Option (List Token)
  | 0, _, _ => none
  | fuel + 1, line, t =>
    match cutAtMark t with
    | (plain, none) => some (textToken line plain)
    | (plain, some (mark, opened)) =>
      let here := line + lineFeeds plain
      let (trim, inside) := openSign opened
      let before := textToken line (if trim then Text.trimEnd plain else plain)
      match mark with
      | .comment =>
        match inside with
        | [] => some before
        | _ =>
          match afterComment? inside with
          | none => none
          | some after => (tokensFrom? fuel (lineAt here inside after) after).map (before ++ ·)
      | .output =>
        match inner? false (inside.length + 1) here [] false inside with
        | none => none
        | some (tokens, after, line) =>
          (tokensFrom? fuel line after).map fun later =>
            before ++ ⟨.outputBegin, here⟩ :: tokens ++ later
      | .tag =>
        match bareTag? "raw" inside with
        | some [] => some before
        | some raw =>
          match rawBody? raw with
          | none => none
          | some (body, signed) =>
            let kept := if signed.head? = some '-' then Text.trimEnd body else body
            let after := signed.drop 1
            let rawLine := lineAt here inside raw
            (tokensFrom? fuel (lineAt rawLine raw after) after).map fun later =>
              before ++ textToken rawLine kept ++ later
        | none =>
          match inner? true (inside.length + 1) here [] false inside with
          | none => none
          | some (tokens, after, line) =>
            (tokensFrom? fuel line after).map fun later =>
              before ++ ⟨.tagBegin, here⟩ :: tokens ++ later

/-- The tokens of a template; every line end counts as a line feed. -/
def tokens? (template : Text) : Option (List Token) :=
  let t := Text.unifyNewlines template
  tokensFrom? (t.length + 1) 1 t

end SourceMerge.Template
