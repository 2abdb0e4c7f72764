import SourceMerge.Data
import SourceMerge.Yaml.Token

/-!
# SourceMerge.Yaml.Node

The tree of a document.  A plain scalar stands for the value that its spelling
gives, a quoted one for its text.  An alias stands for the node that carried its
anchor before; an anchor is used once.  A mapping whose key is `<<` takes over
the entries of the mappings it names, in front of its own.
-/

namespace SourceMerge.Yaml

/-! ## Plain scalars -/

/-- What a plain scalar stands for. -/
inductive Meaning where
  | data (d : Data)
  /-- The key that takes over entries. -/
  | merge
  /-- A mark that stands for a value only as a key. -/
  | mark
  /-- A spelling of a type that cannot be built. -/
  | bad

/-- The spellings of the booleans and of nothing. -/
def words : List (Text × Data) :=
  let spelled (ws : List String) (d : Data) : List (Text × Data) :=
    ws.map fun w => (w.toList, d)
  spelled ["yes", "Yes", "YES", "true", "True", "TRUE", "on", "On", "ON"] (.bool true) ++
    spelled ["no", "No", "NO", "false", "False", "FALSE", "off", "Off", "OFF"] (.bool false) ++
    spelled ["", "~", "null", "Null", "NULL"] .null

/-- Splits off a sign. -/
def splitSign : Text → Bool × Text
  | '-' :: rest => (true, rest)
  | '+' :: rest => (false, rest)
  | t => (false, t)

/-- A number with a sign. -/
def signed (negative : Bool) (n : Nat) : Int := if negative then -(n : Int) else n

/-- Whether a text has digits of a kind and underscores only, and at least one
character. -/
def isRun (isDigit : Char → Bool) (t : Text) : Bool :=
  !t.isEmpty && t.all fun c => isDigit c || c == '_'

/-- The number of a run of digits with underscores. -/
def runValue (base : Nat) (t : Text) : Nat := Text.numeral base (t.filter (· != '_'))

/-- Whether a text is a decimal number that does not begin with zero. -/
def isDecimal : Text → Bool
  | c :: rest => '1' ≤ c && c ≤ '9' && rest.all fun d => d.isDigit || d == '_'
  | [] => false

/-- One or two digits below sixty. -/
def isSixtieth : Text → Bool
  | [a] => a.isDigit
  | [a, b] => '0' ≤ a && a ≤ '5' && b.isDigit
  | _ => false

/-- Numbers to the base sixty, the highest first. -/
def sixtieths (ns : List Nat) : Nat := ns.foldl (fun sum n => 60 * sum + n) 0

/-- The integer that a plain scalar spells. -/
def integer? (t : Text) : Option Int :=
  let (negative, t) := splitSign t
  match t with
  | ['0'] => some 0
  | '0' :: 'b' :: rest =>
    if isRun (fun c => c == '0' || c == '1') rest then some (signed negative (runValue 2 rest))
    else none
  | '0' :: 'x' :: rest =>
    if isRun (fun c => (Text.hexValue? c).isSome) rest then
      some (signed negative (runValue 16 rest))
    else none
  | '0' :: rest =>
    if isRun (fun c => '0' ≤ c && c ≤ '7') rest then some (signed negative (runValue 8 rest))
    else none
  | t =>
    match Text.splitOn ':' t with
    | first :: parts =>
      if isDecimal first ∧ parts.all isSixtieth then
        some (signed negative (sixtieths ((first :: parts).map (runValue 10))))
      else none
    | [] => none

/-- The exponent of a float: a letter, a sign and digits, or nothing. -/
def floatExponent? : Text → Option Int
  | [] => some 0
  | c :: sign :: d :: rest =>
    if (c = 'e' ∨ c = 'E') ∧ (sign = '-' ∨ sign = '+') ∧ (d :: rest).all Char.isDigit then
      some (signed (sign == '-') (Text.numeral 10 (d :: rest)))
    else none
  | _ => none

/-- The float that a plain scalar spells. -/
def float? (t : Text) : Option Float :=
  let (negative, body) := splitSign t
  let sign (x : Float) : Float := if negative then -x else x
  if body ∈ ([".inf", ".Inf", ".INF"] : List Text) then some (sign (1.0 / 0.0))
  else if t ∈ ([".nan", ".NaN", ".NAN"] : List Text) then some (0.0 / 0.0)
  else
    let isDigitChar (c : Char) : Bool := c.isDigit || c == '_'
    let whole := body.takeWhile isDigitChar
    match body.drop whole.length with
    | '.' :: rest =>
      let fraction := rest.takeWhile isDigitChar
      let exponent := rest.drop fraction.length
      let startsWell :=
        match whole with
        | [] => body.length = t.length && fraction.head?.any Char.isDigit
        | c :: _ => c.isDigit
      if !startsWell then none
      else
        (floatExponent? exponent).map fun e =>
          let places := fraction.filter (· != '_')
          sign (Decimal.toFloat (runValue 10 (whole ++ places)) (e - places.length))
    | ':' :: _ =>
      match (Text.splitOn ':' body).reverse with
      | last :: before =>
        match Text.cutAt '.' last with
        | (seconds, some fraction) =>
          let parts := before.reverse
          if (parts.headD []).head?.any Char.isDigit ∧ isRun Char.isDigit (parts.headD []) ∧
              (parts.drop 1).all isSixtieth ∧ isSixtieth seconds ∧ fraction.all isDigitChar then
            let places := fraction.filter (· != '_')
            let n := sixtieths ((parts ++ [seconds]).map (runValue 10))
            some (sign (Decimal.toFloat (n * Nat.pow 10 places.length + runValue 10 places)
              (-(places.length : Int))))
          else none
        | (_, none) => none
      | [] => none
    | _ => none

/-- What a plain scalar stands for. -/
def meaning (t : Text) : Meaning :=
  match words.lookup t with
  | some d => .data d
  | none =>
    match float? t with
    | some x => .data (.float x)
    | none =>
      match integer? t with
      | some n => .data (.int n)
      | none =>
        if t = ['<', '<'] then .merge else if t = ['='] then .mark else .data (.text t)

/-! ## Trees -/

/-- A node of a document. -/
inductive Node where
  | scalar (written : Text) (m : Meaning)
  | sequence (items : List Node)
  | mapping (entries : List (Node × Node))

/-- What an empty place stands for. -/
def Node.empty : Node := .scalar [] (.data .null)

/-- The anchors seen so far. -/
abbrev Anchors := List (Text × Node)

/-- A node, the tokens behind it and the anchors. -/
abbrev Found (α : Type) := α × List Token × Anchors

/-- The anchor and the tag in front of a node, in either order. -/
def properties : List Token → Option Text × Option Tag × List Token
  | .anchor a :: .tag t :: rest => (some a, some t, rest)
  | .anchor a :: rest => (some a, none, rest)
  | .tag t :: .anchor a :: rest => (some a, some t, rest)
  | .tag t :: rest => (none, some t, rest)
  | tokens => (none, none, tokens)

/-- The meaning of a scalar with a tag. -/
def taggedMeaning (tag : Option Tag) (t : Text) (plain : Bool) : Meaning :=
  let wanted (accepts : Data → Bool) : Meaning :=
    match meaning t with
    | .data d => if accepts d then .data d else .bad
    | _ => .bad
  match tag with
  | none => if plain then meaning t else .data (.text t)
  | some .plain => meaning t
  | some (.common n) =>
    if n = "str".toList then .data (.text t)
    else if n = "int".toList then wanted fun d => d matches .int _
    else if n = "float".toList then wanted fun d => d matches .float _
    else if n = "bool".toList then wanted fun d => d matches .bool _
    else if n = "null".toList then .data .null
    else .bad
  | some .unknown => .bad

/-- Whether a tag may stand before a collection of the type of this name. -/
def admits (tag : Option Tag) (name : Text) : Bool :=
  match tag with
  | none => true
  | some .plain => true
  | some (.common n) => n == name
  | some .unknown => false

/-- Remembers a node under its anchor, which must be new. -/
def remember? (anchor : Option Text) (n : Node) (tokens : List Token) (known : Anchors) :
    Option (Found Node) :=
  match anchor with
  | none => some (n, tokens, known)
  | some a => if (known.lookup a).isSome then none else some (n, tokens, (a, n) :: known)

/-- Whether a block collection has no node at this place. -/
def endsEntry : List Token → Bool
  | .key :: _ => true
  | .value :: _ => true
  | .blockEntry :: _ => true
  | .blockEnd :: _ => true
  | _ => false

/-- Whether a mapping has no node at this place; a dash is no end here. -/
def endsBlockValue : List Token → Bool
  | .key :: _ => true
  | .value :: _ => true
  | .blockEnd :: _ => true
  | _ => false

/-- Whether there is no node at this place between brackets. -/
def endsFlowValue : List Token → Bool
  | .value :: _ => true
  | .flowEntry :: _ => true
  | .flowSequenceEnd :: _ => true
  | .flowMappingEnd :: _ => true
  | _ => false

mutual

/-- A node; `inBlock` admits block collections, and `dashes` a sequence at the
column of the key it belongs to. -/
def node? : Nat → Bool → Bool → List Token → Anchors → Option (Found Node)
  | 0, _, _, _, _ => none
  | fuel + 1, inBlock, dashes, tokens, known =>
    match tokens with
    | .alias a :: rest => (known.lookup a).map fun n => (n, rest, known)
    | _ =>
      let (anchor, tag, tokens) := properties tokens
      if anchor.any fun a => (known.lookup a).isSome then none
      else
        let collection (name : Text) (found : Option (Found Node)) : Option (Found Node) :=
          if admits tag name then
            found.bind fun (n, tokens, known) => remember? anchor n tokens known
          else none
        match tokens with
        | .scalar t plain :: rest =>
          remember? anchor (.scalar t (taggedMeaning tag t plain)) rest known
        | .flowSequenceStart :: rest =>
          collection "seq" ((flowItems? fuel true rest known).map fun (ns, f) => (.sequence ns, f))
        | .flowMappingStart :: rest =>
          collection "map" ((flowEntries? fuel true rest known).map fun (es, f) => (.mapping es, f))
        | .blockEntry :: _ =>
          if dashes then
            collection "seq" ((dashItems? fuel tokens known).map fun (ns, f) => (.sequence ns, f))
          else if anchor.isSome ∨ tag.isSome then
            remember? anchor (.scalar [] (taggedMeaning tag [] true)) tokens known
          else none
        | .blockSequenceStart :: rest =>
          if inBlock then
            collection "seq" ((blockItems? fuel rest known).map fun (ns, f) => (.sequence ns, f))
          else if anchor.isSome ∨ tag.isSome then
            remember? anchor (.scalar [] (taggedMeaning tag [] true)) tokens known
          else none
        | .blockMappingStart :: rest =>
          if inBlock then
            collection "map" ((blockEntries? fuel rest known).map fun (es, f) => (.mapping es, f))
          else if anchor.isSome ∨ tag.isSome then
            remember? anchor (.scalar [] (taggedMeaning tag [] true)) tokens known
          else none
        | _ =>
          if anchor.isSome ∨ tag.isSome then
            remember? anchor (.scalar [] (taggedMeaning tag [] true)) tokens known
          else none

/-- The items of a block sequence up to its end. -/
def blockItems? : Nat → List Token → Anchors → Option (Found (List Node))
  | 0, _, _ => none
  | fuel + 1, tokens, known =>
    match tokens with
    | .blockEnd :: rest => some ([], rest, known)
    | .blockEntry :: rest => do
      let (n, tokens, known) ←
        match rest with
        | .blockEntry :: _ => some (Node.empty, rest, known)
        | .blockEnd :: _ => some (Node.empty, rest, known)
        | _ => node? fuel true false rest known
      let (ns, f) ← blockItems? fuel tokens known
      some (n :: ns, f)
    | _ => none

/-- The items of a sequence whose dashes stand at the column of its key. -/
def dashItems? : Nat → List Token → Anchors → Option (Found (List Node))
  | 0, _, _ => none
  | fuel + 1, tokens, known =>
    match tokens with
    | .blockEntry :: rest => do
      let (n, tokens, known) ←
        if endsEntry rest then some (Node.empty, rest, known) else node? fuel true false rest known
      let (ns, f) ← dashItems? fuel tokens known
      some (n :: ns, f)
    | _ => some ([], tokens, known)

/-- The entries of a block mapping up to its end. -/
def blockEntries? : Nat → List Token → Anchors → Option (Found (List (Node × Node)))
  | 0, _, _ => none
  | fuel + 1, tokens, known =>
    let entry (k : Node) (tokens : List Token) (known : Anchors) :
        Option (Found (List (Node × Node))) := do
      let (v, tokens, known) ←
        match tokens with
        | .value :: rest =>
          if endsBlockValue rest then some (Node.empty, rest, known)
          else node? fuel true true rest known
        | _ => some (Node.empty, tokens, known)
      let (es, f) ← blockEntries? fuel tokens known
      some ((k, v) :: es, f)
    match tokens with
    | .blockEnd :: rest => some ([], rest, known)
    | .key :: rest => do
      let (k, tokens, known) ←
        if endsBlockValue rest then some (Node.empty, rest, known)
        else node? fuel true true rest known
      entry k tokens known
    | .value :: _ => none
    | _ => none

/-- The items of a flow sequence up to its bracket; a key makes an item a
mapping of one entry. -/
def flowItems? : Nat → Bool → List Token → Anchors → Option (Found (List Node))
  | 0, _, _, _ => none
  | fuel + 1, first, tokens, known =>
    match tokens with
    | .flowSequenceEnd :: rest => some ([], rest, known)
    | _ => do
      let tokens ←
        if first then some tokens
        else
          match tokens with
          | .flowEntry :: rest => some rest
          | _ => none
      match tokens with
      | .flowSequenceEnd :: rest => some ([], rest, known)
      | .key :: rest =>
        let (k, tokens, known) ←
          if endsFlowValue rest then some (Node.empty, rest, known)
          else node? fuel false false rest known
        let (v, tokens, known) ←
          match tokens with
          | .value :: rest =>
            if endsFlowValue rest then some (Node.empty, rest, known)
            else node? fuel false false rest known
          | _ => some (Node.empty, tokens, known)
        let (ns, f) ← flowItems? fuel false tokens known
        some (.mapping [(k, v)] :: ns, f)
      | _ =>
        let (n, tokens, known) ← node? fuel false false tokens known
        let (ns, f) ← flowItems? fuel false tokens known
        some (n :: ns, f)

/-- The entries of a flow mapping up to its brace. -/
def flowEntries? : Nat → Bool → List Token → Anchors → Option (Found (List (Node × Node)))
  | 0, _, _, _ => none
  | fuel + 1, first, tokens, known =>
    match tokens with
    | .flowMappingEnd :: rest => some ([], rest, known)
    | _ => do
      let tokens ←
        if first then some tokens
        else
          match tokens with
          | .flowEntry :: rest => some rest
          | _ => none
      match tokens with
      | .flowMappingEnd :: rest => some ([], rest, known)
      | .key :: rest =>
        let (k, tokens, known) ←
          if endsFlowValue rest then some (Node.empty, rest, known)
          else node? fuel false false rest known
        let (v, tokens, known) ←
          match tokens with
          | .value :: rest =>
            if endsFlowValue rest then some (Node.empty, rest, known)
            else node? fuel false false rest known
          | _ => some (Node.empty, tokens, known)
        let (es, f) ← flowEntries? fuel false tokens known
        some ((k, v) :: es, f)
      | _ =>
        let (n, tokens, known) ← node? fuel false false tokens known
        let (es, f) ← flowEntries? fuel false tokens known
        some ((n, Node.empty) :: es, f)

end

/-- Whether nothing but ends of documents is left. -/
def onlyEnds : List Token → Bool
  | [] => true
  | .documentEnd :: rest => onlyEnds rest
  | _ => false

/-- The root of the only document; a text without one has the empty node. -/
def root? (tokens : List Token) : Option Node :=
  let content (tokens : List Token) : Option Node :=
    match tokens with
    | [] => some Node.empty
    | .documentEnd :: rest => if onlyEnds rest then some Node.empty else none
    | _ =>
      match node? (4 * tokens.length + 4) true false tokens [] with
      | some (n, rest, _) => if onlyEnds rest then some n else none
      | none => none
  match tokens with
  | .directive :: rest =>
    match rest.dropWhile fun t => t matches .directive with
    | .documentStart :: rest => content rest
    | _ => none
  | .documentStart :: rest => content rest
  | .documentEnd :: _ => none
  | tokens => content tokens

/-! ## Data -/

mutual

/-- The entries of a mapping, with those that it takes over in front. -/
def flatten? : Nat → List (Node × Node) → Option (List (Node × Node))
  | 0, _ => none
  | fuel + 1, entries => do
    let taken ← takenOver? fuel entries
    let own := entries.filter fun e => !(e.1 matches .scalar _ .merge)
    some (taken ++ own)

/-- The entries that a mapping takes over; of several mappings in a sequence
the first one comes last. -/
def takenOver? : Nat → List (Node × Node) → Option (List (Node × Node))
  | 0, _ => none
  | _, [] => some []
  | fuel + 1, (.scalar _ .merge, v) :: rest => do
    let taken ←
      match v with
      | .mapping es => flatten? fuel es
      | .sequence ns => do
        let parts ← ns.mapM fun
          | .mapping es => flatten? fuel es
          | _ => none
        some parts.reverse.flatten
      | _ => none
    let more ← takenOver? fuel rest
    some (taken ++ more)
  | fuel + 1, _ :: rest => takenOver? fuel rest

end

/-- Whether a value may be a key. -/
def isKey : Data → Bool
  | .list _ => false
  | .map _ => false
  | _ => true

/-- The data of a node; the fuel bounds its depth. -/
def Node.data? (size : Nat) : Nat → Node → Option Data
  | 0, _ => none
  | fuel + 1, n =>
    match n with
    | .scalar _ (.data d) => some d
    | .scalar _ _ => none
    | .sequence ns => (ns.mapM (Node.data? size fuel)).map .list
    | .mapping es => do
      let es ← flatten? size es
      let pairs ← es.mapM fun (k, v) => do
        let k ←
          match k with
          | .scalar t .mark => some (.text t)
          | k => Node.data? size fuel k
        let v ← Node.data? size fuel v
        if isKey k then some (k, v) else none
      some (.map (Entries.ofList pairs))

/-- The data that a YAML text describes, if it is well formed. -/
def parse? (t : Text) : Option Data := do
  let tokens ← tokens? t
  let root ← root? tokens
  Node.data? (2 * tokens.length + 2) (2 * tokens.length + 2) root

end SourceMerge.Yaml
