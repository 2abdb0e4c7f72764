import SourceMerge.Template.Token
import SourceMerge.Template.Tree

/-!
# SourceMerge.Template.Reader

From tokens to trees.  Operators bind, from weak to strong: the inline choice,
`or`, `and`, `not`, comparisons, sums, `~`, products, powers, signs, and last
what stands behind a value: attributes, items, calls, filters and tests.  Every
function takes the tokens that are left and gives back those after its part; it
answers `none` for an invalid template.  The fuel bounds the nesting, and a
reader of `n` tokens never needs more than the fuel it is given.
-/

namespace SourceMerge.Template

/-- Drops an operator. -/
def takeOperator? (o : Text) : List Token → Option (List Token)
  | ⟨.operator p, _⟩ :: rest => if p = o then some rest else none
  | _ => none

/-- Drops a word. -/
def takeWord? (w : Text) : List Token → Option (List Token)
  | ⟨.name n, _⟩ :: rest => if n = w then some rest else none
  | _ => none

/-- The line of the next token. -/
def nextLine : List Token → Nat
  | t :: _ => t.line
  | [] => 0

/-- The words that stand for values. -/
def wordValue? (n : Text) : Option Data :=
  if n ∈ (["true", "True"] : List Text) then some (.bool true)
  else if n ∈ (["false", "False"] : List Text) then some (.bool false)
  else if n ∈ (["none", "None"] : List Text) then some .null
  else none

/-- The comparison that stands here. -/
def comparison? : List Token → Option (Comparison × List Token)
  | ⟨.operator o, _⟩ :: rest =>
    let found : List (Text × Comparison) :=
      [("==", .eq), ("!=", .ne), ("<", .lt), ("<=", .le), (">", .gt), (">=", .ge)]
    (found.lookup o).map (·, rest)
  | tokens =>
    match takeWord? "in" tokens with
    | some rest => some (.isIn, rest)
    | none =>
      match (takeWord? "not" tokens).bind (takeWord? "in") with
      | some rest => some (.notIn, rest)
      | none => none

/-- The operation of an operator among those of one strength. -/
def arithmetic? (ops : List (Text × Arithmetic)) : List Token → Option (Arithmetic × List Token)
  | ⟨.operator o, _⟩ :: rest => (ops.lookup o).map (·, rest)
  | _ => none

/-- Sums and differences. -/
def sums : List (Text × Arithmetic) := [("+", .add), ("-", .sub)]

/-- Products and quotients. -/
def products : List (Text × Arithmetic) :=
  [("*", .mul), ("/", .div), ("//", .floorDiv), ("%", .mod)]

/-- Powers. -/
def powers : List (Text × Arithmetic) := [("**", .pow)]

/-- Adjacent string literals, as one text. -/
def strings : List Token → Text × List Token
  | ⟨.string s, _⟩ :: rest =>
    let (more, after) := strings rest
    (s ++ more, after)
  | tokens => ([], tokens)

/-- Whether a list of values without brackets ends here. -/
def endsTuple (stop : List Text) : List Token → Bool
  | ⟨.outputEnd, _⟩ :: _ => true
  | ⟨.tagEnd, _⟩ :: _ => true
  | ⟨.operator [')'], _⟩ :: _ => true
  | ⟨.name n, _⟩ :: _ => n ∈ stop
  | _ => false

/-- Whether a test takes the token as its argument. -/
def startsArgument : List Token → Bool
  | ⟨.name n, _⟩ :: _ => n ∉ (["else", "or", "and"] : List Text)
  | ⟨.string _, _⟩ :: _ => true
  | ⟨.integer _, _⟩ :: _ => true
  | ⟨.float _, _⟩ :: _ => true
  | ⟨.operator o, _⟩ :: _ => o ∈ ([['('], ['['], ['\x7b']] : List Text)
  | _ => false

/-- A name with points in it, as filters and tests may have. -/
def dottedName? : Nat → List Token → Option (Text × List Token)
  | 0, _ => none
  | fuel + 1, ⟨.name n, _⟩ :: rest =>
    match takeOperator? "." rest with
    | none => some (n, rest)
    | some more => (dottedName? fuel more).map fun (m, after) => (n ++ '.' :: m, after)
  | _, _ => none

/-! ## Expressions -/

mutual

/-- An expression. -/
def expression? : Nat → List Token → Option (Expr × List Token)
  | 0, _ => none
  | fuel + 1, ts => do
    let line := nextLine ts
    let (e, ts) ← disjunction? fuel ts
    choices? fuel line e ts

/-- Inline choices behind an expression. -/
def choices? : Nat → Nat → Expr → List Token → Option (Expr × List Token)
  | 0, _, _, _ => none
  | fuel + 1, line, e, ts =>
    match takeWord? "if" ts with
    | none => some (e, ts)
    | some ts => do
      let (condition, ts) ← disjunction? fuel ts
      match takeWord? "else" ts with
      | some ts =>
        let (other, ts) ← expression? fuel ts
        choices? fuel (nextLine ts) (.choice line condition e (some other)) ts
      | none => choices? fuel (nextLine ts) (.choice line condition e none) ts

/-- Expressions joined by `or`. -/
def disjunction? : Nat → List Token → Option (Expr × List Token)
  | 0, _ => none
  | fuel + 1, ts => do
    let (e, ts) ← conjunction? fuel ts
    moreDisjuncts? fuel e ts

/-- What follows an expression with `or`. -/
def moreDisjuncts? : Nat → Expr → List Token → Option (Expr × List Token)
  | 0, _, _ => none
  | fuel + 1, e, ts =>
    match takeWord? "or" ts with
    | none => some (e, ts)
    | some ts => do
      let (other, ts) ← conjunction? fuel ts
      moreDisjuncts? fuel (.or e other) ts

/-- Expressions joined by `and`. -/
def conjunction? : Nat → List Token → Option (Expr × List Token)
  | 0, _ => none
  | fuel + 1, ts => do
    let (e, ts) ← negation? fuel ts
    moreConjuncts? fuel e ts

/-- What follows an expression with `and`. -/
def moreConjuncts? : Nat → Expr → List Token → Option (Expr × List Token)
  | 0, _, _ => none
  | fuel + 1, e, ts =>
    match takeWord? "and" ts with
    | none => some (e, ts)
    | some ts => do
      let (other, ts) ← negation? fuel ts
      moreConjuncts? fuel (.and e other) ts

/-- A negation or a comparison. -/
def negation? : Nat → List Token → Option (Expr × List Token)
  | 0, _ => none
  | fuel + 1, ts =>
    match takeWord? "not" ts with
    | some ts => do
      let (e, ts) ← negation? fuel ts
      some (.not e, ts)
    | none => do
      let (e, ts) ← sum? fuel ts
      let (ops, rest, ts) ← comparisons? fuel ts
      if ops = [] then some (e, ts) else some (.compare e ops rest, ts)

/-- The comparisons behind an expression. -/
def comparisons? : Nat → List Token → Option (List Comparison × List Expr × List Token)
  | 0, _ => none
  | fuel + 1, ts =>
    match comparison? ts with
    | none => some ([], [], ts)
    | some (op, ts) => do
      let (e, ts) ← sum? fuel ts
      let (ops, es, ts) ← comparisons? fuel ts
      some (op :: ops, e :: es, ts)

/-- Sums. -/
def sum? : Nat → List Token → Option (Expr × List Token)
  | 0, _ => none
  | fuel + 1, ts => do
    let (e, ts) ← concatenation? fuel ts
    moreSummands? fuel e ts

/-- What follows a summand. -/
def moreSummands? : Nat → Expr → List Token → Option (Expr × List Token)
  | 0, _, _ => none
  | fuel + 1, e, ts =>
    match arithmetic? sums ts with
    | none => some (e, ts)
    | some (op, ts) => do
      let (other, ts) ← concatenation? fuel ts
      moreSummands? fuel (.arithmetic op e other) ts

/-- Values joined as texts. -/
def concatenation? : Nat → List Token → Option (Expr × List Token)
  | 0, _ => none
  | fuel + 1, ts => do
    let (e, ts) ← product? fuel ts
    let (es, ts) ← moreTexts? fuel ts
    if es.isEmpty then some (e, ts) else some (.concat (e :: es), ts)

/-- What follows a text with `~`. -/
def moreTexts? : Nat → List Token → Option ((List Expr) × List Token)
  | 0, _ => none
  | fuel + 1, ts =>
    match takeOperator? "~" ts with
    | none => some ([], ts)
    | some ts => do
      let (e, ts) ← product? fuel ts
      let (es, ts) ← moreTexts? fuel ts
      some (e :: es, ts)

/-- Products. -/
def product? : Nat → List Token → Option (Expr × List Token)
  | 0, _ => none
  | fuel + 1, ts => do
    let (e, ts) ← power? fuel ts
    moreFactors? fuel e ts

/-- What follows a factor. -/
def moreFactors? : Nat → Expr → List Token → Option (Expr × List Token)
  | 0, _, _ => none
  | fuel + 1, e, ts =>
    match arithmetic? products ts with
    | none => some (e, ts)
    | some (op, ts) => do
      let (other, ts) ← power? fuel ts
      moreFactors? fuel (.arithmetic op e other) ts

/-- Powers, from the left. -/
def power? : Nat → List Token → Option (Expr × List Token)
  | 0, _ => none
  | fuel + 1, ts => do
    let (e, ts) ← signed? fuel true ts
    moreExponents? fuel e ts

/-- What follows the base of a power. -/
def moreExponents? : Nat → Expr → List Token → Option (Expr × List Token)
  | 0, _, _ => none
  | fuel + 1, e, ts =>
    match arithmetic? powers ts with
    | none => some (e, ts)
    | some (op, ts) => do
      let (other, ts) ← signed? fuel true ts
      moreExponents? fuel (.arithmetic op e other) ts

/-- A value, perhaps with signs before it; `filters` says whether filters and
tests may follow it. -/
def signed? : Nat → Bool → List Token → Option (Expr × List Token)
  | 0, _, _ => none
  | fuel + 1, filters, ts => do
    let (e, ts) ←
      match takeOperator? "-" ts with
      | some ts => (signed? fuel false ts).map fun (e, ts) => (.negate e, ts)
      | none =>
        match takeOperator? "+" ts with
        | some ts => (signed? fuel false ts).map fun (e, ts) => (.plus e, ts)
        | none => (primary? fuel ts)
    let (e, ts) ← postfixes? fuel e ts
    if filters then filters? fuel e ts else some (e, ts)

/-- A name, a literal or something in brackets. -/
def primary? : Nat → List Token → Option (Expr × List Token)
  | 0, _ => none
  | fuel + 1, ts =>
    match ts with
    | ⟨.name n, _⟩ :: rest =>
      match wordValue? n with
      | some d => some (.const d, rest)
      | none => some (.name n, rest)
    | ⟨.string _, _⟩ :: _ =>
      let (s, rest) := strings ts
      some (.const (.text s), rest)
    | ⟨.integer n, _⟩ :: rest => some (.const (.int n), rest)
    | ⟨.float x, _⟩ :: rest => some (.const (.float x), rest)
    | ⟨.operator ['('], _⟩ :: rest => do
      let (e, rest) ← tuple? fuel true true [] rest
      let rest ← takeOperator? ")" rest
      some (e, rest)
    | ⟨.operator ['['], _⟩ :: rest => do
      let (es, rest) ← listItems? fuel true rest
      some (.list es, rest)
    | ⟨.operator ['\x7b'], _⟩ :: rest => do
      let (entries, rest) ← dictItems? fuel true rest
      some (.dict (entries.map (·.1)) (entries.map (·.2)), rest)
    | _ => none

/-- The items of a list up to its bracket; a comma may stand before that. -/
def listItems? : Nat → Bool → List Token → Option ((List Expr) × List Token)
  | 0, _, _ => none
  | fuel + 1, first, ts =>
    match takeOperator? "]" ts with
    | some rest => some ([], rest)
    | none => do
      let ts ← if first then some ts else takeOperator? "," ts
      match if first then none else takeOperator? "]" ts with
      | some rest => some ([], rest)
      | none =>
        let (e, ts) ← expression? fuel ts
        let (es, ts) ← listItems? fuel false ts
        some (e :: es, ts)

/-- The entries of a mapping up to its brace; a comma may stand before that. -/
def dictItems? : Nat → Bool → List Token → Option ((List (Expr × Expr)) × List Token)
  | 0, _, _ => none
  | fuel + 1, first, ts =>
    match takeOperator? ['\x7d'] ts with
    | some rest => some ([], rest)
    | none => do
      let ts ← if first then some ts else takeOperator? "," ts
      match if first then none else takeOperator? ['\x7d'] ts with
      | some rest => some ([], rest)
      | none =>
        let (k, ts) ← expression? fuel ts
        let ts ← takeOperator? ":" ts
        let (v, ts) ← expression? fuel ts
        let (es, ts) ← dictItems? fuel false ts
        some ((k, v) :: es, ts)

/-- Values between commas: one value without a comma is that value.  `choice`
admits inline choices, `bracketed` an empty list, and the words of `stop` end
it. -/
def tuple? : Nat → Bool → Bool → List Text → List Token → Option (Expr × List Token)
  | 0, _, _, _, _ => none
  | fuel + 1, choice, bracketed, stop, ts => do
    let (es, comma, ts) ← tupleItems? fuel choice stop ts
    match es, comma with
    | [e], false => some (e, ts)
    | [], _ => if bracketed then some (.tuple [], ts) else none
    | es, _ => some (.tuple es, ts)

/-- The values between commas, and whether there was a comma. -/
def tupleItems? : Nat → Bool → List Text → List Token →
    Option (List Expr × Bool × List Token)
  | 0, _, _, _ => none
  | fuel + 1, choice, stop, ts =>
    if endsTuple stop ts then some ([], false, ts)
    else do
      let (e, ts) ← if choice then expression? fuel ts else disjunction? fuel ts
      match takeOperator? "," ts with
      | none => some ([e], false, ts)
      | some ts => do
        let (es, _, ts) ← tupleItems? fuel choice stop ts
        some (e :: es, true, ts)

/-- Attributes, items and calls behind a value. -/
def postfixes? : Nat → Expr → List Token → Option (Expr × List Token)
  | 0, _, _ => none
  | fuel + 1, e, ts =>
    match ts with
    | ⟨.operator ['.'], _⟩ :: ⟨.name n, _⟩ :: rest => postfixes? fuel (.attribute e n) rest
    | ⟨.operator ['.'], _⟩ :: ⟨.integer n, _⟩ :: rest =>
      postfixes? fuel (.item e (.const (.int n))) rest
    | ⟨.operator ['.'], _⟩ :: _ => none
    | ⟨.operator ['['], _⟩ :: rest => do
      let (es, rest) ← subscripts? fuel true rest
      match es with
      | [] => none
      | [i] => postfixes? fuel (.item e i) rest
      | es => postfixes? fuel (.item e (.tuple es)) rest
    | ⟨.operator ['('], _⟩ :: rest => do
      let (arguments, rest) ← arguments? fuel true rest
      postfixes? fuel (.call e arguments) rest
    | _ => some (e, ts)

/-- What stands between item brackets. -/
def subscripts? : Nat → Bool → List Token → Option ((List Expr) × List Token)
  | 0, _, _ => none
  | fuel + 1, first, ts =>
    match takeOperator? "]" ts with
    | some rest => some ([], rest)
    | none => do
      let ts ← if first then some ts else takeOperator? "," ts
      let (e, ts) ← subscript? fuel ts
      let (es, ts) ← subscripts? fuel false ts
      some (e :: es, ts)

/-- An index or a slice. -/
def subscript? : Nat → List Token → Option (Expr × List Token)
  | 0, _ => none
  | fuel + 1, ts =>
    match takeOperator? ":" ts with
    | some ts => sliceEnd? fuel (.const .null) ts
    | none => do
      let (e, ts) ← expression? fuel ts
      match takeOperator? ":" ts with
      | none => some (e, ts)
      | some ts => sliceEnd? fuel e ts

/-- The parts of a slice behind its first colon. -/
def sliceEnd? : Nat → Expr → List Token → Option (Expr × List Token)
  | 0, _, _ => none
  | fuel + 1, first, ts => do
    let (last, ts) ← slicePart? fuel ts
    match takeOperator? ":" ts with
    | none => some (.slice first last (.const .null), ts)
    | some ts =>
      let (step, ts) ← slicePart? fuel ts
      some (.slice first last step, ts)

/-- A part of a slice, which may be missing. -/
def slicePart? : Nat → List Token → Option (Expr × List Token)
  | 0, _ => none
  | fuel + 1, ts =>
    match ts with
    | ⟨.operator o, _⟩ :: _ =>
      if o ∈ ([":", "]", ","] : List Text) then some (.const .null, ts) else expression? fuel ts
    | _ => expression? fuel ts

/-- The arguments of a call up to its bracket: first those by place, then
those by name; a comma may stand before the bracket. -/
def arguments? : Nat → Bool → List Token → Option ((List Expr) × List Token)
  | 0, _, _ => none
  | fuel + 1, first, ts =>
    match takeOperator? ")" ts with
    | some rest => some ([], rest)
    | none => do
      let ts ← if first then some ts else takeOperator? "," ts
      match if first then none else takeOperator? ")" ts with
      | some rest => some ([], rest)
      | none =>
        match ts with
        | ⟨.name n, _⟩ :: ⟨.operator ['='], _⟩ :: ts =>
          let (e, ts) ← expression? fuel ts
          let (es, ts) ← arguments? fuel false ts
          if es.all fun
            | .named _ _ => true
            | _ => false
          then some (.named n e :: es, ts) else none
        | ts =>
          let (e, ts) ← expression? fuel ts
          let (es, ts) ← arguments? fuel false ts
          some (e :: es, ts)

/-- Filters, tests and calls behind a value. -/
def filters? : Nat → Expr → List Token → Option (Expr × List Token)
  | 0, _, _ => none
  | fuel + 1, e, ts =>
    match takeOperator? "|" ts with
    | some ts => do
      let (n, arguments, ts) ← filterCall? fuel ts
      filters? fuel (.filter n e arguments) ts
    | none =>
      match takeWord? "is" ts with
      | some ts => do
        let (negated, ts) :=
          match takeWord? "not" ts with
          | some ts => (true, ts)
          | none => (false, ts)
        let (n, ts) ← dottedName? ts.length ts
        let (arguments, ts) ← testArguments? fuel ts
        let tested := Expr.test n e arguments
        filters? fuel (if negated then .not tested else tested) ts
      | none =>
        match takeOperator? "(" ts with
        | some ts => do
          let (arguments, ts) ← arguments? fuel true ts
          filters? fuel (.call e arguments) ts
        | none => some (e, ts)

/-- A filter with its arguments. -/
def filterCall? : Nat → List Token → Option (Text × List Expr × List Token)
  | 0, _ => none
  | fuel + 1, ts => do
    let (n, ts) ← dottedName? ts.length ts
    match takeOperator? "(" ts with
    | some ts =>
      let (arguments, ts) ← arguments? fuel true ts
      some (n, arguments, ts)
    | none => some (n, [], ts)

/-- The arguments of a test: in brackets, or one value that stands behind it.
A second `is` there is invalid. -/
def testArguments? : Nat → List Token → Option ((List Expr) × List Token)
  | 0, _ => none
  | fuel + 1, ts =>
    match takeOperator? "(" ts with
    | some ts => arguments? fuel true ts
    | none =>
      if startsArgument ts then
        if (takeWord? "is" ts).isSome then none
        else do
          let (e, ts) ← primary? fuel ts
          let (e, ts) ← postfixes? fuel e ts
          some ([e], ts)
      else some ([], ts)

end

/-! ## Nodes -/

/-- What an expression without brackets sets, if it can be set. -/
def target? : Nat → List Text → List Token → Option (Target × List Token)
  | 0, _, _ => none
  | fuel + 1, stop, ts =>
    let single (ts : List Token) : Option (Target × List Token) :=
      match ts with
      | ⟨.name n, _⟩ :: rest => if (wordValue? n).isSome then none else some (.name n, rest)
      | ⟨.operator ['('], _⟩ :: rest => do
        let (t, rest) ← target? fuel [] rest
        let rest ← takeOperator? ")" rest
        some (t, rest)
      | _ => none
    let rec more (count : Nat) (ts : List Token) : Option (List Target × Bool × List Token) :=
      match count with
      | 0 => none
      | count + 1 =>
        if endsTuple stop ts then some ([], false, ts)
        else do
          let (t, ts) ← single ts
          match takeOperator? "," ts with
          | none => some ([t], false, ts)
          | some ts => do
            let (found, _, ts) ← more count ts
            some (t :: found, true, ts)
    do
      let (found, comma, ts) ← more (ts.length + 1) ts
      match found, comma with
      | [t], false => some (t, ts)
      | [], _ => none
      | found, _ => some (.tuple found, ts)

/-- Drops the end of a tag. -/
def takeTagEnd? : List Token → Option (List Token)
  | ⟨.tagEnd, _⟩ :: rest => some rest
  | _ => none

/-- Drops a colon and the end of a tag. -/
def takeHeadEnd? (ts : List Token) : Option (List Token) :=
  takeTagEnd? ((takeOperator? ":" ts).getD ts)

/-- The filters after a tag, each with its arguments. -/
def filterChain? : Nat → List Token → Option ((List (Text × List Expr)) × List Token)
  | 0, _ => none
  | fuel + 1, ts =>
    match takeOperator? "|" ts with
    | none => some ([], ts)
    | some ts => do
      let (n, arguments, ts) ← filterCall? (20 * (ts.length + 1)) ts
      let (more, ts) ← filterChain? fuel ts
      some ((n, arguments) :: more, ts)

/-- The expression that stands here, with fuel for all tokens. -/
def tupleHere? (choice : Bool) (stop : List Text) (ts : List Token) : Option (Expr × List Token) :=
  tuple? (20 * (ts.length + 2)) choice false stop ts

mutual

/-- Nodes up to a tag that begins with one of the words of `stop`; the tokens
that are left begin with that word.  Without such words the nodes go to the end
of the template. -/
def nodes? : Nat → List Text → List Token → Option ((List Node) × List Token)
  | 0, _, _ => none
  | fuel + 1, stop, ts =>
    match ts with
    | [] => if stop.isEmpty then some ([], []) else none
    | ⟨.text t, _⟩ :: rest => do
      let (ns, ts) ← nodes? fuel stop rest
      some (.text t :: ns, ts)
    | ⟨.outputBegin, _⟩ :: rest => do
      let (e, rest) ← tupleHere? true [] rest
      match rest with
      | ⟨.outputEnd, _⟩ :: rest =>
        let (ns, ts) ← nodes? fuel stop rest
        some (.output e :: ns, ts)
      | _ => none
    | ⟨.tagBegin, _⟩ :: ⟨.name word, line⟩ :: rest =>
      if word ∈ stop then some ([], ⟨.name word, line⟩ :: rest)
      else do
        let (n, rest) ← tag? fuel word rest
        let rest ← takeTagEnd? rest
        let (ns, ts) ← nodes? fuel stop rest
        some (n ++ ns, ts)
    | _ => none

/-- The body of a tag up to its last word, which is dropped. -/
def body? : Nat → Text → List Token → Option ((List Node) × List Token)
  | 0, _, _ => none
  | fuel + 1, last, ts => do
    let ts ← takeHeadEnd? ts
    let (ns, ts) ← nodes? fuel [last] ts
    some (ns, ts.drop 1)

/-- The tag that a word begins, up to the end of its last mark. -/
def tag? : Nat → Text → List Token → Option ((List Node) × List Token)
  | 0, _, _ => none
  | fuel + 1, word, ts =>
    if word = "if".toList then do
      let (n, ts) ← branches? fuel ts
      some ([n], ts)
    else if word = "for".toList then do
      let (target, ts) ← target? (ts.length + 1) ["in"] ts
      let ts ← takeWord? "in" ts
      let (items, ts) ← tupleHere? false ["recursive"] ts
      let (condition, ts) ←
        match takeWord? "if" ts with
        | none => some (none, ts)
        | some ts => (expression? (20 * (ts.length + 2)) ts).map fun (e, ts) => (some e, ts)
      let ts ← takeHeadEnd? ts
      let (body, ts) ← nodes? fuel ["endfor", "else"] ts
      match takeWord? "else" ts with
      | none => some ([.loop target items condition body []], ts.drop 1)
      | some ts =>
        let (otherwise, ts) ← body? fuel "endfor" ts
        some ([.loop target items condition body otherwise], ts)
    else if word = "set".toList then do
      let (target, ts) ← target? (ts.length + 1) [] ts
      match takeOperator? "=" ts with
      | some ts =>
        let (e, ts) ← tupleHere? true [] ts
        some ([.assign target e], ts)
      | none =>
        let (filters, ts) ← filterChain? (ts.length + 1) ts
        let (body, ts) ← body? fuel "endset" ts
        some ([.capture target filters body], ts)
    else if word = "with".toList then do
      let (targets, values, ts) ← settings? fuel true ts
      let (body, ts) ← body? fuel "endwith" ts
      some ([.scope targets values body], ts)
    else if word = "filter".toList then do
      let (n, arguments, ts) ← filterCall? (20 * (ts.length + 1)) ts
      let (more, ts) ← filterChain? (ts.length + 1) ts
      let (body, ts) ← body? fuel "endfilter" ts
      some ([.filtered ((n, arguments) :: more) body], ts)
    else if word = "print".toList then do
      let (outputs, ts) ← prints? fuel true ts
      some (outputs, ts)
    else none

/-- The expressions of a tag that prints them. -/
def prints? : Nat → Bool → List Token → Option ((List Node) × List Token)
  | 0, _, _ => none
  | fuel + 1, first, ts =>
    if (takeTagEnd? ts).isSome then some ([], ts)
    else do
      let ts ← if first then some ts else takeOperator? "," ts
      let (e, ts) ← expression? (20 * (ts.length + 2)) ts
      let (es, ts) ← prints? fuel false ts
      some (.output e :: es, ts)

/-- The names that a scope sets, and their values. -/
def settings? : Nat → Bool → List Token → Option (List Target × List Expr × List Token)
  | 0, _, _ => none
  | fuel + 1, first, ts =>
    if (takeHeadEnd? ts).isSome then some ([], [], ts)
    else do
      let ts ← if first then some ts else takeOperator? "," ts
      let (target, ts) ← target? (ts.length + 1) [] ts
      let ts ← takeOperator? "=" ts
      let (e, ts) ← expression? (20 * (ts.length + 2)) ts
      let (targets, values, ts) ← settings? fuel false ts
      some (target :: targets, e :: values, ts)

/-- A condition, its branch and what stands for the other case. -/
def branches? : Nat → List Token → Option (Node × List Token)
  | 0, _ => none
  | fuel + 1, ts => do
    let (condition, ts) ← tupleHere? false [] ts
    let ts ← takeHeadEnd? ts
    let (yes, ts) ← nodes? fuel ["elif", "else", "endif"] ts
    match takeWord? "elif" ts with
    | some ts =>
      let (no, ts) ← branches? fuel ts
      some (.choice condition yes [no], ts)
    | none =>
      match takeWord? "else" ts with
      | some ts =>
        let (no, ts) ← body? fuel "endif" ts
        some (.choice condition yes no, ts)
      | none => some (.choice condition yes [], ts.drop 1)

end

/-- The tree of a template, if it is valid. -/
def parse? (template : Text) : Option (List Node) := do
  let ts ← tokens? template
  let (ns, _) ← nodes? (4 * ts.length + 4) [] ts
  some ns

end SourceMerge.Template
