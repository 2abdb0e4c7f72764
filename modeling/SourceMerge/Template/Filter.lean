import SourceMerge.Calendar
import SourceMerge.Template.Operation

/-!
# SourceMerge.Template.Filter

Filters, tests, methods and the functions that every template can call.  Each
takes the value it works on and arguments by place or by name; a wrong number
of them does not apply.
-/

namespace SourceMerge.Template

/-- Evaluated arguments. -/
structure Arguments where
  places : List Value := []
  names : List (Text × Value) := []

namespace Arguments

/-- The arguments in the order of the parameters; a parameter may be missing,
but nothing may be left over. -/
def bind (a : Arguments) (parameters : List Text) : Eval (List (Option Value)) :=
  let given := parameters.take a.places.length
  if parameters.length < a.places.length then .error .wrongType
  else if a.names.any fun e => e.1 ∈ given ∨ e.1 ∉ parameters then .error .wrongType
  else
    .ok (a.places.map some ++
      (parameters.drop a.places.length).map fun p => a.names.lookup p)

/-- No arguments. -/
def none (a : Arguments) : Eval Unit := do
  let _ ← a.bind []

/-- At most one argument. -/
def one (a : Arguments) (parameter : Text) : Eval (Option Value) := do
  return ((← a.bind [parameter]).headD Option.none)

end Arguments

/-! ## Filters -/

/-- Truncates a floating-point number to an integer. -/
def truncate (x : Float) : Int :=
  match Decimal.binaryOf? x with
  | some (m, e) => Int.tdiv (m * Int.pow 2 e.toNat) (Int.pow 2 (-e).toNat)
  | none => 0

/-- The integer that a text spells, with blanks around it allowed. -/
def spelledInt? (t : Text) : Option Int :=
  let t := Text.trim t
  let (negative, digits) :=
    match t with
    | '-' :: rest => (true, rest)
    | '+' :: rest => (false, rest)
    | rest => (false, rest)
  match digits with
  | [] => none
  | c :: _ =>
    if c.isDigit ∧ digits.all (fun d => d.isDigit || d == '_') ∧ digits.getLast? ≠ some '_' then
      let n : Int := Text.numeral 10 (digits.filter (· != '_'))
      some (if negative then -n else n)
    else none

/-- Stable insertion in front of the first greater value. -/
def insertSorted (v : Value) : List Value → Eval (List Value)
  | [] => .ok [v]
  | w :: rest => do
    if ← less v w then return v :: w :: rest
    return w :: (← insertSorted v rest)

/-- Values in ascending order. -/
def sorted (l : List Value) : Eval (List Value) :=
  l.foldlM (fun done v => insertSorted v done) []

/-- The text with each word's first letter in upper case. -/
def titleFrom (atStart : Bool) : Text → Text
  | [] => []
  | c :: rest =>
    let boundary := Text.isBlank c || c ∈ ['-', '(', '[', '<', '\x7b']
    (if atStart && !boundary then Text.upperChar c else Text.lowerChar c) ++ titleFrom boundary rest

/-- The text with the characters that mark up a document written as entities. -/
def escaped (t : Text) : Text :=
  t.flatMap fun c =>
    if c = '&' then "&amp;"
    else if c = '<' then "&lt;"
    else if c = '>' then "&gt;"
    else if c = '\'' then "&#39;"
    else if c = '"' then "&#34;"
    else [c]

/-- The filters by name. -/
def filterTable : List (String × (Value → Arguments → Eval Value)) :=
  let onText (f : Text → Text) (v : Value) (a : Arguments) : Eval Value := do
    a.none
    return .text (f (← v.display))
  let default (v : Value) (a : Arguments) : Eval Value := do
    let bound ← a.bind ["default_value", "boolean"]
    let other := (bound.getD 0 none).getD (.text [])
    let strict ← ((bound.getD 1 none).getD (.bool false)).truthy
    match v with
    | .undefined _ => return other
    | .omitted _ => return other
    | v => if strict && !(← v.truthy) then return other else return v
  let length (v : Value) (a : Arguments) : Eval Value := do
    a.none
    return .int ((← v.items).length)
  [("upper", onText Text.upper), ("lower", onText Text.lower),
    ("capitalize", onText Text.capitalize), ("title", onText (titleFrom true)),
    ("string", onText id), ("safe", onText id), ("e", onText escaped),
    ("escape", onText escaped), ("default", default), ("d", default), ("length", length),
    ("count", length),
    ("trim", fun v a => do
      let chars ← a.one "chars"
      let t ← v.display
      match chars with
      | some (.text cs) => return .text (Text.trimWhile (· ∈ cs) t)
      | some .null => return .text (Text.trim t)
      | none => return .text (Text.trim t)
      | some _ => throw .wrongType),
    ("join", fun v a => do
      let bound ← a.bind ["d", "attribute"]
      let separator ← ((bound.getD 0 none).getD (.text [])).display
      let items ← v.items
      let items ←
        match bound.getD 1 none with
        | some (.text n) => items.mapM (partAt · (.text n))
        | some index => items.mapM (partAt · index)
        | none => pure items
      let parts ← items.mapM Value.display
      return .text (Text.joinWith separator parts)),
    ("first", fun v a => do
      a.none
      return (← v.items).headD (.undefined "No first item, sequence was empty.")),
    ("last", fun v a => do
      a.none
      return (← v.items).getLast?.getD (.undefined "No last item, sequence was empty.")),
    ("list", fun v a => do
      a.none
      return .list (← v.items)),
    ("reverse", fun v a => do
      a.none
      match v with
      | .text t => return .text t.reverse
      | v => return .list (← v.items).reverse),
    ("sort", fun v a => do
      let reverse ← a.one "reverse"
      let items ← sorted (← v.items)
      return .list (if ← (reverse.getD (.bool false)).truthy then items.reverse else items)),
    ("unique", fun v a => do
      a.none
      let items ← v.items
      let kept ← items.foldlM (fun (done : List Value) w => do
        if ← done.anyM (Value.same · w) then return done else return done ++ [w]) []
      return .list kept),
    ("sum", fun v a => do
      a.none
      (← v.items).foldlM (arithmetic .add) (.int 0)),
    ("min", fun v a => do
      a.none
      return (← sorted (← v.items)).headD (.undefined "No aggregated item, sequence was empty.")),
    ("max", fun v a => do
      a.none
      return (← sorted (← v.items)).getLast?.getD
        (.undefined "No aggregated item, sequence was empty.")),
    ("abs", fun v a => do
      a.none
      match undefinedOf? v, Number.ofValue? v with
      | some fault, _ => throw fault
      | none, some (.int n) => return .int n.natAbs
      | none, some (.float x) => return .float x.abs
      | none, none => throw .wrongType),
    ("int", fun v a => do
      let other := (← a.one "default").getD (.int 0)
      match v with
      | .int n => return .int n
      | .bool b => return .int (if b then 1 else 0)
      | .float x => return .int (truncate x)
      | .text t => return ((spelledInt? t).map Value.int).getD other
      | .undefined message => throw (.undefined message)
      | .omitted message => throw (.undefined message)
      | _ => return other),
    ("replace", fun v a => do
      let bound ← a.bind ["old", "new"]
      match bound with
      | [some old, some new] =>
        return .text (Text.replaceAll (← old.display) (← new.display) (← v.display))
      | _ => throw .wrongType)]

/-- The names of the filters. -/
def filterNames : List Text := filterTable.map (·.1.toList)

/-- A filter applied to a value. -/
def applyFilter (n : Text) (v : Value) (a : Arguments) : Eval Value :=
  match filterTable.find? (·.1.toList == n) with
  | some (_, f) => f v a
  | none => .error .invalid

/-! ## Tests -/

/-- The tests by name. -/
def testTable : List (String × (Value → Arguments → Eval Bool)) :=
  let plain (f : Value → Bool) (v : Value) (a : Arguments) : Eval Bool := do
    a.none
    return f v
  let compared (op : Comparison) (v : Value) (a : Arguments) : Eval Bool := do
    match ← a.one "b" with
    | some w => compareBy op v w
    | none => throw .wrongType
  let remainder (f : Int → Bool) (v : Value) (a : Arguments) : Eval Bool := do
    a.none
    match undefinedOf? v, Number.ofValue? v with
    | some fault, _ => throw fault
    | none, some (.int n) => return f n
    | _, _ => throw .wrongType
  [("defined", plain fun v => (undefinedOf? v).isNone),
    ("undefined", plain fun v => (undefinedOf? v).isSome),
    ("none", plain fun v => v matches .null),
    ("boolean", plain fun v => v matches .bool _),
    ("true", plain fun v => v matches .bool true),
    ("false", plain fun v => v matches .bool false),
    ("integer", plain fun v => v matches .int _),
    ("float", plain fun v => v matches .float _),
    ("number", plain fun v => (Number.ofValue? v).isSome),
    ("string", plain fun v => v matches .text _),
    ("mapping", plain fun v => v matches .map _),
    ("sequence", plain fun v => v.items matches .ok _),
    ("iterable", plain fun v => v.items matches .ok _),
    ("callable", plain fun v => match v with
      | .function _ => true
      | .method _ _ => true
      | .undefined _ => true
      | .omitted _ => true
      | _ => false),
    ("odd", remainder fun n => n % 2 = 1),
    ("even", remainder fun n => n % 2 = 0),
    ("divisibleby", fun v a => do
      match ← a.one "num" with
      | some w => return !(← (← arithmetic .mod v w).truthy)
      | none => throw .wrongType),
    ("lower", fun v a => do
      a.none
      let t ← v.display
      return Text.lower t == t && t.any Text.isCased),
    ("upper", fun v a => do
      a.none
      let t ← v.display
      return Text.upper t == t && t.any Text.isCased),
    ("in", compared .isIn), ("eq", compared .eq), ("equalto", compared .eq), ("==", compared .eq),
    ("ne", compared .ne), ("!=", compared .ne), ("lt", compared .lt), ("lessthan", compared .lt),
    ("<", compared .lt), ("le", compared .le), ("<=", compared .le), ("gt", compared .gt),
    ("greaterthan", compared .gt), (">", compared .gt), ("ge", compared .ge), (">=", compared .ge),
    ("sameas", compared .eq)]

/-- The names of the tests. -/
def testNames : List Text := testTable.map (·.1.toList)

/-- A test of a value. -/
def applyTest (n : Text) (v : Value) (a : Arguments) : Eval Bool :=
  match testTable.find? (·.1.toList == n) with
  | some (_, f) => f v a
  | none => .error .invalid

/-! ## Calls -/

/-- The parts of a text between blanks. -/
def words (t : Text) : List Text :=
  (Text.splitOn ' ' (t.map fun c => if Text.isBlank c then ' ' else c)).filter (· ≠ [])

/-- The parts of a text between occurrences of another one. -/
def splitText (separator : Text) (t : Text) : List Text :=
  go [] t
where
  /-- Gathers a part, last character first. -/
  go (part t : Text) : List Text :=
    match t with
    | [] => [part.reverse]
    | c :: rest =>
      if separator.isPrefixOf (c :: rest) then
        part.reverse :: go [] (rest.drop (separator.length - 1))
      else go (c :: part) rest
  termination_by t.length
  decreasing_by all_goals (simp only [List.length_drop, List.length_cons]; omega)

/-- A method of a text. -/
def callTextMethod (t n : Text) (a : Arguments) : Eval Value := do
  let texts ← a.places.mapM fun
    | .text s => pure s
    | _ => throw Fault.wrongType
  let trimmed (both : Text → Text) (of : (Char → Bool) → Text → Text) : Eval Value :=
    match texts with
    | [] => .ok (.text (both t))
    | [cs] => .ok (.text (of (· ∈ cs) t))
    | _ => .error .wrongType
  if n = "strip".toList then trimmed Text.trim Text.trimWhile
  else if n = "lstrip".toList then trimmed Text.trimStart List.dropWhile
  else if n = "rstrip".toList then trimmed Text.trimEnd Text.trimEndWhile
  else
    match texts with
    | [] =>
      if n = "upper".toList then return .text (Text.upper t)
      else if n = "lower".toList then return .text (Text.lower t)
      else if n = "title".toList then return .text (titleFrom true t)
      else if n = "capitalize".toList then return .text (Text.capitalize t)
      else if n = "split".toList then return .list ((words t).map .text)
      else throw .wrongType
    | [s] =>
      if n = "split".toList then
        if s = [] then throw .wrongValue else return .list ((splitText s t).map .text)
      else if n = "startswith".toList then return .bool (s.isPrefixOf t)
      else if n = "endswith".toList then return .bool (s.isSuffixOf t)
      else throw .wrongType
    | [s, r] => if n = "replace".toList then return .text (Text.replaceAll s r t) else throw .wrongType
    | _ => throw .wrongType

/-- A method called. -/
def callMethod (receiver : Value) (n : Text) (a : Arguments) : Eval Value :=
  match receiver with
  | .text t =>
    if n = "join".toList then
      match a.places with
      | [v] => do
        let parts ← (← v.items).mapM fun
          | .text s => pure s
          | _ => throw Fault.wrongType
        return .text (Text.joinWith t parts)
      | _ => .error .wrongType
    else callTextMethod t n a
  | .map entries =>
    if n = "get".toList then
      match a.places with
      | [k] => .ok ((Value.lookup? entries k).getD .null)
      | [k, other] => .ok ((Value.lookup? entries k).getD other)
      | _ => .error .wrongType
    else if !a.places.isEmpty then .error .wrongType
    else if n = "items".toList then .ok (.list (entries.map fun e => .tuple [e.1, e.2]))
    else if n = "keys".toList then .ok (.list (entries.map (·.1)))
    else .ok (.list (entries.map (·.2)))
  | .loop index _ _ _ _ =>
    match a.places with
    | [] => .error .wrongType
    | vs => .ok (vs.getD (index % vs.length) .null)
  | v =>
    match a.places with
    | [w] => do
      let items ← v.items
      if n = "count".toList then
        let hits ← items.filterM (Value.same · w)
        return .int hits.length
      else
        let hits ← items.mapM (Value.same · w)
        match hits.idxOf? true with
        | some i => return .int i
        | none => throw .wrongValue
    | _ => .error .wrongType

/-- A function called. -/
def callFunction (today : Date) (f : Function) (a : Arguments) : Eval Value :=
  match f with
  | .range => do
    let ns ← a.places.mapM fun v =>
      match indexOf? v with
      | some n => pure n
      | none => throw Fault.wrongType
    match ns with
    | [last] => return .range 0 last 1
    | [first, last] => return .range first last 1
    | [first, last, step] => if step = 0 then throw .wrongValue else return .range first last step
    | _ => throw .wrongType
  | .dict => do
    match a.places with
    | [] => return .map (a.names.map fun e => (.text e.1, e.2))
    | [.map entries] =>
      return .map (a.names.foldl (fun es e => Value.insertEntry es (.text e.1) e.2) entries)
    | _ => throw .wrongType
  | .today => do
    match ← a.one "fmt" with
    | none => return .text today.iso
    | some (.text t) => return .text (today.format t)
    | some _ => throw .wrongType

/-- A value called with arguments. -/
def call (today : Date) (f : Value) (a : Arguments) : Eval Value :=
  match f with
  | .undefined message => .error (.undefined message)
  | .omitted message => .error (.undefined message)
  | .function f => callFunction today f a
  | .method receiver n => callMethod receiver n a
  | _ => .error .wrongType

end SourceMerge.Template
