import SourceMerge.Template.Reader
import SourceMerge.Template.Filter

/-!
# SourceMerge.Template.Render

Rendering a template with data.  Names are looked up in the scopes around the
place where they stand, then in the data, then among the functions that every
template has.  The branches of a choice share the scope around them; the body
of a loop has a fresh one for every item.

A template can add to a list of the data.  The list belongs to the data and not
to the template, so it is still longer when the next template is rendered: what
has been added is remembered in a `Memory`.
-/

namespace SourceMerge.Template

/-- Names and their values, the innermost scope first. -/
abbrev Scopes := List (List (Text × Value))

/-- What stays the same while a template is rendered. -/
structure Surroundings where
  data : List (Text × Data)
  today : Date

/-! ## What templates have added -/

/-- The lists of the data that templates have added to: the name of a list and
the list as the data give it, and its items now. -/
abbrev Memory := List ((Text × Data) × List Value)

/-- What a value of the data is now. -/
def Memory.recall (m : Memory) (n : Text) (d : Data) : Value :=
  match m.lookup (n, d) with
  | some items => .list items
  | none => Value.ofData d

/-- Keeps the items that a list has now. -/
def Memory.keep (m : Memory) (n : Text) (d : Data) (items : List Value) : Memory :=
  match m with
  | [] => [((n, d), items)]
  | e :: rest => if e.1 == (n, d) then (e.1, items) :: rest else e :: Memory.keep rest n d items

/-- The outcome of work that may add to the data. -/
abbrev Work := ExceptT Fault (StateM Memory)

/-- The functions that every template can call. -/
def functions : List (Text × Value) :=
  [("range", .function .range), ("dict", .function .dict), ("today", .function .today)]

/-- The value of a name. -/
def resolve (s : Surroundings) (m : Memory) (scopes : Scopes) (n : Text) : Value :=
  match scopes.findSome? (·.lookup n) with
  | some v => v
  | none =>
    match s.data.lookup n with
    | some d => m.recall n d
    | none => (functions.lookup n).getD (Value.undefinedName n)

/-- The list of the data, by name, that an expression is the method of adding
to. -/
def grown? (s : Surroundings) (scopes : Scopes) : Expr → Option (Text × Data)
  | .attribute (.name n) method =>
    if method = "append" ∧ (scopes.findSome? (·.lookup n)).isNone then
      match s.data.lookup n with
      | some (.list items) => some (n, .list items)
      | _ => none
    else none
  | _ => none

/-- Adds an item to a list of the data. -/
def grow (n : Text) (d : Data) : Arguments → Work Value
  | ⟨[v], []⟩ => do
    let items ← ((← get).recall n d).items
    modify (·.keep n d (items ++ [v]))
    return .null
  | _ => throw .wrongType

/-- Sets a name in the innermost scope. -/
def setName (scopes : Scopes) (n : Text) (v : Value) : Scopes :=
  match scopes with
  | [] => [[(n, v)]]
  | scope :: outer => ((n, v) :: scope) :: outer

mutual

/-- Sets a target; several names take the items of a value one by one. -/
def assign (scopes : Scopes) (t : Target) (v : Value) : Eval Scopes :=
  match t with
  | .name n => .ok (setName scopes n v)
  | .tuple ts => do assignAll scopes ts (← v.items)

/-- Sets targets to as many values. -/
def assignAll (scopes : Scopes) (ts : List Target) (vs : List Value) : Eval Scopes :=
  match ts, vs with
  | [], [] => .ok scopes
  | t :: ts, v :: vs => do assignAll (← assign scopes t v) ts vs
  | _, _ => .error .wrongValue

end

/-- The value of an inline choice whose condition is false and that has no
second branch. -/
def missingChoice (line : Nat) : Value :=
  .omitted ("the inline if-expression on line " ++ Text.ofNat line ++
    " evaluated to false and no else section was defined.")

/-! ## Expressions -/

mutual

/-- The value of an expression. -/
def evaluate (s : Surroundings) (scopes : Scopes) : Expr → Work Value
  | .const d => return Value.ofData d
  | .name n => do return resolve s (← get) scopes n
  | .tuple es => do return .tuple (← evaluateAll s scopes es)
  | .list es => do return .list (← evaluateAll s scopes es)
  | .dict ks vs => do
    let ks ← evaluateAll s scopes ks
    let vs ← evaluateAll s scopes vs
    return .map ((ks.zip vs).foldl (fun entries e => Value.insertEntry entries e.1 e.2) [])
  | .attribute e n => do partByName (← evaluate s scopes e) n
  | .item e (.slice a b c) => do
    let v ← evaluate s scopes e
    let a ← evaluate s scopes a
    let b ← evaluate s scopes b
    let c ← evaluate s scopes c
    slice v a b c
  | .item e i => do
    let v ← evaluate s scopes e
    let i ← evaluate s scopes i
    partAt v i
  | .slice _ _ _ => throw .wrongType
  | .call f es => do
    match grown? s scopes f with
    | some (n, d) => grow n d (← evaluateArguments s scopes es)
    | none =>
      let f ← evaluate s scopes f
      let arguments ← evaluateArguments s scopes es
      call s.today f arguments
  | .named _ e => evaluate s scopes e
  | .filter n e es => do
    let v ← evaluate s scopes e
    let arguments ← evaluateArguments s scopes es
    applyFilter n v arguments
  | .test n e es => do
    let v ← evaluate s scopes e
    let arguments ← evaluateArguments s scopes es
    return .bool (← applyTest n v arguments)
  | .negate e => do negate (← evaluate s scopes e)
  | .plus e => do plus (← evaluate s scopes e)
  | .not e => do return .bool (!(← (← evaluate s scopes e).truthy))
  | .arithmetic op a b => do
    let x ← evaluate s scopes a
    let y ← evaluate s scopes b
    arithmetic op x y
  | .concat es => do
    let vs ← evaluateAll s scopes es
    return .text (← vs.mapM (·.display)).flatten
  | .compare e ops es => do
    let v ← evaluate s scopes e
    compareAll s scopes v ops es
  | .and a b => do
    let v ← evaluate s scopes a
    if ← v.truthy then evaluate s scopes b else return v
  | .or a b => do
    let v ← evaluate s scopes a
    if ← v.truthy then return v else evaluate s scopes b
  | .choice line condition yes no => do
    if ← (← evaluate s scopes condition).truthy then evaluate s scopes yes
    else
      match no with
      | some e => evaluate s scopes e
      | none => return missingChoice line

/-- The values of several expressions. -/
def evaluateAll (s : Surroundings) (scopes : Scopes) : List Expr → Work (List Value)
  | [] => return []
  | e :: es => do
    let v ← evaluate s scopes e
    let vs ← evaluateAll s scopes es
    return v :: vs

/-- The values of arguments. -/
def evaluateArguments (s : Surroundings) (scopes : Scopes) : List Expr → Work Arguments
  | [] => return {}
  | .named n e :: es => do
    let v ← evaluate s scopes e
    let rest ← evaluateArguments s scopes es
    return { rest with names := (n, v) :: rest.names }
  | e :: es => do
    let v ← evaluate s scopes e
    let rest ← evaluateArguments s scopes es
    return { rest with places := v :: rest.places }

/-- A chain of comparisons, each between neighbours, up to the first that does
not hold. -/
def compareAll (s : Surroundings) (scopes : Scopes) (v : Value) :
    List Comparison → List Expr → Work Value
  | op :: ops, e :: es => do
    let w ← evaluate s scopes e
    if ← compareBy op v w then compareAll s scopes w ops es else return .bool false
  | _, _ => return .bool true

end

/-! ## Nodes -/

/-- Passes a text through filters. -/
def passThrough (s : Surroundings) (scopes : Scopes) (filters : List (Text × List Expr))
    (t : Text) : Work Value :=
  filters.foldlM (fun v (n, es) => do applyFilter n v (← evaluateArguments s scopes es)) (.text t)

/-- The items of a loop that satisfy its condition. -/
def chosenItems (s : Surroundings) (scopes : Scopes) (target : Target) (condition : Option Expr)
    (items : List Value) : Work (List Value) :=
  match condition with
  | none => return items
  | some e =>
    items.filterM fun v => do
      let inner ← assign ([] :: scopes) target v
      (← evaluate s inner e).truthy

/-- The state of a loop at one of its items. -/
def loopAt (items : List Value) (depth index : Nat) : Value :=
  .loop index items.length depth
    (if index = 0 then .undefined "there is no previous item" else items.getD (index - 1) .null)
    (items.getD (index + 1) (.undefined "there is no next item"))

/-- The name of the state of the loop around a place. -/
def loopName : Text := "loop"

/-- The depth of the next loop: one more than that of the loop around it. -/
def nextDepth (scopes : Scopes) : Nat :=
  match (scopes.findSome? (·.lookup loopName) : Option Value) with
  | some (.loop _ _ depth _ _) => depth + 1
  | _ => 0

mutual

/-- The text of a node, and the scopes after it. -/
def renderNode (s : Surroundings) (scopes : Scopes) : Node → Work (Text × Scopes)
  | .text t => return (t, scopes)
  | .output e => do
    let t ← (← evaluate s scopes e).display
    return (t, scopes)
  | .choice condition yes no => do
    if ← (← evaluate s scopes condition).truthy then renderNodes s scopes yes
    else renderNodes s scopes no
  | .loop target items condition body otherwise => do
    let items ← (← evaluate s scopes items).items
    let items ← chosenItems s scopes target condition items
    let depth := nextDepth scopes
    if items.isEmpty then
      let (t, _) ← renderNodes s ([] :: scopes) otherwise
      return (t, scopes)
    else
      let parts ← items.zipIdx.mapM fun (v, i) => do
        let inner ← assign ([(loopName, loopAt items depth i)] :: scopes) target v
        let (t, _) ← renderNodes s inner body
        return t
      return (parts.flatten, scopes)
  | .assign target e => do
    let v ← evaluate s scopes e
    let scopes ← assign scopes target v
    return ([], scopes)
  | .capture target filters body => do
    let (t, _) ← renderNodes s ([] :: scopes) body
    let v ← passThrough s scopes filters t
    let scopes ← assign scopes target v
    return ([], scopes)
  | .scope targets values body => do
    let vs ← evaluateAll s scopes values
    let inner ← assignAll ([] :: scopes) targets vs
    let (t, _) ← renderNodes s inner body
    return (t, scopes)
  | .filtered filters body => do
    let (t, _) ← renderNodes s ([] :: scopes) body
    let t ← (← passThrough s scopes filters t).display
    return (t, scopes)

/-- The text of several nodes, and the scopes after them. -/
def renderNodes (s : Surroundings) (scopes : Scopes) : List Node → Work (Text × Scopes)
  | [] => return ([], scopes)
  | n :: ns => do
    let (t, scopes) ← renderNode s scopes n
    let (rest, scopes) ← renderNodes s scopes ns
    return (t ++ rest, scopes)

end

end SourceMerge.Template
