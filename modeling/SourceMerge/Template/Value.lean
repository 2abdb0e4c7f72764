import SourceMerge.Data
import SourceMerge.Text.CaseMap
import SourceMerge.Text.Blank

/-!
# SourceMerge.Template.Value

What an expression can be worth while a template is rendered: data, and beside
it tuples, ranges, undefined values, functions, methods and the state of a
loop.  An undefined value carries the message that any use of it leads to; an
omitted one is more lenient, since it stands for nothing on purpose.
-/

namespace SourceMerge.Template

/-- Why a template is not rendered. -/
inductive Fault where
  /-- The template is not well formed, or names an unknown filter or test. -/
  | invalid
  /-- An undefined value was used; the message says which. -/
  | undefined (message : Text)
  /-- An operation does not apply to the type of a value, or a function not to
  its arguments. -/
  | wrongType
  /-- A value is of the right type but out of the domain of an operation. -/
  | wrongValue
  | divisionByZero
  /-- The result is too large for a floating-point number. -/
  | overflow
  /-- Anything else that ends a rendering. -/
  | other

/-- The functions that every template can call. -/
inductive Function where
  | range
  | dict
  | today
  deriving DecidableEq

/-- The value of an expression. -/
inductive Value where
  | null
  | bool (b : Bool)
  | int (n : Int)
  | float (x : Float)
  | text (t : Text)
  | list (items : List Value)
  | map (entries : List (Value × Value))
  | other (v : Foreign)
  | tuple (items : List Value)
  /-- The numbers from `first` on, before `last`, in steps. -/
  | range (first last step : Int)
  | undefined (message : Text)
  /-- The second branch of an inline choice that has none: it counts as false, has
  no items and no text, and every other use of it leads to the message. -/
  | omitted (message : Text)
  | function (f : Function)
  | method (receiver : Value) (name : Text)
  /-- A loop at its `index`-th item, counted from zero, of `length`. -/
  | loop (index length depth : Nat) (before after : Value)

instance : Inhabited Value := ⟨.null⟩

/-- The outcome of evaluating something. -/
abbrev Eval (α : Type) := Except Fault α

namespace Value

/-! ## From data -/

mutual

/-- Data as a value. -/
def ofData : Data → Value
  | .null => .null
  | .bool b => .bool b
  | .int n => .int n
  | .float x => .float x
  | .text t => .text t
  | .list items => .list (ofItems items)
  | .map entries => .map (ofEntries entries)
  | .other v => .other v

/-- Items as values. -/
def ofItems : List Data → List Value
  | [] => []
  | d :: rest => ofData d :: ofItems rest

/-- Entries as pairs of values. -/
def ofEntries : List (Data × Data) → List (Value × Value)
  | [] => []
  | e :: rest => ofEntry e :: ofEntries rest

/-- An entry as a pair of values. -/
def ofEntry : Data × Data → Value × Value
  | (k, v) => (ofData k, ofData v)

end

/-! ## Types -/

/-- What a message calls a value: its type, except for the one value that has a
name of its own. -/
def typeName : Value → Text
  | .null => "None"
  | .bool _ => "bool object"
  | .int _ => "int object"
  | .float _ => "float object"
  | .text _ => "str object"
  | .list _ => "list object"
  | .map _ => "dict object"
  | .other _ => "object"
  | .tuple _ => "tuple object"
  | .range _ _ _ => "range object"
  | .undefined _ => "undefined"
  | .omitted _ => "undefined"
  | .function _ => "function object"
  | .method _ _ => "builtin_function_or_method object"
  | .loop _ _ _ _ _ => "jinja2.runtime.LoopContext object"

/-- An undefined name. -/
def undefinedName (n : Text) : Value := .undefined (Text.quoted n ++ " is undefined")

/-- The number of steps of a range. -/
def rangeLength (first last step : Int) : Nat :=
  if 0 < step then ((last - first + step - 1) / step).toNat
  else if step < 0 then ((first - last - step - 1) / (-step)).toNat
  else 0

/-- The numbers of a range. -/
def rangeItems (first last step : Int) : List Value :=
  (List.range (rangeLength first last step)).map fun (i : Nat) => .int (first + step * i)

/-- The items of a value that can be walked through. -/
def items (v : Value) : Eval (List Value) :=
  match v with
  | .list items => .ok items
  | .tuple items => .ok items
  | .map entries => .ok (entries.map (·.1))
  | .other v => if v.bytes = [] then .error .wrongType else .ok (v.bytes.map fun (n : Nat) => .int n)
  | .text t => .ok (t.map fun c => .text [c])
  | .range a b c => .ok (rangeItems a b c)
  | .omitted _ => .ok []
  | .undefined message => .error (.undefined message)
  | _ => .error .wrongType

/-! ## Truth and equality -/

/-- Whether a value counts as true. -/
def truthy : Value → Eval Bool
  | .null => .ok false
  | .bool b => .ok b
  | .int n => .ok (n != 0)
  | .float x => .ok !(x == 0.0)
  | .text t => .ok !t.isEmpty
  | .list items => .ok !items.isEmpty
  | .tuple items => .ok !items.isEmpty
  | .map entries => .ok !entries.isEmpty
  | .other v => .ok v.truthy
  | .range a b c => .ok (rangeLength a b c != 0)
  | .omitted _ => .ok false
  | .undefined message => .error (.undefined message)
  | _ => .ok true

/-- The data that a scalar is. -/
def scalar? : Value → Option Data
  | .null => some .null
  | .bool b => some (.bool b)
  | .int n => some (.int n)
  | .float x => some (.float x)
  | .text t => some (.text t)
  | .other v => some (.other v)
  | _ => none

mutual

/-- Whether two values are equal; an undefined one cannot be compared. -/
def same : Value → Value → Eval Bool
  | .undefined message, _ => .error (.undefined message)
  | _, .undefined message => .error (.undefined message)
  | .omitted _, .omitted _ => .ok true
  | .list a, .list b => sameItems a b
  | .tuple a, .tuple b => sameItems a b
  | .map a, .map b => if a.length = b.length then subMap a b else .ok false
  | .range a b c, .range d e f =>
    .ok ((rangeLength a b c == 0 && rangeLength d e f == 0) ||
      (rangeLength a b c == rangeLength d e f && a == d && (rangeLength a b c == 1 || c == f)))
  | .function f, .function g => .ok (f == g)
  | a, b =>
    match scalar? a, scalar? b with
    | some a, some b => .ok (Data.same a b)
    | _, _ => .ok false

/-- Whether two lists are equal item by item. -/
def sameItems : List Value → List Value → Eval Bool
  | [], [] => .ok true
  | a :: as, b :: bs =>
    match same a b with
    | .ok true => sameItems as bs
    | answer => answer
  | _, _ => .ok false

/-- Whether every entry of the first mapping is one of the second. -/
def subMap : List (Value × Value) → List (Value × Value) → Eval Bool
  | [], _ => .ok true
  | e :: rest, b =>
    match holdsEntry e b with
    | .ok true => subMap rest b
    | answer => answer

/-- Whether the mapping has an entry with this key and value. -/
def holdsEntry : Value × Value → List (Value × Value) → Eval Bool
  | (k, v), b =>
    match b.find? fun e => same k e.1 matches .ok true with
    | some e => same v e.2
    | none => .ok false

end

/-- The value of a key of a mapping. -/
def lookup? (entries : List (Value × Value)) (key : Value) : Option Value :=
  (entries.find? fun e => same e.1 key matches .ok true).map (·.2)

/-- Sets a key of a mapping. -/
def insertEntry (entries : List (Value × Value)) (key value : Value) : List (Value × Value) :=
  match entries with
  | [] => [(key, value)]
  | e :: rest =>
    if same e.1 key matches .ok true then (e.1, value) :: rest else e :: insertEntry rest key value

/-! ## Display -/

mutual

/-- A value as it stands inside a collection. -/
def shown : Value → Eval Text
  | .list items => do
    let inside ← shownItems items
    return "[" ++ inside ++ "]"
  | .tuple [v] => do
    let inside ← shown v
    return "(" ++ inside ++ ",)"
  | .tuple items => do
    let inside ← shownItems items
    return "(" ++ inside ++ ")"
  | .map entries => do
    let inside ← shownEntries entries
    return '\x7b' :: inside ++ ['\x7d']
  | .range a b c =>
    let step : Text := if c = 1 then [] else ", " ++ Text.ofInt c
    .ok ("range(" ++ Text.ofInt a ++ ", " ++ Text.ofInt b ++ step ++ ")")
  | .undefined _ => .ok "Undefined"
  | .omitted _ => .ok "Undefined"
  | .function f =>
    .ok <|
      match f with
      | .range => "<class 'range'>"
      | .dict => "<class 'dict'>"
      | .today => "<function>"
  | .method _ _ => .ok "<method>"
  | .loop index length _ _ _ =>
    .ok ("<LoopContext " ++ Text.ofNat (index + 1) ++ "/" ++ Text.ofNat length ++ ">")
  | .null => .ok (Data.shown .null)
  | .bool b => .ok (Data.shown (.bool b))
  | .int n => if Data.isShort n then .ok (Data.shown (.int n)) else .error .wrongValue
  | .float x => .ok (Data.shown (.float x))
  | .text t => .ok (Data.shown (.text t))
  | .other v => .ok v.shown

/-- Items with a comma and a space between them. -/
def shownItems : List Value → Eval Text
  | [] => .ok []
  | [v] => shown v
  | v :: rest => do
    let first ← shown v
    let others ← shownItems rest
    return first ++ ", " ++ others

/-- Entries with a comma and a space between them. -/
def shownEntries : List (Value × Value) → Eval Text
  | [] => .ok []
  | [e] => shownEntry e
  | e :: rest => do
    let first ← shownEntry e
    let others ← shownEntries rest
    return first ++ ", " ++ others

/-- An entry as key, colon and value. -/
def shownEntry : Value × Value → Eval Text
  | (k, v) => do
    let key ← shown k
    let value ← shown v
    return key ++ ": " ++ value

end

/-- A value as text; an undefined one has none, and that of an omitted one is
empty. -/
def display : Value → Eval Text
  | .text t => .ok t
  | .undefined message => .error (.undefined message)
  | .omitted _ => .ok []
  | .other v => .ok v.display
  | v => shown v

end Value

end SourceMerge.Template
