import SourceMerge.Template.Value
import SourceMerge.Template.Tree

/-!
# SourceMerge.Template.Operation

Operators and access to parts.  Booleans count as numbers, a quotient is a
floating-point number, and floor division and remainder round down.  An
undefined or omitted operand ends the rendering, whatever the operator.
-/

namespace SourceMerge.Template

/-- A number in arithmetic. -/
inductive Number where
  | int (n : Int)
  | float (x : Float)

namespace Number

/-- The number that a value is. -/
def ofValue? : Value → Option Number
  | .int n => some (.int n)
  | .bool b => some (.int (if b then 1 else 0))
  | .float x => some (.float x)
  | _ => none

/-- A number as a floating-point number. -/
def toFloat : Number → Float
  | .int n => Decimal.floatOfInt n
  | .float x => x

/-- Largest integer that is not above a floating-point quotient. -/
def floorFloat (x : Float) : Float := x.floor

/-- The remainder that has the sign of the divisor. -/
def modFloat (x y : Float) : Float := x - y * (x / y).floor

/-- A power with a natural exponent, by squaring. -/
def power (base : Int) (exponent : Nat) : Int := base.pow exponent

/-- The quotient of two integers as a floating-point number. -/
def quotient (a b : Int) : Float :=
  if a.natAbs < Nat.pow 2 53 ∧ b.natAbs < Nat.pow 2 53 then
    Decimal.floatOfInt a / Decimal.floatOfInt b
  else
    let shift := 70 + (Nat.log2 b.natAbs) - (Nat.log2 a.natAbs)
    let scaled := a.natAbs * Nat.pow 2 shift / b.natAbs
    let sticky := if a.natAbs * Nat.pow 2 shift % b.natAbs = 0 then 2 * scaled else 2 * scaled + 1
    let x := (Decimal.toFloat sticky 0).scaleB (-((shift : Int) + 1))
    if (a < 0) = (b < 0) then x else -x

/-- An arithmetic operation on two numbers. -/
def apply (op : Arithmetic) (a b : Number) : Eval Value :=
  match op, a, b with
  | .add, .int a, .int b => .ok (.int (a + b))
  | .sub, .int a, .int b => .ok (.int (a - b))
  | .mul, .int a, .int b => .ok (.int (a * b))
  | .div, .int a, .int b => if b = 0 then .error .divisionByZero else .ok (.float (quotient a b))
  | .floorDiv, .int a, .int b =>
    if b = 0 then .error .divisionByZero else .ok (.int (Int.fdiv a b))
  | .mod, .int a, .int b => if b = 0 then .error .divisionByZero else .ok (.int (Int.fmod a b))
  | .pow, .int a, .int b =>
    if 0 ≤ b then .ok (.int (power a b.toNat))
    else if a = 0 then .error .divisionByZero
    else .ok (.float (Float.pow (Decimal.floatOfInt a) (Decimal.floatOfInt b)))
  | op, a, b =>
    let x := a.toFloat
    let y := b.toFloat
    match op with
    | .add => .ok (.float (x + y))
    | .sub => .ok (.float (x - y))
    | .mul => .ok (.float (x * y))
    | .div => if y == 0.0 then .error .divisionByZero else .ok (.float (x / y))
    | .floorDiv => if y == 0.0 then .error .divisionByZero else .ok (.float (floorFloat (x / y)))
    | .mod => if y == 0.0 then .error .divisionByZero else .ok (.float (modFloat x y))
    | .pow =>
      if x == 0.0 && y < 0.0 then .error .divisionByZero else .ok (.float (Float.pow x y))

end Number

/-- The fault that an undefined operand leads to. -/
def undefinedOf? : Value → Option Fault
  | .undefined message => some (.undefined message)
  | .omitted message => some (.undefined message)
  | _ => none

/-- Repeats a list. -/
def repeated {α : Type} (l : List α) (count : Int) : List α :=
  (List.replicate count.toNat l).flatten

/-- An arithmetic operation. -/
def arithmetic (op : Arithmetic) (a b : Value) : Eval Value :=
  match undefinedOf? a, undefinedOf? b with
  | some fault, _ => .error fault
  | none, some fault => .error fault
  | none, none =>
    match Number.ofValue? a, Number.ofValue? b with
    | some x, some y => Number.apply op x y
    | _, _ =>
      match op, a, b with
      | .add, .text s, .text t => .ok (.text (s ++ t))
      | .add, .list s, .list t => .ok (.list (s ++ t))
      | .add, .tuple s, .tuple t => .ok (.tuple (s ++ t))
      | .mul, .text s, n =>
        match Number.ofValue? n with
        | some (.int n) => .ok (.text (repeated s n))
        | _ => .error .wrongType
      | .mul, .list s, n =>
        match Number.ofValue? n with
        | some (.int n) => .ok (.list (repeated s n))
        | _ => .error .wrongType
      | .mul, .tuple s, n =>
        match Number.ofValue? n with
        | some (.int n) => .ok (.tuple (repeated s n))
        | _ => .error .wrongType
      | .mul, n, .text s =>
        match Number.ofValue? n with
        | some (.int n) => .ok (.text (repeated s n))
        | _ => .error .wrongType
      | .mul, n, .list s =>
        match Number.ofValue? n with
        | some (.int n) => .ok (.list (repeated s n))
        | _ => .error .wrongType
      | _, _, _ => .error .wrongType

/-- A number with the other sign. -/
def negate (v : Value) : Eval Value :=
  match undefinedOf? v, Number.ofValue? v with
  | some fault, _ => .error fault
  | none, some (.int n) => .ok (.int (-n))
  | none, some (.float x) => .ok (.float (-x))
  | none, none => .error .wrongType

/-- A number as it is. -/
def plus (v : Value) : Eval Value :=
  match undefinedOf? v, Number.ofValue? v with
  | some fault, _ => .error fault
  | none, some (.int n) => .ok (.int n)
  | none, some (.float x) => .ok (.float x)
  | none, none => .error .wrongType

/-! ## Order -/

/-- Whether one number is below another. -/
def numberLess (a b : Number) : Bool :=
  match a, b with
  | .int a, .int b => a < b
  | .float x, .float y => x < y
  | .int a, .float y =>
    match Decimal.binaryOf? y with
    | some (m, e) => a * Int.pow 2 (-e).toNat < m * Int.pow 2 e.toNat
    | none => 0.0 < y
  | .float x, .int b =>
    match Decimal.binaryOf? x with
    | some (m, e) => m * Int.pow 2 e.toNat < b * Int.pow 2 (-e).toNat
    | none => x < 0.0

mutual

/-- Whether one value is below another; only values of one kind are ordered. -/
def less : Value → Value → Eval Bool
  | .undefined message, _ => .error (.undefined message)
  | .omitted message, _ => .error (.undefined message)
  | _, .undefined message => .error (.undefined message)
  | _, .omitted message => .error (.undefined message)
  | .text s, .text t => .ok (Text.before s t)
  | .list a, .list b => lessItems a b
  | .tuple a, .tuple b => lessItems a b
  | a, b =>
    match Number.ofValue? a, Number.ofValue? b with
    | some a, some b => .ok (numberLess a b)
    | _, _ => .error .wrongType

/-- Lists are ordered by the first items that differ. -/
def lessItems : List Value → List Value → Eval Bool
  | [], [] => .ok false
  | [], _ :: _ => .ok true
  | _ :: _, [] => .ok false
  | a :: as, b :: bs => do
    if ← Value.same a b then lessItems as bs else less a b

end

/-- Whether one value is a part of another. -/
def isIn (v container : Value) : Eval Bool :=
  match container with
  | .undefined message => .error (.undefined message)
  | .text t =>
    match v with
    | .text s => .ok (Text.hasPart s t)
    | _ => .error .wrongType
  | .map entries =>
    match v with
    | .undefined message => .error (.undefined message)
    | .list _ => .error .wrongType
    | .map _ => .error .wrongType
    | v => .ok (Value.lookup? entries v).isSome
  | c => do
    let items ← c.items
    items.anyM fun item => Value.same item v

/-- One comparison. -/
def compareBy (op : Comparison) (a b : Value) : Eval Bool :=
  match op with
  | .eq => Value.same a b
  | .ne => do return !(← Value.same a b)
  | .lt => less a b
  | .gt => less b a
  | .le => do
    if ← less a b then return true
    match a, b with
    | .float _, _ => Value.same a b
    | _, _ => return !(← less b a)
  | .ge => do
    if ← less b a then return true
    match a, b with
    | .float _, _ => Value.same a b
    | _, _ => return !(← less a b)
  | .isIn => isIn a b
  | .notIn => do return !(← isIn a b)

/-! ## Parts -/

/-- The methods that texts have. -/
def textMethods : List Text :=
  ["upper", "lower", "strip", "lstrip", "rstrip", "title", "capitalize", "replace", "split",
    "startswith", "endswith", "join"]

/-- The methods that lists have. -/
def listMethods : List Text := ["index", "count"]

/-- The methods that mappings have. -/
def mapMethods : List Text := ["items", "keys", "values", "get"]

/-- The methods of a loop. -/
def loopMethods : List Text := ["cycle"]

/-- A property of the state of a loop. -/
def loopProperty? (index length depth : Nat) (before after : Value) (n : Text) : Option Value :=
  let properties : List (Text × Value) :=
    [("index", .int (index + 1)), ("index0", .int index), ("revindex", .int (length - index)),
      ("revindex0", .int (length - index - 1)), ("first", .bool (index = 0)),
      ("last", .bool (index + 1 = length)), ("length", .int length), ("depth", .int (depth + 1)),
      ("depth0", .int depth), ("previtem", before), ("nextitem", after)]
  properties.lookup n

/-- A method or a property that a value has by its type. -/
def member? (v : Value) (n : Text) : Option Value :=
  match v with
  | .text _ => if n ∈ textMethods then some (.method v n) else none
  | .list _ => if n ∈ listMethods then some (.method v n) else none
  | .tuple _ => if n ∈ listMethods then some (.method v n) else none
  | .map _ => if n ∈ mapMethods then some (.method v n) else none
  | .loop index length depth before after =>
    match loopProperty? index length depth before after n with
    | some p => some p
    | none => if n ∈ loopMethods then some (.method v n) else none
  | _ => none

/-- The item that an index names, if there is one; a negative index counts from
the end. -/
def indexed? {α : Type} (l : List α) (i : Int) : Option α :=
  if 0 ≤ i then l[i.toNat]? else if -(l.length : Int) ≤ i then l[(l.length + i).toNat]? else none

/-- The integer that an index is. -/
def indexOf? : Value → Option Int
  | .int n => some n
  | .bool b => some (if b then 1 else 0)
  | _ => none

/-- The part of a value under an index or key, if it has one. -/
def part? (v index : Value) : Option Value :=
  match v with
  | .map entries => Value.lookup? entries index
  | .list items => (indexOf? index).bind (indexed? items)
  | .tuple items => (indexOf? index).bind (indexed? items)
  | .range a b c => (indexOf? index).bind (indexed? (Value.rangeItems a b c))
  | .text t => (indexOf? index).bind fun i => (indexed? t i).map fun c => .text [c]
  | _ => none

/-- The undefined value that stands for a missing part. -/
def missingPart (v index : Value) : Value :=
  match index with
  | .text n =>
    .undefined (Text.quoted v.typeName ++ " has no attribute " ++ Text.quoted n)
  | index =>
    .undefined (v.typeName ++ " has no element " ++ ((Value.shown index).toOption.getD []))

/-- A part by its name: a property of the value's type comes before a key. -/
def partByName (v : Value) (n : Text) : Eval Value :=
  match undefinedOf? v with
  | some fault => .error fault
  | none =>
    match member? v n with
    | some found => .ok found
    | none => .ok ((part? v (.text n)).getD (missingPart v (.text n)))

/-- A part by its index or key; a key comes before a property of the value's
type. -/
def partAt (v index : Value) : Eval Value :=
  match undefinedOf? v with
  | some fault => .error fault
  | none =>
    match v, index with
    | .map _, .undefined message => .error (.undefined message)
    | _, _ =>
      match part? v index with
      | some found => .ok found
      | none =>
        match index with
        | .text n => .ok ((member? v n).getD (missingPart v index))
        | index => .ok (missingPart v index)

/-! ## Slices -/

/-- The bound of a slice: missing, or an integer that is moved into the list. -/
def sliceBound (length : Nat) (low high : Int) (missing : Int) : Value → Option Int
  | .null => some missing
  | v =>
    (indexOf? v).map fun (i : Int) =>
      let i : Int := if i < 0 then i + length else i
      if i < low then low else if high < i then high else i

/-- The indices of a slice. -/
def sliceIndices (length : Nat) (first last step : Value) : Eval (List Int) :=
  match step with
  | .int 0 => .error .wrongValue
  | _ =>
    match if step matches .null then some 1 else indexOf? step with
    | none => .error .wrongType
    | some step =>
      let n : Int := length
      let bounds :=
        if 0 < step then (sliceBound length 0 n 0 first, sliceBound length 0 n n last)
        else (sliceBound length (-1) (n - 1) (n - 1) first, sliceBound length (-1) (n - 1) (-1) last)
      match bounds with
      | (some a, some b) =>
        .ok ((List.range (Value.rangeLength a b step)).map fun (i : Nat) => a + step * i)
      | _ => .error .wrongType

/-- A slice of a value. -/
def slice (v first last step : Value) : Eval Value :=
  match v with
  | .undefined message => .error (.undefined message)
  | .omitted message => .error (.undefined message)
  | .text t => do
    let is ← sliceIndices t.length first last step
    return .text (is.filterMap fun i => t[i.toNat]?)
  | .list l => do
    let is ← sliceIndices l.length first last step
    return .list (is.filterMap fun i => l[i.toNat]?)
  | .tuple l => do
    let is ← sliceIndices l.length first last step
    return .tuple (is.filterMap fun i => l[i.toNat]?)
  | v => .ok (.undefined (v.typeName ++ " has no element slice"))

end SourceMerge.Template
