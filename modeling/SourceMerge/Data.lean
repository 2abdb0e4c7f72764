import SourceMerge.Text
import SourceMerge.Text.Quoted
import SourceMerge.Decimal

/-!
# SourceMerge.Data

The values that configuration files, template data and source maps are made
of.  A mapping keeps its entries in the order in which the keys first appeared;
a key is replaced by a later entry with an equal key.  Booleans count as the
numbers zero and one when values are compared.
-/

namespace SourceMerge

/-- The most digits that an integer may have to be read or written in decimal. -/
def maxIntegerDigits : Nat := 4300

/-- A value that is none of the kinds below, such as a day, a set or some bytes.
What is known of it is what can be asked of any value. -/
structure Foreign where
  /-- How it stands for itself. -/
  display : Text
  /-- How it stands inside a collection; values with one spelling are equal. -/
  shown : Text
  truthy : Bool := true
  /-- The numbers that it is a sequence of; only bytes are one. -/
  bytes : List Nat := []
  deriving DecidableEq

/-- A value of a data format. -/
inductive Data where
  | null
  | bool (b : Bool)
  | int (n : Int)
  | float (x : Float)
  | text (t : Text)
  | list (items : List Data)
  | map (entries : List (Data × Data))
  | other (v : Foreign)

instance : Inhabited Data := ⟨.null⟩

/-- The entries of a mapping in order. -/
abbrev Entries := List (Data × Data)

namespace Data

/-! ## Comparison -/

/-- Whether an integer and a floating-point number are the same number. -/
def intEqFloat (n : Int) (x : Float) : Bool :=
  match Decimal.binaryOf? x with
  | none => false
  | some (mantissa, exponent) =>
    n * Int.pow 2 (-exponent).toNat == mantissa * Int.pow 2 exponent.toNat

mutual

/-- Whether two values are equal.  Numbers are compared by value, lists item by
item, and mappings by what each key holds, whatever the order. -/
def same : Data → Data → Bool
  | .null, .null => true
  | .bool a, .bool b => a == b
  | .bool a, .int b => (if a then 1 else 0) == b
  | .int a, .bool b => a == (if b then 1 else 0)
  | .int a, .int b => a == b
  | .int a, .float b => intEqFloat a b
  | .float a, .int b => intEqFloat b a
  | .bool a, .float b => intEqFloat (if a then 1 else 0) b
  | .float a, .bool b => intEqFloat (if b then 1 else 0) a
  | .float a, .float b => a == b
  | .text a, .text b => a == b
  | .list a, .list b => sameList a b
  | .map a, .map b => a.length == b.length && subMap a b
  | .other a, .other b => a.shown == b.shown
  | _, _ => false

/-- Whether two lists are equal item by item. -/
def sameList : List Data → List Data → Bool
  | [], [] => true
  | a :: as, b :: bs => same a b && sameList as bs
  | _, _ => false

/-- Whether every entry of the first mapping is one of the second. -/
def subMap : List (Data × Data) → List (Data × Data) → Bool
  | [], _ => true
  | e :: rest, b => holdsEntry e b && subMap rest b

/-- Whether the mapping has an entry with this key and value. -/
def holdsEntry : Data × Data → List (Data × Data) → Bool
  | (k, v), b => b.any fun e => same k e.1 && same v e.2

end

instance : BEq Data := ⟨same⟩

end Data

/-! ## Mappings -/

namespace Entries

/-- The value of a key. -/
def get? (entries : Entries) (key : Data) : Option Data :=
  (entries.find? fun e => Data.same e.1 key).map (·.2)

/-- Sets the value of a key; a new key goes to the end, a known one keeps its
place and its spelling. -/
def insert (entries : Entries) (key value : Data) : Entries :=
  match entries with
  | [] => [(key, value)]
  | e :: rest => if Data.same e.1 key then (e.1, value) :: rest else e :: insert rest key value

/-- Entries given in writing order, as a mapping. -/
def ofList (pairs : List (Data × Data)) : Entries :=
  pairs.foldl (fun entries e => insert entries e.1 e.2) []

/-- The first mapping overlaid by the second. -/
def overlay (base upper : Entries) : Entries :=
  upper.foldl (fun entries e => insert entries e.1 e.2) base

end Entries

namespace Data

/-- The value of a text key of a mapping; other values have none. -/
def field? (d : Data) (key : Text) : Option Data :=
  match d with
  | .map entries => Entries.get? entries (.text key)
  | _ => none

/-! ## Truth -/

/-- Zero, the empty text, empty collections, `null` and `false` count as
false, all other values as true. -/
def truthy : Data → Bool
  | .null => false
  | .bool b => b
  | .int n => n != 0
  | .float x => !(x == 0.0)
  | .text t => !t.isEmpty
  | .list items => !items.isEmpty
  | .map entries => !entries.isEmpty
  | .other v => v.truthy

/-! ## Display -/

/-- Whether an integer is short enough to be written. -/
def isShort (n : Int) : Bool := (Text.ofNat n.natAbs).length ≤ maxIntegerDigits

mutual

/-- A value as it stands inside a collection: texts are quoted. -/
def shown : Data → Text
  | .null => "None"
  | .bool true => "True"
  | .bool false => "False"
  | .int n => Text.ofInt n
  | .float x => Decimal.ofFloat x
  | .text t => Text.quoted t
  | .list items => "[" ++ shownItems items ++ "]"
  | .map entries => ['\x7b'] ++ shownEntries entries ++ ['\x7d']
  | .other v => v.shown

/-- Items with a comma and a space between them. -/
def shownItems : List Data → Text
  | [] => []
  | [d] => shown d
  | d :: rest => shown d ++ ", " ++ shownItems rest

/-- Entries with a comma and a space between them. -/
def shownEntries : List (Data × Data) → Text
  | [] => []
  | [e] => shownEntry e
  | e :: rest => shownEntry e ++ ", " ++ shownEntries rest

/-- An entry as key, colon and value. -/
def shownEntry : Data × Data → Text
  | (k, v) => shown k ++ ": " ++ shown v

end

/-- A value as text: a text stands for itself, other values as they are shown
inside a collection. -/
def display : Data → Text
  | .text t => t
  | .other v => v.display
  | d => shown d

mutual

/-- Whether all integers in a value are short enough to be written. -/
def isWritable : Data → Bool
  | .int n => isShort n
  | .list items => allWritable items
  | .map entries => allWritableEntries entries
  | _ => true

/-- Whether that holds of all items. -/
def allWritable : List Data → Bool
  | [] => true
  | d :: rest => isWritable d && allWritable rest

/-- Whether that holds of all keys and values. -/
def allWritableEntries : List (Data × Data) → Bool
  | [] => true
  | e :: rest => isWritableEntry e && allWritableEntries rest

/-- Whether that holds of a key and its value. -/
def isWritableEntry : Data × Data → Bool
  | (k, v) => isWritable k && isWritable v

end

/-- A value as text, if it can be written. -/
def display? (d : Data) : Option Text := if d.isWritable then some d.display else none

end Data

end SourceMerge
