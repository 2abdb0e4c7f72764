import SourceMerge.Data

/-!
# SourceMerge.Template.Tree

Templates as trees of expressions and nodes, and the check for filters and
tests that do not exist.  Inside a branch that may never be taken an unknown
filter is tolerated until it is used; anywhere else it makes the whole template
invalid.
-/

namespace SourceMerge.Template

/-- The ways to compare two values. -/
inductive Comparison where
  | eq
  | ne
  | lt
  | le
  | gt
  | ge
  | isIn
  | notIn
  deriving DecidableEq

/-- The arithmetic operations. -/
inductive Arithmetic where
  | add
  | sub
  | mul
  | div
  | floorDiv
  | mod
  | pow
  deriving DecidableEq

/-- An expression. -/
inductive Expr where
  | const (d : Data)
  | name (n : Text)
  | tuple (items : List Expr)
  | list (items : List Expr)
  | dict (keys values : List Expr)
  | attribute (e : Expr) (n : Text)
  | item (e index : Expr)
  | slice (first last step : Expr)
  | call (f : Expr) (arguments : List Expr)
  /-- An argument given by name. -/
  | named (n : Text) (e : Expr)
  | filter (n : Text) (e : Expr) (arguments : List Expr)
  | test (n : Text) (e : Expr) (arguments : List Expr)
  | negate (e : Expr)
  | plus (e : Expr)
  | not (e : Expr)
  | arithmetic (op : Arithmetic) (a b : Expr)
  | concat (items : List Expr)
  | compare (first : Expr) (ops : List Comparison) (rest : List Expr)
  | and (a b : Expr)
  | or (a b : Expr)
  /-- A choice; without a second branch its value is omitted when the condition is
  false. -/
  | choice (line : Nat) (condition yes : Expr) (no : Option Expr)

/-- What an assignment or a loop sets. -/
inductive Target where
  | name (n : Text)
  | tuple (items : List Target)

/-- A part of a template. -/
inductive Node where
  | text (t : Text)
  | output (e : Expr)
  | choice (condition : Expr) (yes no : List Node)
  | loop (target : Target) (items : Expr) (condition : Option Expr) (body otherwise : List Node)
  | assign (target : Target) (e : Expr)
  /-- The rendered body, passed through filters, becomes the value. -/
  | capture (target : Target) (filters : List (Text × List Expr)) (body : List Node)
  /-- A scope of its own with some names set. -/
  | scope (targets : List Target) (values : List Expr) (body : List Node)
  /-- The rendered body, passed through filters. -/
  | filtered (filters : List (Text × List Expr)) (body : List Node)

/-! ## Names of filters and tests -/

mutual

/-- Whether every filter and test that is sure to be looked at is known. -/
def Expr.namesKnown (filters tests : List Text) (soft : Bool) : Expr → Bool
  | .const _ => true
  | .name _ => true
  | .tuple es => namesKnownAll filters tests soft es
  | .list es => namesKnownAll filters tests soft es
  | .dict ks vs => namesKnownAll filters tests soft ks && namesKnownAll filters tests soft vs
  | .attribute e _ => e.namesKnown filters tests soft
  | .item e i => e.namesKnown filters tests soft && i.namesKnown filters tests soft
  | .slice a b c =>
    a.namesKnown filters tests soft && b.namesKnown filters tests soft &&
      c.namesKnown filters tests soft
  | .call f es => f.namesKnown filters tests soft && namesKnownAll filters tests soft es
  | .named _ e => e.namesKnown filters tests soft
  | .filter n e es =>
    (soft || n ∈ filters) && e.namesKnown filters tests soft && namesKnownAll filters tests soft es
  | .test n e es =>
    (soft || n ∈ tests) && e.namesKnown filters tests soft && namesKnownAll filters tests soft es
  | .negate e => e.namesKnown filters tests soft
  | .plus e => e.namesKnown filters tests soft
  | .not e => e.namesKnown filters tests soft
  | .arithmetic _ a b => a.namesKnown filters tests soft && b.namesKnown filters tests soft
  | .concat es => namesKnownAll filters tests soft es
  | .compare e _ es => e.namesKnown filters tests soft && namesKnownAll filters tests soft es
  | .and a b => a.namesKnown filters tests soft && b.namesKnown filters tests soft
  | .or a b => a.namesKnown filters tests soft && b.namesKnown filters tests soft
  | .choice _ _ _ _ => true

/-- The same for several expressions. -/
def namesKnownAll (filters tests : List Text) (soft : Bool) : List Expr → Bool
  | [] => true
  | e :: es => e.namesKnown filters tests soft && namesKnownAll filters tests soft es

end

/-- The same for filters given with their arguments. -/
def filtersKnown (filters tests : List Text) (soft : Bool) (l : List (Text × List Expr)) : Bool :=
  l.all fun (n, es) => (soft || n ∈ filters) && namesKnownAll filters tests soft es

mutual

/-- Whether every filter and test of a node that is sure to be looked at is
known.  The branches of a choice are tolerant; the body of a loop is not. -/
def Node.namesKnown (filters tests : List Text) (soft : Bool) : Node → Bool
  | .text _ => true
  | .output e => e.namesKnown filters tests soft
  | .choice _ yes no => nodesKnown filters tests true yes && nodesKnown filters tests true no
  | .loop _ items condition body otherwise =>
    items.namesKnown filters tests soft &&
      (match condition with
        | some e => e.namesKnown filters tests false
        | none => true) &&
      nodesKnown filters tests false body && nodesKnown filters tests false otherwise
  | .assign _ e => e.namesKnown filters tests soft
  | .capture _ fs body => filtersKnown filters tests soft fs && nodesKnown filters tests false body
  | .scope _ es body =>
    namesKnownAll filters tests false es && nodesKnown filters tests false body
  | .filtered fs body => filtersKnown filters tests false fs && nodesKnown filters tests false body

/-- The same for several nodes. -/
def nodesKnown (filters tests : List Text) (soft : Bool) : List Node → Bool
  | [] => true
  | n :: ns => n.namesKnown filters tests soft && nodesKnown filters tests soft ns

end

end SourceMerge.Template
