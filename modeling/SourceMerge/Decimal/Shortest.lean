/-!
# SourceMerge.Decimal.Shortest

The shortest decimal that reads back as a given binary fraction.  A positive
fraction is `mantissa · 2 ^ exponent`; the numbers that round to it form an
interval around it, whose ends belong to it when the mantissa is even.  For
one, two, … digits the two neighbours of the fraction on that decimal grid are
tested in exact arithmetic: the first grid with a point in the interval gives
the digits, and of two such points the nearer one is taken.
-/

namespace SourceMerge.Decimal

/-- The number `digits · 10 ^ exponent`. -/
structure Scientific where
  digits : Nat
  exponent : Int

/-- A positive binary fraction with what surrounds it, over one denominator. -/
structure Interval where
  low : Nat
  value : Nat
  high : Nat
  denominator : Nat
  closed : Bool

/-- The interval of the numbers that round to `mantissa · 2 ^ exponent`.  Below
a power of two the neighbour is only half as far away (`narrow`). -/
def Interval.ofBinary (mantissa : Nat) (exponent : Int) (narrow : Bool) : Interval :=
  let scale := exponent - 2
  let up := Nat.pow 2 scale.toNat
  { low := (4 * mantissa - if narrow then 1 else 2) * up
    value := 4 * mantissa * up
    high := (4 * mantissa + 2) * up
    denominator := Nat.pow 2 (-scale).toNat
    closed := mantissa % 2 = 0 }

/-- Whether `n · 10 ^ exponent` lies in the interval. -/
def Interval.holds (i : Interval) (s : Scientific) : Bool :=
  let point := s.digits * Nat.pow 10 s.exponent.toNat * i.denominator
  let scale := Nat.pow 10 (-s.exponent).toNat
  if i.closed then i.low * scale ≤ point && point ≤ i.high * scale
  else i.low * scale < point && point < i.high * scale

/-- The greatest point of the grid of step `10 ^ exponent` that is not above
the value, and twice the remainder against the step. -/
def Interval.floorOn (i : Interval) (exponent : Int) : Nat × Ordering :=
  let top := i.value * Nat.pow 10 (-exponent).toNat
  let step := i.denominator * Nat.pow 10 exponent.toNat
  (top / step, compare (2 * (top % step)) step)

/-- The number of digits before the point (zero or negative for a value below
one): `10 ^ (magnitude - 1) ≤ value < 10 ^ magnitude`. -/
def Interval.magnitude (i : Interval) : Int :=
  ((Nat.toDigits 10 (i.value * Nat.pow 10 400 / i.denominator)).length : Int) - 400

/-- The point of the interval on the grid of `count` digits, if there is one. -/
def Interval.onGrid? (i : Interval) (count : Nat) : Option Scientific :=
  let exponent := i.magnitude - count
  let (floor, half) := i.floorOn exponent
  let below : Scientific := ⟨floor, exponent⟩
  let above : Scientific := ⟨floor + 1, exponent⟩
  match i.holds below, i.holds above with
  | true, true =>
    match half with
    | .lt => some below
    | .gt => some above
    | .eq => some (if floor % 2 = 0 then below else above)
  | true, false => some below
  | false, true => some above
  | false, false => none

/-- The first point found with `count`, `count + 1`, … digits. -/
def Interval.shortestFrom (i : Interval) (count : Nat) : Nat → Scientific
  | 0 => ⟨i.value / i.denominator, 0⟩
  | more + 1 =>
    match i.onGrid? count with
    | some s => s
    | none => i.shortestFrom (count + 1) more

/-- Zeros at the end of the digits move into the exponent. -/
def Scientific.reduceFrom : Nat → Scientific → Scientific
  | 0, s => s
  | fuel + 1, s =>
    if s.digits ≠ 0 ∧ s.digits % 10 = 0 then
      reduceFrom fuel ⟨s.digits / 10, s.exponent + 1⟩
    else s

/-- The shortest decimal in the interval; seventeen digits always suffice. -/
def Interval.shortest (i : Interval) : Scientific :=
  Scientific.reduceFrom 20 (i.shortestFrom 1 18)

end SourceMerge.Decimal
