import SourceMerge.Text
import SourceMerge.Decimal.Shortest

/-!
# SourceMerge.Decimal

Floating-point numbers as text.  A number is written with the fewest digits
that read back; positionally when its exponent lies between -4 and 15, with at
least one digit after the point, and otherwise with one digit before the point
and an exponent of at least two digits that always has a sign.
-/

namespace SourceMerge.Decimal

/-- The digits and the place of the point: `0.d₁d₂… · 10 ^ point`. -/
def layout (digits : Text) (point : Int) : Text :=
  if -3 ≤ point ∧ point ≤ 16 then
    if point ≤ 0 then "0." ++ List.replicate (-point).toNat '0' ++ digits
    else
      let whole := point.toNat
      if digits.length ≤ whole then
        digits ++ List.replicate (whole - digits.length) '0' ++ ".0"
      else digits.take whole ++ "." ++ digits.drop whole
  else
    let exponent := point - 1
    let mantissa :=
      match digits with
      | [] => []
      | [d] => [d]
      | d :: rest => d :: '.' :: rest
    let sign := if exponent < 0 then '-' else '+'
    mantissa ++ ['e', sign] ++ Text.padded 2 exponent.natAbs

/-- A finite floating-point number as `mantissa · 2 ^ exponent`. -/
def binaryOf? (x : Float) : Option (Int × Int) :=
  let bits := x.toBits.toNat
  let biased : Nat := bits / Nat.pow 2 52 % Nat.pow 2 11
  let fraction : Nat := bits % Nat.pow 2 52
  let sign : Int := if bits / Nat.pow 2 63 = 1 then -1 else 1
  if biased = 2047 then none
  else if biased = 0 then some (sign * fraction, -1074)
  else some (sign * (fraction + Nat.pow 2 52), biased - 1075)

/-- The text of a floating-point number. -/
def ofFloat (x : Float) : Text :=
  let bits := x.toBits.toNat
  let sign : Text := if bits / Nat.pow 2 63 = 1 then ['-'] else []
  let biased : Nat := bits / Nat.pow 2 52 % Nat.pow 2 11
  let fraction : Nat := bits % Nat.pow 2 52
  if biased = 2047 then
    if fraction = 0 then sign ++ "inf" else "nan"
  else if biased = 0 ∧ fraction = 0 then sign ++ "0.0"
  else
    let interval :=
      if biased = 0 then Interval.ofBinary fraction (-1074) false
      else Interval.ofBinary (fraction + Nat.pow 2 52) (biased - 1075) (fraction = 0 && 1 < biased)
    let s := interval.shortest
    let digits := Text.ofNat s.digits
    sign ++ layout digits (digits.length + s.exponent)

/-- The floating-point number nearest to `digits · 10 ^ exponent`. -/
def toFloat (digits : Nat) (exponent : Int) : Float :=
  let size : Int := (Nat.toDigits 10 digits).length
  if digits = 0 then 0.0
  else if 400 < exponent + size then 1.0 / 0.0
  else if exponent + size < -400 then 0.0
  else Float.ofScientific digits (exponent < 0) exponent.natAbs

/-- The floating-point number nearest to an integer. -/
def floatOfInt (n : Int) : Float :=
  let x := toFloat n.natAbs 0
  if n < 0 then -x else x

end SourceMerge.Decimal
