import Colloquy.Double

/-! The shortest decimal text that reads back as the same number. -/

namespace Colloquy.Double

/-- A decimal number `0.d₁d₂… · 10 ^ point`, with no zero at either end of its digits. -/
structure Decimal where
  digits : List Char
  point : Int

/-- The values that round to a positive number, in units of `1 / unit`: from `low` to `high`, the
ends included when the mantissa is even. The number itself is `value`. -/
structure Interval where
  low : Nat
  value : Nat
  high : Nat
  unit : Nat
  closed : Bool

/-- The interval of a number `mantissa · 2 ^ exponent`. Below a power of two the numbers are twice
as dense. -/
def interval (mantissa : Nat) (exponent : Int) : Interval :=
  let below := if mantissa = Nat.pow 2 52 ∧ leastExponent < exponent then 1 else 2
  let up := Nat.pow 2 (exponent - 2).toNat
  { low := (4 * mantissa - below) * up
    value := 4 * mantissa * up
    high := (4 * mantissa + 2) * up
    unit := Nat.pow 2 (2 - exponent).toNat
    closed := mantissa % 2 == 0 }

/-- Whether `digits · 10 ^ power` lies in the interval. -/
def Interval.holds (i : Interval) (digits : Nat) (power : Int) : Bool :=
  let x := digits * Nat.pow 10 power.toNat * i.unit
  let scale := Nat.pow 10 (-power).toNat
  if i.closed then i.low * scale ≤ x && x ≤ i.high * scale
  else i.low * scale < x && x < i.high * scale

/-- The least power of ten above a positive quotient, counted up from a power that is not above it,
in at most `steps` steps. -/
def pointFrom (numerator denominator : Nat) : (steps : Nat) → Int → Int
  | 0, p => p
  | steps + 1, p =>
    if numerator * Nat.pow 10 (-p).toNat < denominator * Nat.pow 10 p.toNat then p
    else pointFrom numerator denominator steps (p + 1)

/-- The least power of ten above a positive quotient. A binary digit is worth at least 0.301 and at
most 0.302 decimal digits. -/
def pointOf (numerator denominator : Nat) : Int :=
  let bits : Int := (numerator.log2 : Int) - denominator.log2 - 1
  let start := if 0 ≤ bits then bits * 301 / 1000 else bits * 302 / 1000 - 1
  pointFrom numerator denominator 20 start

/-- The digits of the point of the grid `10 ^ power` that is nearest to the number and in its
interval, the even one of two equally near. -/
def Interval.nearest? (i : Interval) (power : Int) : Option Nat :=
  let numerator := i.value * Nat.pow 10 (-power).toNat
  let denominator := i.unit * Nat.pow 10 power.toNat
  let lower := numerator / denominator
  let twice := 2 * (numerator % denominator)
  let preferUpper := denominator < twice || (twice == denominator && lower % 2 == 1)
  let (first, second) := if preferUpper then (lower + 1, lower) else (lower, lower + 1)
  if i.holds first power then some first
  else if i.holds second power then some second
  else none

/-- The first grid, from coarse to fine, with a point in the interval. -/
def Interval.shortest (i : Interval) (point : Int) : (steps : Nat) → (count : Nat) → Nat × Int
  | 0, count =>
    (i.value * Nat.pow 10 (count - point).toNat / (i.unit * Nat.pow 10 (point - count).toNat),
      point - count)
  | steps + 1, count =>
    match i.nearest? (point - count) with
    | some digits => (digits, point - count)
    | none => i.shortest point steps (count + 1)

/-- The shortest decimal that reads back as `mantissa · 2 ^ exponent`, and of those the nearest. -/
def shortest (mantissa : Nat) (exponent : Int) : Decimal :=
  let i := interval mantissa exponent
  let (digits, power) := i.shortest (pointOf i.value i.unit) 17 1
  let written := (toString digits).toList
  let kept := (written.reverse.dropWhile (· == '0')).reverse
  { digits := kept, point := power + written.length }

/-- How decimals are written: the points of positional notation, and the least number of digits in
an exponent. -/
structure DecimalStyle where
  leastPoint : Int
  greatestPoint : Int
  exponentDigits : Nat

/-- Numbers from 0.0001 up to 10 ^ 16 are written in positions, others with an exponent of at least
two digits. -/
def plainStyle : DecimalStyle := ⟨-3, 16, 2⟩

/-- An integer with a sign, and zeros before it up to a number of digits. -/
def exponentText (digits : Nat) (e : Int) : List Char :=
  let written := (toString e.natAbs).toList
  (if e < 0 then '-' else '+') :: (List.replicate (digits - written.length) '0' ++ written)

/-- A decimal in a style: always with a point unless it has an exponent and a single digit. -/
def Decimal.render (style : DecimalStyle) (d : Decimal) : List Char :=
  if style.leastPoint ≤ d.point && d.point ≤ style.greatestPoint then
    if d.point ≤ 0 then
      '0' :: '.' :: (List.replicate (-d.point).toNat '0' ++ d.digits)
    else
      let whole := d.digits.take d.point.toNat
      let part := d.digits.drop d.point.toNat
      whole ++ List.replicate (d.point.toNat - whole.length) '0' ++ '.' ::
        if part.isEmpty then ['0'] else part
  else
    let part := d.digits.drop 1
    d.digits.take 1 ++ (if part.isEmpty then [] else '.' :: part) ++
      'e' :: exponentText style.exponentDigits (d.point - 1)

def text : Double → String
  | .finite negative m e =>
    let body := if m = 0 then ['0', '.', '0'] else (shortest m e).render plainStyle
    String.ofList (if negative then '-' :: body else body)
  | .infinite negative => if negative then "-inf" else "inf"
  | .nan => "nan"

end Colloquy.Double
