/-! Binary floating-point numbers of 64 bits, as exact values. Every operation computes the exact
result and rounds it once, to the nearest number and to the even one of two equally near. -/

namespace Colloquy

/-- A number `± mantissa · 2 ^ exponent`, an infinity, or no number. The functions below build
finite numbers with `mantissa < 2 ^ 53` and `-1074 ≤ exponent ≤ 971`, and `2 ^ 52 ≤ mantissa`
unless the exponent is the least one. -/
inductive Double where
  | finite (negative : Bool) (mantissa : Nat) (exponent : Int)
  | infinite (negative : Bool)
  | nan
deriving DecidableEq

namespace Double

def leastExponent : Int := -1074

def zero : Double := .finite false 0 leastExponent

/-- `numerator / (denominator · 2 ^ exponent)` as a quotient of natural numbers. -/
def scaled (numerator denominator : Nat) (exponent : Int) : Nat × Nat :=
  if 0 ≤ exponent then (numerator, denominator * Nat.pow 2 exponent.toNat)
  else (numerator * Nat.pow 2 (-exponent).toNat, denominator)

/-- A quotient rounded to the nearest natural number, a half to the even one. -/
def roundHalfEven (numerator denominator : Nat) : Nat :=
  let q := numerator / denominator
  let r := numerator % denominator
  if 2 * r < denominator then q
  else if denominator < 2 * r then q + 1
  else if q % 2 = 0 then q else q + 1

/-- The exponent at which the quotient of two positive numbers has 53 binary digits before the
point, or the least exponent if that is greater. -/
def exponentFor (numerator denominator : Nat) : Int :=
  let e : Int := (numerator.log2 : Int) - denominator.log2 - 52
  let (a, b) := scaled numerator denominator e
  max leastExponent (if a / b < Nat.pow 2 52 then e - 1 else e)

/-- The number nearest to a quotient of natural numbers with a sign. -/
def ofRatio (negative : Bool) (numerator denominator : Nat) : Double :=
  if numerator = 0 then .finite negative 0 leastExponent
  else
    let e := exponentFor numerator denominator
    let (a, b) := scaled numerator denominator e
    let m := roundHalfEven a b
    let (m, e) := if m = Nat.pow 2 53 then (Nat.pow 2 52, e + 1) else (m, e)
    if 971 < e then .infinite negative else .finite negative m e

/-- The number nearest to `± mantissa · 2 ^ exponent`. -/
def ofScaled (negative : Bool) (mantissa : Nat) (exponent : Int) : Double :=
  if 0 ≤ exponent then ofRatio negative (mantissa * Nat.pow 2 exponent.toNat) 1
  else ofRatio negative mantissa (Nat.pow 2 (-exponent).toNat)

/-- The number nearest to an integer; infinite when the integer is too large. -/
def ofInt (i : Int) : Double := ofRatio (i < 0) i.natAbs 1

/-- The number nearest to `± digits · 10 ^ exponent`. -/
def ofDecimal (negative : Bool) (digits : Nat) (exponent : Int) : Double :=
  if 0 ≤ exponent then ofRatio negative (digits * Nat.pow 10 exponent.toNat) 1
  else ofRatio negative digits (Nat.pow 10 (-exponent).toNat)

/-- The 64 bits of a number: sign, eleven bits of exponent, 52 of mantissa. -/
def toBits : Double → Nat
  | .finite negative m e =>
    (if negative then Nat.pow 2 63 else 0) +
      if m < Nat.pow 2 52 then m
      else (e + 1075).toNat * Nat.pow 2 52 + (m - Nat.pow 2 52)
  | .infinite negative => (if negative then Nat.pow 2 63 else 0) + 0x7ff0000000000000
  | .nan => 0x7ff8000000000000

def mul : Double → Double → Double
  | .finite s m e, .finite t n f => ofScaled (s != t) (m * n) (e + f)
  | .finite s m _, .infinite t => if m = 0 then .nan else .infinite (s != t)
  | .infinite s, .finite t n _ => if n = 0 then .nan else .infinite (s != t)
  | .infinite s, .infinite t => .infinite (s != t)
  | _, _ => .nan

/-- A finite value with its sign, in units of `2 ^ exponent`. -/
def signed (negative : Bool) (mantissa : Nat) : Int :=
  if negative then -(mantissa : Int) else mantissa

def add : Double → Double → Double
  | .finite s m e, .finite t n f =>
    let low := min e f
    let sum := signed s (m * Nat.pow 2 (e - low).toNat) + signed t (n * Nat.pow 2 (f - low).toNat)
    if sum = 0 then .finite (s && t) 0 leastExponent
    else ofScaled (sum < 0) sum.natAbs low
  | .finite _ _ _, .infinite t => .infinite t
  | .infinite s, .finite _ _ _ => .infinite s
  | .infinite s, .infinite t => if s = t then .infinite s else .nan
  | _, _ => .nan

def neg : Double → Double
  | .finite s m e => .finite (!s) m e
  | .infinite s => .infinite (!s)
  | .nan => .nan

/-- The integer part of a finite number, towards zero. -/
def truncate (negative : Bool) (mantissa : Nat) (exponent : Int) : Int :=
  signed negative <|
    if 0 ≤ exponent then mantissa * Nat.pow 2 exponent.toNat else mantissa / Nat.pow 2 (-exponent).toNat

def toInt? : Double → Option Int
  | .finite s m e =>
    if 0 ≤ e ∨ m % Nat.pow 2 (-e).toNat = 0 then some (truncate s m e) else none
  | _ => none

def isZero : Double → Bool
  | .finite _ m _ => m == 0
  | _ => false

/-- Equality of values: the two zeros are equal and `nan` equals nothing. -/
def eqv : Double → Double → Bool
  | .finite s m e, .finite t n f => m == n && (m == 0 || (s == t && e == f))
  | .infinite s, .infinite t => s == t
  | _, _ => false

/-- A number written as an integer or as a floating-point number. -/
inductive Quantity where
  | whole (i : Int)
  | real (x : Double)

def Quantity.eqv : Quantity → Quantity → Bool
  | .whole i, .whole j => i == j
  | .whole i, .real x => x.toInt? == some i
  | .real x, .whole i => x.toInt? == some i
  | .real x, .real y => x.eqv y

end Double
end Colloquy
