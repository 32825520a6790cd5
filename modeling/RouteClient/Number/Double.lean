/-!
# Double-precision numbers

A double-precision number that is not negative is a significand below `2 ^ 53` times a power of two.
A result that is no such number is rounded to the nearest one, and halfway between two to the one
with the even significand. All arithmetic is exact before it is rounded.
-/

namespace RouteClient

/-- A finite double-precision number that is not negative: `significand * 2 ^ exponent`. -/
structure Double where
  significand : Nat
  exponent : Int
  deriving DecidableEq

namespace Double

/-- Significands are below this power of two, `2 ^ 53`. -/
def bound : Nat := 0x20000000000000

/-- The smallest exponent. -/
def minExponent : Int := -1074

/-- The greatest exponent. -/
def maxExponent : Int := 971

/-- Zero. -/
def zero : Double := ⟨0, minExponent⟩

/-- Whether a number is zero. -/
def isZero (d : Double) : Bool := d.significand = 0

/-- Two factors whose quotient is a power of a base, one of which is 1. -/
def powers (base : Nat) (exponent : Int) : Nat × Nat :=
  (Nat.pow base exponent.toNat, Nat.pow base (-exponent).toNat)

/-- A number as numerator and denominator. -/
def ratio (d : Double) : Nat × Nat :=
  let (up, down) := powers 2 d.exponent
  (d.significand * up, down)

/-- The natural number nearest to a quotient; halfway between two it is the even one. -/
def nearest (num den : Nat) : Nat :=
  let quotient := num / den
  let twice := 2 * (num % den)
  if twice < den || (twice = den && quotient % 2 = 0) then quotient else quotient + 1

/-- The exponent that a quotient has as a double-precision number. -/
def exponentOf (num den : Nat) : Int :=
  let estimate : Int := (num.log2 : Int) - (den.log2 : Int) - 53
  let (up, down) := powers 2 estimate
  let exponent := if num * down < bound * (den * up) then estimate else estimate + 1
  if exponent < minExponent then minExponent else exponent

/-- The number nearest to a quotient; none when the quotient is too large. -/
def ofRatio? (num den : Nat) : Option Double :=
  if num = 0 then some zero
  else
    let exponent := exponentOf num den
    let (up, down) := powers 2 exponent
    let significand := nearest (num * down) (den * up)
    let rounded : Double :=
      if significand = bound then ⟨bound / 2, exponent + 1⟩ else ⟨significand, exponent⟩
    if maxExponent < rounded.exponent then none else some rounded

/-- The product of two numbers; none when it is too large. -/
def times? (a b : Double) : Option Double :=
  ofRatio? (a.ratio.1 * b.ratio.1) (a.ratio.2 * b.ratio.2)

/-- The quotient of two numbers, the second of which is not zero; none when it is too large. -/
def over? (a b : Double) : Option Double :=
  ofRatio? (a.ratio.1 * b.ratio.2) (a.ratio.2 * b.ratio.1)

/-- The greatest power of ten that is a double-precision number. -/
def maxPower : Nat := 308

/-- A power of ten up to the greatest one. -/
def powerOfTen (n : Nat) : Double :=
  (ofRatio? (Nat.pow 10 n) 1).getD zero

/-- A number divided a number of times by the greatest power of ten. -/
def lowered : (times : Nat) → Double → Double
  | 0, d => d
  | times + 1, d =>
    if d.isZero then d else lowered times ((d.over? (powerOfTen maxPower)).getD zero)

/-- A natural number times a power of ten; none when it is too large. The number and each factor
that it is multiplied with or divided by are rounded one after the other. -/
def ofDecimal? (n : Nat) (exponent : Int) : Option Double := do
  let d ← ofRatio? n 1
  if d.isZero then return d
  else if 0 ≤ exponent then
    if exponent.toNat ≤ maxPower then d.times? (powerOfTen exponent.toNat) else none
  else
    let places := (-exponent).toNat
    let times := (places - 1) / maxPower
    (lowered times d).over? (powerOfTen (places - times * maxPower))

end Double

end RouteClient
