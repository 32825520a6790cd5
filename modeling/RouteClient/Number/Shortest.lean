import RouteClient.Number.Double

/-!
# The shortest decimal text of a number

A double-precision number is written with the fewest decimal digits from which it can be read back,
and of several such decimals with the nearest one. `Double.shortest` finds the digits, and
`Double.text` lays them out.
-/

namespace RouteClient

namespace Double

/-- A decimal number `digits * 10 ^ exponent`. -/
structure Decimal where
  digits : Nat
  exponent : Int
  deriving DecidableEq

/-- The numbers that are rounded to a double-precision number, in units of `2 ^ exponent`: from
`low` to `high`, both of which belong to them when `closed` holds. -/
structure Interval where
  low : Nat
  value : Nat
  high : Nat
  closed : Bool
  exponent : Int
  deriving DecidableEq

/-- The numbers that are rounded to a number. Below a power of two the neighbours are nearer. -/
def interval (d : Double) : Interval :=
  let value := 4 * d.significand
  let nearBelow := d.significand = bound / 2 && minExponent < d.exponent
  { low := if nearBelow then value - 1 else value - 2
    value
    high := value + 2
    closed := d.significand % 2 = 0
    exponent := d.exponent - 2 }

/-- The multiple of `10 ^ exponent` that is nearest to the value of an interval among those that lie
in the interval, if there are any. -/
def Interval.multiple? (i : Interval) (exponent : Int) : Option Nat :=
  let (twoUp, twoDown) := powers 2 i.exponent
  let (tenUp, tenDown) := powers 10 exponent
  let scale := twoUp * tenDown
  let unit := tenUp * twoDown
  let inside (n : Nat) : Bool :=
    if i.closed then i.low * scale ≤ n * unit && n * unit ≤ i.high * scale
    else i.low * scale < n * unit && n * unit < i.high * scale
  let below := i.value * scale / unit
  let down := i.value * scale - below * unit
  let up := (below + 1) * unit - i.value * scale
  match inside below, inside (below + 1) with
  | true, true => some (if down < up || (down = up && below % 2 = 0) then below else below + 1)
  | true, false => some below
  | false, true => some (below + 1)
  | false, false => none

/-- The first decimal found in an interval when the exponent goes down from `exponent` by at most
`steps`. -/
def Interval.search (i : Interval) : (steps : Nat) → (exponent : Int) → Decimal
  | 0, exponent => ⟨0, exponent⟩
  | steps + 1, exponent =>
    match i.multiple? exponent with
    | some n => ⟨n, exponent⟩
    | none => i.search steps (exponent - 1)

/-- The shortest decimal that is rounded to a number. No number reaches `10 ^ 309`, and none needs
digits below `10 ^ (-324)`. -/
def shortest (d : Double) : Decimal :=
  d.interval.search 634 309

/-- Zeros in a row. -/
def zeros (n : Nat) : List Char := List.replicate n '0'

/-- An exponent as it is written, with its sign and at least two digits. -/
def exponentText (exponent : Int) : List Char :=
  let digits := Nat.toDigits 10 exponent.natAbs
  'e' :: (if exponent < 0 then '-' else '+') :: (zeros (2 - digits.length) ++ digits)

/-- Digits with a point behind the first one, unless it is the only one. -/
def pointed : List Char → List Char
  | [] => []
  | [d] => [d]
  | d :: ds => d :: '.' :: ds

/-- Digits laid out, where the first one stands for a multiple of `10 ^ exponent`: with an exponent
below `10 ^ (-5)` and from `10 ^ 16` on, and otherwise with a point and a digit behind it. -/
def layOut (digits : List Char) (exponent : Int) : List Char :=
  if exponent < -5 || 15 < exponent then pointed digits ++ exponentText exponent
  else if exponent < 0 then '0' :: '.' :: (zeros ((-exponent).toNat - 1) ++ digits)
  else
    let front := exponent.toNat + 1
    let behind := digits.drop front
    digits.take front ++ zeros (front - digits.length) ++
      '.' :: (if behind.isEmpty then ['0'] else behind)

/-- A number as it is written. -/
def text (d : Double) : String :=
  if d.isZero then "0.0"
  else
    let decimal := d.shortest
    let digits := Nat.toDigits 10 decimal.digits
    String.ofList (layOut digits (decimal.exponent + (digits.length : Int) - 1))

end Double

end RouteClient
