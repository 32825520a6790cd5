import RouteClient.Json.Malformed
import RouteClient.Number.Shortest

/-!
# Numbers of JSON texts

A number is whole when it is written without fraction and exponent and fits into 64 bits. Any other
number is a double-precision number, with a sign of its own for zero.
-/

namespace RouteClient

namespace Json

/-- A number. -/
inductive Numeral where
  | whole (n : Int)
  | double (negative : Bool) (magnitude : Double)
  | tooLarge
  deriving DecidableEq

/-- The digits at the beginning of a text, and the text behind them. -/
def digits (cs : List Char) : List Char × List Char :=
  (cs.takeWhile Char.isDigit, cs.dropWhile Char.isDigit)

/-- The break where a digit is missing: at the end of the text or before another character. -/
def noDigit (rest : List Char) : Break :=
  if rest.isEmpty then ⟨.endInValue, .number⟩ else .same .number

/-- The whole part of a number: a lone zero, or digits that do not begin with zero. -/
def wholePart (cs : List Char) : Except Break (List Char × List Char) :=
  match digits cs with
  | ([], rest) => .error (noDigit rest)
  | (['0'], rest) => .ok (['0'], rest)
  | ('0' :: _, _) => .error (.same .number)
  | read => .ok read

/-- Digits that must be there. -/
def someDigits (cs : List Char) : Except Break (List Char × List Char) :=
  match digits cs with
  | ([], rest) => .error (noDigit rest)
  | read => .ok read

/-- The digits of the fraction of a number; none when it has no fraction. -/
def fractionPart : List Char → Except Break (List Char × List Char)
  | '.' :: cs => someDigits cs
  | cs => .ok ([], cs)

/-- The value of decimal digits. -/
def digitsValue (ds : List Char) : Nat :=
  ds.foldl (fun n d => n * 10 + (d.toNat - 48)) 0

/-- The exponent of a number behind its mark. -/
def exponentDigits : List Char → Except Break (Int × List Char)
  | '+' :: cs => (someDigits cs).map fun (ds, rest) => ((digitsValue ds : Int), rest)
  | '-' :: cs => (someDigits cs).map fun (ds, rest) => (-(digitsValue ds : Int), rest)
  | cs => (someDigits cs).map fun (ds, rest) => ((digitsValue ds : Int), rest)

/-- The exponent of a number, if there is one. -/
def exponentPart : List Char → Except Break (Option Int × List Char)
  | c :: cs =>
    if c = 'e' || c = 'E' then (exponentDigits cs).map fun (e, rest) => (some e, rest)
    else .ok (none, c :: cs)
  | [] => .ok (none, [])

/-- A number with more digits at its end, as long as it fits into 64 bits, and the digits that do
not belong to it any more. -/
def appendDigits (n : Nat) : List Char → Nat × List Char
  | [] => (n, [])
  | d :: ds =>
    let longer := n * 10 + (d.toNat - 48)
    if longer < 0x10000000000000000 then appendDigits longer ds else (n, d :: ds)

/-- The double-precision number with given digits and exponent. Digits beyond 64 bits do not
count. -/
def magnitude? (whole fraction : List Char) (exponent : Int) : Option Double :=
  let (n, beyond) := appendDigits 0 whole
  let (n, dropped) := appendDigits n fraction
  let places : Int := (fraction.length : Int) - (dropped.length : Int)
  Double.ofDecimal? n (exponent + (beyond.length : Int) - places)

/-- The whole number with given digits, if it fits into 64 bits; zero has no sign. -/
def whole? (negative : Bool) (whole : List Char) : Option Int :=
  match negative, appendDigits 0 whole with
  | false, (n, []) => some n
  | true, (n, []) => if 0 < n && n ≤ 0x8000000000000000 then some (-n) else none
  | _, _ => none

/-- The number with a given sign, digits and exponent. -/
def numeralOf (negative : Bool) (whole fraction : List Char) (exponent : Option Int) : Numeral :=
  let double : Numeral :=
    match magnitude? whole fraction (exponent.getD 0) with
    | some d => .double negative d
    | none => .tooLarge
  match fraction, exponent with
  | [], none => ((whole? negative whole).map .whole).getD double
  | _, _ => double

/-- Reads a number behind its sign. -/
def unsigned (negative : Bool) (cs : List Char) : Except Break (Numeral × List Char) := do
  let (whole, cs) ← wholePart cs
  let (fraction, cs) ← fractionPart cs
  let (exponent, cs) ← exponentPart cs
  return (numeralOf negative whole fraction exponent, cs)

/-- Reads a number. -/
def numeral : List Char → Except Break (Numeral × List Char)
  | '-' :: cs => unsigned true cs
  | cs => unsigned false cs

/-- A number as messages describe it; none when it is too large to be read. -/
def Numeral.description? : Numeral → Option String
  | .whole n => some ("integer \x60" ++ toString n ++ "\x60")
  | .double negative d =>
    some ("floating point \x60" ++ (if negative then "-" else "") ++ d.text ++ "\x60")
  | .tooLarge => none

end Json

end RouteClient
