/-!
# Scalars of configuration files

The forms of truth values, numbers and times. Only the form of such a value is looked at: a digit
run may have single underscores between its digits, decimal numbers do not begin with a zero, and
the fields of dates and times are in their ranges. How large a number is does not matter.
-/

namespace RouteClient

namespace Toml

/-- Whether a text consists of digits, with single underscores allowed between them. -/
def isDigitRun (digit : Char → Bool) : List Char → Bool
  | [] => false
  | [c] => digit c
  | c :: '_' :: cs => digit c && isDigitRun digit cs
  | c :: cs => digit c && isDigitRun digit cs

/-- Whether a text is a run of decimal digits that does not begin with a superfluous zero. -/
def isDecimal : List Char → Bool
  | '0' :: _ :: _ => false
  | cs => isDigitRun Char.isDigit cs

/-- A text without the sign at its beginning. -/
def dropSign : List Char → List Char
  | '+' :: cs => cs
  | '-' :: cs => cs
  | cs => cs

/-- Whether a character is a hexadecimal digit. -/
def isHexDigit (c : Char) : Bool :=
  c.isDigit || ('a' ≤ c && c ≤ 'f') || ('A' ≤ c && c ≤ 'F')

/-- Whether a text is a whole number, decimal or to another base. -/
def isWhole : List Char → Bool
  | '0' :: 'x' :: cs => isDigitRun isHexDigit cs
  | '0' :: 'o' :: cs => isDigitRun (fun c => '0' ≤ c && c ≤ '7') cs
  | '0' :: 'b' :: cs => isDigitRun (fun c => c = '0' || c = '1') cs
  | cs => isDecimal (dropSign cs)

/-- Whether a character marks an exponent. -/
def isExponentMark (c : Char) : Bool := c = 'e' || c = 'E'

/-- Whether a text is an exponent with its mark. -/
def isExponent : List Char → Bool
  | [] => false
  | c :: cs => isExponentMark c && isDigitRun Char.isDigit (dropSign cs)

/-- Whether a text is a fraction with its point, or an exponent, or both. -/
def isFraction : List Char → Bool
  | '.' :: cs =>
    let exponent := cs.dropWhile (!isExponentMark ·)
    isDigitRun Char.isDigit (cs.takeWhile (!isExponentMark ·)) &&
      (exponent.isEmpty || isExponent exponent)
  | cs => isExponent cs

/-- Whether a text is a number that need not be whole. -/
def isFloat (cs : List Char) : Bool :=
  let cs := dropSign cs
  let inWhole (c : Char) : Bool := c.isDigit || c = '_'
  cs = ['i', 'n', 'f'] || cs = ['n', 'a', 'n'] ||
    (isDecimal (cs.takeWhile inWhole) && isFraction (cs.dropWhile inWhole))

/-- The number written by decimal digits alone. -/
def number? (cs : List Char) : Option Nat :=
  if !cs.isEmpty && cs.all Char.isDigit then
    some (cs.foldl (fun n d => n * 10 + (d.toNat - 48)) 0)
  else none

/-- Whether a year has 366 days. -/
def isLeapYear (year : Nat) : Bool :=
  year % 4 = 0 && (year % 100 ≠ 0 || year % 400 = 0)

/-- The number of days of a month. -/
def daysOf (year month : Nat) : Nat :=
  if month = 2 then (if isLeapYear year then 29 else 28)
  else if month = 4 || month = 6 || month = 9 || month = 11 then 30
  else 31

/-- Whether a text is a date. -/
def isDate : List Char → Bool
  | [y₁, y₂, y₃, y₄, '-', m₁, m₂, '-', d₁, d₂] =>
    match number? [y₁, y₂, y₃, y₄], number? [m₁, m₂], number? [d₁, d₂] with
    | some year, some month, some day =>
      1 ≤ month && month ≤ 12 && 1 ≤ day && day ≤ daysOf year month
    | _, _, _ => false
  | _ => false

/-- Whether two digits are a number up to a bound. -/
def isField (bound : Nat) (c d : Char) : Bool :=
  match number? [c, d] with
  | some n => n ≤ bound
  | none => false

/-- Reads the fraction of a second, if there is one. -/
def secondFraction : List Char → Option (List Char)
  | '.' :: cs =>
    if (cs.takeWhile Char.isDigit).isEmpty then none else some (cs.dropWhile Char.isDigit)
  | cs => some cs

/-- Reads a time of day; the seconds may be left out. -/
def timeOfDay : List Char → Option (List Char)
  | h₁ :: h₂ :: ':' :: m₁ :: m₂ :: ':' :: s₁ :: s₂ :: cs =>
    if isField 23 h₁ h₂ && isField 59 m₁ m₂ && isField 60 s₁ s₂ then secondFraction cs else none
  | h₁ :: h₂ :: ':' :: m₁ :: m₂ :: cs =>
    if isField 23 h₁ h₂ && isField 59 m₁ m₂ then some cs else none
  | _ => none

/-- Whether a text is the offset of a time, which may be left out. -/
def isOffset : List Char → Bool
  | [] => true
  | ['Z'] => true
  | ['z'] => true
  | [sign, h₁, h₂, ':', m₁, m₂] =>
    (sign = '+' || sign = '-') && isField 23 h₁ h₂ && isField 59 m₁ m₂
  | _ => false

/-- Whether a text is a time of day without an offset. -/
def isTime (cs : List Char) : Bool :=
  timeOfDay cs = some []

/-- Whether a text is a time of day with an offset or without one. -/
def isTimeWithOffset (cs : List Char) : Bool :=
  match timeOfDay cs with
  | some rest => isOffset rest
  | none => false

/-- Whether a text is a date and a time with the letter T between them. -/
def isDateTime (cs : List Char) : Bool :=
  match cs.drop 10 with
  | c :: time => (c = 'T' || c = 't') && isDate (cs.take 10) && isTimeWithOffset time
  | [] => false

/-- Whether a text is a truth value, a number or a time. -/
def isScalar (cs : List Char) : Bool :=
  cs = ['t', 'r', 'u', 'e'] || cs = ['f', 'a', 'l', 's', 'e'] || isWhole cs || isFloat cs ||
    isTime cs || isDateTime cs

/-- Whether a character may stand in a truth value, a number or a time. -/
def isScalarChar (c : Char) : Bool :=
  c.isAlphanum || c = '+' || c = '-' || c = '_' || c = '.' || c = ':'

/-- Passes a time that stands behind a date and a space; a date may also stand alone. -/
def timeBehindDate : List Char → Option (List Char)
  | ' ' :: c :: cs =>
    if c.isDigit then
      if isTimeWithOffset ((c :: cs).takeWhile isScalarChar) then
        some ((c :: cs).dropWhile isScalarChar)
      else none
    else some (' ' :: c :: cs)
  | cs => some cs

/-- Passes a truth value, a number or a time. -/
def scalar (cs : List Char) : Option (List Char) :=
  let form := cs.takeWhile isScalarChar
  let rest := cs.dropWhile isScalarChar
  if isDate form then timeBehindDate rest
  else if isScalar form then some rest
  else none

end Toml

end RouteClient
