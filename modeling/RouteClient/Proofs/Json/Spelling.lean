import RouteClient.Json.Reader

/-!
# Spellings of JSON values

The grammar of JSON texts. A `Spelling` is a value together with the way it is spelled: the escapes
in its strings, the form of its numbers, and the order of the members of its objects, in which keys
may be repeated. `Spelling.tokens` are its tokens, and `Spaced` relates tokens to the texts that
have them in this order with any blanks around them.
-/

namespace RouteClient

namespace Json

/-- One piece of a quoted string: a character that stands for itself, an escape by letter, or the
number of a UTF-16 unit in four hexadecimal digits. -/
inductive Piece where
  | plain (c : Char) (free : c ≠ '\x22' ∧ c ≠ '\\' ∧ 32 ≤ c.toNat)
  | letter (c char : Char) (known : letterEscape? c = some char)
  | unit (a b c d : Char) (number : Nat) (known : hexUnit? a b c d = some number)

/-- The characters that a piece is written with. -/
def Piece.chars : Piece → List Char
  | .plain c _ => [c]
  | .letter c _ _ => ['\\', c]
  | .unit a b c d _ _ => ['\\', 'u', a, b, c, d]

/-- A quoted string as it is spelled. -/
abbrev Quotation := List Piece

namespace Quotation

/-- The characters between the quotation marks. -/
def inside (q : Quotation) : List Char := q.flatMap Piece.chars

/-- A quotation as it is written. -/
def token (q : Quotation) : List Char := '\x22' :: (q.inside ++ ['\x22'])

/-- The characters that a quoted string stands for. There are none when it has half of a pair of
UTF-16 units without the other half. -/
def chars? : Quotation → Option (List Char)
  | [] => some []
  | .plain c _ :: q => (chars? q).map (c :: ·)
  | .letter _ char _ :: q => (chars? q).map (char :: ·)
  | .unit _ _ _ _ leading _ :: .unit a b c d trailing known :: q =>
    if isTrailing leading then none
    else if isLeading leading then
      if isTrailing trailing then (chars? q).map (pairChar leading trailing :: ·) else none
    else (chars? (.unit a b c d trailing known :: q)).map (Char.ofNat leading :: ·)
  | .unit _ _ _ _ unit _ :: q =>
    if isTrailing unit || isLeading unit then none else (chars? q).map (Char.ofNat unit :: ·)

/-- The text that a quotation stands for. -/
def text? (q : Quotation) : Option String := q.chars?.map String.ofList

end Quotation

/-- At least one decimal digit, and nothing else. -/
def IsDigits (ds : List Char) : Prop := ds ≠ [] ∧ ∀ d ∈ ds, d.isDigit

/-- The fraction of a number with its point, or nothing. -/
def IsFraction (cs : List Char) : Prop := cs = [] ∨ ∃ ds, IsDigits ds ∧ cs = '.' :: ds

/-- The exponent of a number with its mark, or nothing. -/
def IsExponent (cs : List Char) : Prop :=
  cs = [] ∨ ∃ mark ∈ ['e', 'E'], ∃ sign ∈ [[], ['+'], ['-']], ∃ ds,
    IsDigits ds ∧ cs = mark :: (sign ++ ds)

/-- A number as it is spelled. Its whole part begins with zero only when it is a lone zero. -/
structure Figure where
  negative : Bool
  whole : List Char
  fraction : List Char := []
  exponent : List Char := []
  isDigits : IsDigits whole
  loneZero : whole.head? = some '0' → whole = ['0']
  isFraction : IsFraction fraction
  isExponent : IsExponent exponent

/-- A figure as it is written. -/
def Figure.token (f : Figure) : List Char :=
  (if f.negative then ['-'] else []) ++ (f.whole ++ (f.fraction ++ f.exponent))

/-- A JSON value as it is spelled. -/
inductive Spelling where
  | null
  | bool (b : Bool)
  | number (f : Figure)
  | string (q : Quotation)
  | array (items : List Spelling)
  | object (members : List (Quotation × Spelling))

namespace Spelling

/-- The comma in front of an entry that is not the first. -/
def separator (first : Bool) : List (List Char) := if first then [] else [[',']]

mutual

/-- The tokens of a value in their order. -/
def tokens : Spelling → List (List Char)
  | .null => [['n', 'u', 'l', 'l']]
  | .bool true => [['t', 'r', 'u', 'e']]
  | .bool false => [['f', 'a', 'l', 's', 'e']]
  | .number f => [f.token]
  | .string q => [q.token]
  | .array items => ['['] :: (itemTokens true items ++ [[']']])
  | .object members => ['\x7b'] :: (memberTokens true members ++ [['\x7d']])

/-- The tokens of the items of an array. `first` tells that no item stands before. -/
def itemTokens : Bool → List Spelling → List (List Char)
  | _, [] => []
  | first, item :: items => separator first ++ (item.tokens ++ itemTokens false items)

/-- The tokens of the members of an object, each with a comma in front but the first. -/
def memberTokens : Bool → List (Quotation × Spelling) → List (List Char)
  | _, [] => []
  | first, (key, value) :: members =>
    separator first ++ (key.token :: [':'] :: (value.tokens ++ memberTokens false members))

end

end Spelling

/-- The text has the tokens in their order, with any blanks before, between and behind them. -/
inductive Spaced : (tokens : List (List Char)) → (text : List Char) → Prop where
  | done {gap : List Char} (blank : ∀ c ∈ gap, isGap c) : Spaced [] gap
  | step {gap token text : List Char} {tokens : List (List Char)} (blank : ∀ c ∈ gap, isGap c)
      (spaced : Spaced tokens text) : Spaced (token :: tokens) (gap ++ (token ++ text))

variable {token text : List Char} {tokens : List (List Char)}

/-- Tokens may follow each other without blanks. -/
theorem Spaced.flatten (tokens : List (List Char)) : Spaced tokens tokens.flatten := by
  induction tokens with
  | nil => exact .done (by simp)
  | cons token tokens ih => exact @Spaced.step [] token _ _ (by simp) ih

/-- A text is a spelling of a value when it has the tokens of the value, with any blanks around
them. -/
def Spelling.Text (s : Spelling) (text : String) : Prop := Spaced s.tokens text.toList

end Json

end RouteClient
