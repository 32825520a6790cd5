import RouteClient.Json.Draft
import RouteClient.Text.Bytes

/-!
# Reading quoted strings

The inside of a quoted string is read up to its closing quote. Escapes by number give UTF-16 units,
and two units that form a pair give one character. A unit without its partner makes the string
unreadable, but does not keep it from being skipped.
-/

namespace RouteClient

namespace Json

/-- How a quoted string ends: with the text behind its closing quote, or at a fault. -/
inductive StringEnd where
  | closed (rest : List Char)
  | broken (fault : Malformed)
  deriving DecidableEq

/-- A quoted string: its characters or the first thing wrong with them, and how it ends. -/
structure StringBody where
  chars : Except Malformed (List Char)
  ending : StringEnd

namespace StringBody

/-- A string that breaks off. -/
def breakOff (fault : Malformed) : StringBody := ⟨.error fault, .broken fault⟩

/-- The string with one more character in front. -/
def push (c : Char) (body : StringBody) : StringBody :=
  { body with chars := body.chars.map (c :: ·) }

/-- The string with something wrong in front. -/
def spoil (fault : Malformed) (body : StringBody) : StringBody :=
  { body with chars := .error fault }

end StringBody

/-- The value of a hexadecimal digit. -/
def hexValue? (c : Char) : Option Nat :=
  if '0' ≤ c && c ≤ '9' then some (c.toNat - 48)
  else if 'a' ≤ c && c ≤ 'f' then some (c.toNat - 87)
  else if 'A' ≤ c && c ≤ 'F' then some (c.toNat - 55)
  else none

/-- The value of four hexadecimal digits. -/
def hexUnit? (a b c d : Char) : Option Nat := do
  return (((← hexValue? a) * 16 + (← hexValue? b)) * 16 + (← hexValue? c)) * 16 + (← hexValue? d)

/-- Whether a UTF-16 unit opens a pair. -/
def isLeading (unit : Nat) : Bool := 0xd800 ≤ unit && unit ≤ 0xdbff

/-- Whether a UTF-16 unit closes a pair. -/
def isTrailing (unit : Nat) : Bool := 0xdc00 ≤ unit && unit ≤ 0xdfff

/-- The character of a pair of UTF-16 units. -/
def pairChar (leading trailing : Nat) : Char :=
  Char.ofNat (0x10000 + (leading - 0xd800) * 0x400 + (trailing - 0xdc00))

/-- The character of an escape by letter. -/
def letterEscape? (c : Char) : Option Char :=
  if c = '\x22' || c = '\\' || c = '/' then some c
  else if c = 'b' then some '\x08'
  else if c = 'f' then some '\x0c'
  else if c = 'n' then some '\n'
  else if c = 'r' then some '\r'
  else if c = 't' then some '\t'
  else none

/-- Why four hexadecimal digits cannot be read from a text: it has less than four bytes, or others
stand there. -/
def hexFault (rest : List Char) : Malformed :=
  if Text.byteCount rest < 4 then .endInString else .escape

/-- What is wrong with a leading unit when no second unit follows: the text may end, or anything
else may stand there. -/
def afterLeading (rest : List Char) (body : StringBody) : StringBody :=
  match rest with
  | [] => body
  | ['\\'] => body
  | '\\' :: 'u' :: _ => body
  | _ => body.spoil .endOfHexEscape

/-- Reads the inside of a quoted string from behind its opening quote. -/
def stringBody : List Char → StringBody
  | [] => .breakOff .endInString
  | ['\\'] => .breakOff .endInString
  | '\\' :: 'u' :: a :: b :: c :: d :: rest =>
    match hexUnit? a b c d with
    | none => .breakOff .escape
    | some unit =>
      if isTrailing unit then (stringBody rest).spoil .loneSurrogate
      else if isLeading unit then
        match rest with
        | '\\' :: 'u' :: e :: f :: g :: h :: rest' =>
          match hexUnit? e f g h with
          | none => stringBody ('\\' :: 'u' :: e :: f :: g :: h :: rest')
          | some second =>
            if isTrailing second then (stringBody rest').push (pairChar unit second)
            else (stringBody ('\\' :: 'u' :: e :: f :: g :: h :: rest')).spoil .loneSurrogate
        | rest => afterLeading rest (stringBody rest)
      else (stringBody rest).push (Char.ofNat unit)
  | '\\' :: 'u' :: rest => .breakOff (hexFault rest)
  | '\\' :: c :: rest =>
    match letterEscape? c with
    | some char => (stringBody rest).push char
    | none => .breakOff .escape
  | c :: rest =>
    if c = '\x22' then ⟨.ok [], .closed rest⟩
    else if c.toNat < 32 then .breakOff .controlCharacter
    else (stringBody rest).push c

end Json

end RouteClient
