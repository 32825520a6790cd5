import Mathlib.Data.List.Basic
import RouteClient.Json.Writer
import RouteClient.Proofs.Json.Spelling

/-!
# How values are written

The spelling that a value is written with: `Json.spelling` gives the pieces of its strings and the
digits of its numbers, and the compact form of the value has the tokens of this spelling without any
blanks (`toList_compact`).
-/

namespace RouteClient

namespace Json

private theorem hexValue?_hexDigit : ∀ n < 16, hexValue? (hexDigit n) = some n := by decide

private theorem hexUnit?_small {n : Nat} (small : n < 256) :
    hexUnit? '0' '0' (hexDigit (n / 16)) (hexDigit (n % 16)) = some n := by
  have zero : hexValue? '0' = some 0 := rfl
  have high := hexValue?_hexDigit (n / 16) (Nat.div_lt_of_lt_mul small)
  have low := hexValue?_hexDigit (n % 16) (Nat.mod_lt n (by decide))
  rw [hexUnit?, zero, high, low]
  simp only [bind, Option.bind, pure, Nat.zero_mul, Nat.zero_add, Nat.div_add_mod']

/-- The piece that a character is written as. -/
def Piece.of (c : Char) : Piece :=
  if quote : c = '\x22' then .letter '\x22' '\x22' rfl
  else if escape : c = '\\' then .letter '\\' '\\' rfl
  else if c = '\x08' then .letter 'b' '\x08' rfl
  else if c = '\x0c' then .letter 'f' '\x0c' rfl
  else if c = '\n' then .letter 'n' '\n' rfl
  else if c = '\r' then .letter 'r' '\r' rfl
  else if c = '\t' then .letter 't' '\t' rfl
  else if control : c.toNat < 32 then
    .unit '0' '0' (hexDigit (c.toNat / 16)) (hexDigit (c.toNat % 16)) c.toNat
      (hexUnit?_small (Nat.lt_trans control (by decide)))
  else .plain c ⟨quote, escape, Nat.le_of_not_lt control⟩

private theorem Piece.chars_of (c : Char) : (Piece.of c).chars = escapeChar c := by
  unfold Piece.of escapeChar
  repeat' split
  all_goals rfl

/-- No character of the text has to be escaped in a quoted string. -/
def IsUnescaped (text : String) : Prop :=
  ∀ c ∈ text.toList, c ≠ '\x22' ∧ c ≠ '\\' ∧ 32 ≤ c.toNat

/-- Whether a text is written without escapes can be decided. -/
instance (text : String) : Decidable (IsUnescaped text) :=
  List.decidableBAll (fun c => c ≠ '\x22' ∧ c ≠ '\\' ∧ 32 ≤ c.toNat) text.toList

private theorem escapeChar_of_plain {c : Char} (plain : c ≠ '\x22' ∧ c ≠ '\\' ∧ 32 ≤ c.toNat) :
    escapeChar c = [c] := by
  have isPlain : Piece.of c = .plain c plain := by
    obtain ⟨noQuote, noEscape, printable⟩ := plain
    have differs (d : Char) (control : d.toNat < 32) : c ≠ d := by
      intro same
      rw [same] at printable
      omega
    have noControl := Nat.not_lt.mpr printable
    simp only [Piece.of, noQuote, noEscape, differs '\x08' (by decide), differs '\x0c' (by decide),
      differs '\n' (by decide), differs '\r' (by decide), differs '\t' (by decide), noControl,
      ↓reduceIte, ↓reduceDIte]
  rw [← Piece.chars_of, isPlain, Piece.chars]

/-- A text that needs no escapes stands as it is between quotation marks. -/
theorem quote_of_isUnescaped {text : String} (unescaped : IsUnescaped text) :
    quote text = "\x22" ++ text ++ "\x22" := by
  have itself : text.toList.flatMap escapeChar = text.toList := by
    rw [List.flatMap_congr fun c member => escapeChar_of_plain (unescaped c member),
      List.flatMap_singleton']
  apply String.toList_injective
  simp [quote, quoteChars, itself]

namespace Quotation

/-- The quotation that a text is written as. -/
def of (text : String) : Quotation := text.toList.map Piece.of

/-- A text is quoted by its quotation. -/
theorem token_of (text : String) : (of text).token = quoteChars text.toList := by
  have inside : (of text).inside = text.toList.flatMap escapeChar := by
    rw [Quotation.inside, of, List.flatMap_map]
    exact congrArg text.toList.flatMap (funext Piece.chars_of)
  rw [Quotation.token, inside, quoteChars, List.cons_append]

/-- A unit below those that form pairs is a character by itself. -/
theorem chars?_unit {a b c d : Char} {n : Nat} {known : hexUnit? a b c d = some n} {q : Quotation}
    (small : n < 32) : chars? (.unit a b c d n known :: q) = q.chars?.map (Char.ofNat n :: ·) := by
  have notTrailing : isTrailing n = false := by
    simp only [isTrailing, Bool.and_eq_false_iff, decide_eq_false_iff_not]
    omega
  have notLeading : isLeading n = false := by
    simp only [isLeading, Bool.and_eq_false_iff, decide_eq_false_iff_not]
    omega
  -- What `chars?` does with a unit depends on the piece behind it, here with the same outcome.
  match q with
  | [] => simp [chars?, notTrailing, notLeading]
  | .plain .. :: q => simp [chars?, notTrailing, notLeading]
  | .letter .. :: q => simp [chars?, notTrailing, notLeading]
  | .unit .. :: q => simp [chars?, notTrailing, notLeading]

private theorem chars?_of (c : Char) (q : Quotation) :
    chars? (Piece.of c :: q) = q.chars?.map (c :: ·) := by
  unfold Piece.of
  repeat' split
  all_goals first
    | (rename_i same; rw [same]; rfl)
    | skip
  · rw [chars?_unit ‹_›, Char.ofNat_toNat]
  · rfl

/-- A quoted string that is written stands for the text that it is written from. -/
theorem text?_of (text : String) : (of text).text? = some text := by
  have chars (cs : List Char) : chars? (cs.map Piece.of) = some cs := by
    induction cs with
    | nil => rfl
    | cons c cs ih => rw [List.map_cons, chars?_of, ih]; rfl
  rw [text?, of, chars, Option.map_some, String.ofList_toList]

end Quotation

private theorem isDigits_toDigits (n : Nat) : IsDigits (Nat.toDigits 10 n) := by
  refine ⟨?_, fun d member => Nat.isDigit_of_mem_toDigits (by decide) (by decide) member⟩
  rcases Nat.lt_or_ge n 10 with small | large
  · rw [Nat.toDigits_of_lt_base small]
    exact List.cons_ne_nil _ _
  · rw [Nat.toDigits_of_base_le (by decide) large]
    simp

/-- Decimal digits begin with zero only when the number is zero. -/
theorem eq_zero_of_head (n : Nat) (zero : (Nat.toDigits 10 n).head? = some '0') : n = 0 := by
  induction n using Nat.strongRecOn with
  | ind n ih =>
      rcases Nat.lt_or_ge n 10 with small | large
      · have lone : ∀ n < 10, n.digitChar = '0' → n = 0 := by decide
        rw [Nat.toDigits_of_lt_base small] at zero
        exact lone n small (Option.some.inj zero)
      · obtain ⟨d, ds, front⟩ := List.exists_cons_of_ne_nil (isDigits_toDigits (n / 10)).1
        rw [Nat.toDigits_of_base_le (by decide) large, front] at zero
        have none := ih (n / 10) (by omega) (by rw [front]; exact zero)
        omega

/-- The number as it is written. -/
def Figure.of (n : Int) : Figure where
  negative := n < 0
  whole := Nat.toDigits 10 n.natAbs
  isDigits := isDigits_toDigits _
  loneZero zero := by rw [eq_zero_of_head _ zero]; rfl
  isFraction := Or.inl rfl
  isExponent := Or.inl rfl

/-- A whole number is written as its figure. -/
theorem Figure.token_of (n : Int) : (Figure.of n).token = (toString n).toList := by
  cases n with
  | ofNat n =>
      have text : (toString (Int.ofNat n)).toList = Nat.toDigits 10 n := Nat.toList_repr
      have sign : (of (Int.ofNat n)).negative = false :=
        decide_eq_false (Int.not_lt.mpr (Int.natCast_nonneg n))
      rw [text, token, sign]
      simp [of]
  | negSucc n =>
      have text : (toString (Int.negSucc n)).toList = '-' :: Nat.toDigits 10 (n + 1) := by
        change ("-" ++ Nat.repr (n + 1)).toList = _
        rw [String.toList_append, Nat.toList_repr]
        rfl
      have sign : (of (Int.negSucc n)).negative = true := decide_eq_true (Int.negSucc_lt_zero n)
      rw [text, token, sign]
      simp [of]

mutual

/-- The spelling that a value is written with. -/
def spelling : Json → Spelling
  | .null => .null
  | .bool b => .bool b
  | .number n => .number (.of n)
  | .string s => .string (.of s)
  | .array items => .array (itemSpellings items)
  | .object members => .object (memberSpellings members)

/-- The spellings that items are written as. -/
def itemSpellings : List Json → List Spelling
  | [] => []
  | item :: items => item.spelling :: itemSpellings items

/-- The spellings that members are written as, with those of their keys. -/
def memberSpellings : List (String × Json) → List (Quotation × Spelling)
  | [] => []
  | (key, value) :: members => (.of key, value.spelling) :: memberSpellings members

end

private theorem toList_intercalate_comma (first : String) (others : List String) :
    (",".intercalate (first :: others)).toList =
      first.toList ++ others.flatMap (',' :: ·.toList) := by
  have comma : ",".toList = [','] := rfl
  rw [String.toList_intercalate, comma]
  induction others generalizing first with
  | nil => simp
  | cons second others ih =>
      have rest := ih second
      simp only [List.map_cons] at rest
      simp [rest]

open Spelling (tokens itemTokens memberTokens separator)

mutual

/-- The compact form has the tokens of the value without blanks. -/
theorem toList_compact : (value : Json) → value.compact.toList = value.spelling.tokens.flatten
  | .null => rfl
  | .bool true => rfl
  | .bool false => rfl
  | .number n => by simp [compact, spelling, tokens, Figure.token_of]
  | .string s => by simp [compact, spelling, tokens, Quotation.token_of, quote]
  | .array [] => rfl
  | .array (item :: items) => by
      rw [compact, compactItems, String.toList_append, String.toList_append,
        toList_intercalate_comma, toList_compact item, toList_compactItems items]
      simp [spelling, itemSpellings, tokens, itemTokens, separator]
  | .object [] => rfl
  | .object ((key, value) :: members) => by
      rw [compact, compactMembers, String.toList_append, String.toList_append,
        toList_intercalate_comma, String.toList_append, String.toList_append, toList_compact value,
        toList_compactMembers members]
      simp [spelling, memberSpellings, tokens, memberTokens, separator, Quotation.token_of, quote]

private theorem toList_compactItems : (items : List Json) →
    (compactItems items).flatMap (',' :: ·.toList) =
      (itemTokens false (itemSpellings items)).flatten
  | [] => rfl
  | item :: items => by
      simp [compactItems, itemSpellings, itemTokens, separator, toList_compact item,
        toList_compactItems items]

private theorem toList_compactMembers : (members : List (String × Json)) →
    (compactMembers members).flatMap (',' :: ·.toList) =
      (memberTokens false (memberSpellings members)).flatten
  | [] => rfl
  | (key, value) :: members => by
      simp [compactMembers, memberSpellings, memberTokens, separator, toList_compact value,
        toList_compactMembers members, Quotation.token_of, quote]

end

/-- The compact form of a value is a text of its spelling. -/
theorem compact_spelled (value : Json) : value.spelling.Text value.compact := by
  rw [Spelling.Text, toList_compact]
  exact Spaced.flatten _

end Json

end RouteClient
