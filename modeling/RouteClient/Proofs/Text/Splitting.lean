import Mathlib.Data.List.Infix

/-!
# Texts split at a character

A text is split into the pieces between the occurrences of a separator (`Text.splitAt`), and is put
together again by joining them. Split at line feeds it gives its lines. A pattern without the
separator occurs in a text exactly when it occurs in one of the pieces (`infix_iff_exists_splitOn`).
-/

namespace RouteClient

/-- The parts of a text hold no separator. -/
theorem not_mem_of_mem_splitOn {separator : Char} {text part : List Char}
    (member : part ∈ text.splitOn separator) : separator ∉ part := by
  induction text generalizing part with
  | nil =>
      rw [List.splitOn_nil, List.mem_singleton] at member
      rw [member]
      exact List.not_mem_nil
  | cons c cs ih =>
      rw [List.splitOn_cons_eq_if_modifyHead] at member
      by_cases separates : c = separator
      · rw [if_pos (beq_iff_eq.mpr separates)] at member
        rcases List.mem_cons.mp member with rfl | later
        · exact List.not_mem_nil
        · exact ih later
      · rw [if_neg (mt beq_iff_eq.mp separates)] at member
        obtain ⟨first, rest, split⟩ := List.exists_cons_of_ne_nil (List.splitOn_ne_nil separator cs)
        rw [split, List.modifyHead_cons] at member
        rcases List.mem_cons.mp member with rfl | later
        · apply List.not_mem_cons_of_ne_of_not_mem (Ne.symm separates)
          exact ih (split ▸ List.mem_cons_self)
        · exact ih (split ▸ List.mem_cons_of_mem _ later)

/-- The first character of the first piece comes first. -/
theorem intercalate_cons_cons_head (joint first : List Char) (rest : List (List Char)) (c : Char) :
    joint.intercalate ((c :: first) :: rest) = c :: joint.intercalate (first :: rest) := by
  cases rest <;> simp

section Infix

variable {pattern : List Char} {separator : Char}

/-- A pattern does not reach across a character that it does not hold. -/
theorem infix_append_cons_iff (absent : separator ∉ pattern) (front back : List Char) :
    pattern <:+: front ++ separator :: back ↔ pattern <:+: front ∨ pattern <:+: back := by
  constructor
  · intro occurs
    rcases List.infix_append_iff.mp occurs with
      inFront | behind | ⟨first, second, rfl, ends, starts⟩
    · exact Or.inl inFront
    · rcases List.infix_cons_iff.mp behind with starts | inBack
      · rcases List.prefix_cons_iff.mp starts with rfl | ⟨rest, rfl, _⟩
        · exact Or.inl List.nil_infix
        · exact absurd List.mem_cons_self absent
      · exact Or.inr inBack
    · rcases List.prefix_cons_iff.mp starts with rfl | ⟨rest, rfl, _⟩
      · rw [List.append_nil]
        exact Or.inl ends.isInfix
      · exact absurd (List.mem_append_right first List.mem_cons_self) absent
  · rintro (inFront | inBack)
    · exact inFront.trans (List.prefix_append front _).isInfix
    · exact inBack.trans
        ((List.suffix_cons separator back).trans (List.suffix_append front _)).isInfix

/-- A pattern without the separator occurs in one of the pieces of a text in which it occurs. -/
theorem infix_intercalate_iff (absent : separator ∉ pattern) {pieces : List (List Char)}
    (nonempty : pieces ≠ []) :
    pattern <:+: [separator].intercalate pieces ↔ ∃ piece ∈ pieces, pattern <:+: piece := by
  induction pieces with
  | nil => exact absurd rfl nonempty
  | cons first rest ih =>
      cases rest with
      | nil => simp
      | cons second others =>
          rw [List.intercalate_cons_cons, List.append_assoc, List.singleton_append,
            infix_append_cons_iff absent, ih (List.cons_ne_nil second others)]
          simp

/-- A pattern without the separator occurs in a text when it occurs in a piece. -/
theorem infix_iff_exists_splitOn (absent : separator ∉ pattern) (text : List Char) :
    pattern <:+: text ↔ ∃ piece ∈ text.splitOn separator, pattern <:+: piece := by
  have joined : [separator].intercalate (text.splitOn separator) = text :=
    List.intercalate_splitOn separator
  rw [← infix_intercalate_iff absent (List.splitOn_ne_nil separator text), joined]

/-- Two characters that end a text, and do not occur before, occur nowhere else. -/
theorem eq_append_pair_iff {a b : Char} {text : List Char} (free : ¬[a, b] <:+: text ++ [a])
    (front back : List Char) :
    text ++ [a, b] = front ++ [a, b] ++ back ↔ front = text ∧ back = [] := by
  constructor
  · intro same
    rcases List.eq_nil_or_concat back with rfl | ⟨inner, last, rfl⟩
    · rw [List.append_nil, List.append_cancel_right_eq] at same
      exact ⟨same.symm, rfl⟩
    · have earlier : text ++ [a] ++ [b] = front ++ [a, b] ++ inner ++ [last] := by simpa using same
      exact absurd ⟨front, inner, (List.append_inj_left' earlier rfl).symm⟩ free
  · rintro ⟨rfl, rfl⟩
    rw [List.append_nil]

end Infix

section Pair

variable {a b c : Char} {text : List Char}

/-- Two characters occur at the beginning of a text or behind its first character. -/
theorem pair_infix_cons_iff :
    [a, b] <:+: c :: text ↔ (c = a ∧ text.head? = some b) ∨ [a, b] <:+: text := by
  rw [List.infix_cons_iff, List.cons_prefix_cons, List.singleton_prefix_iff_head?_eq_some,
    @eq_comm _ a c]

/-- Two different characters occur in front of a place where the second stands, or behind it, or
there. -/
theorem pair_infix_append_cons_iff (differ : a ≠ b) (front back : List Char) :
    [a, b] <:+: front ++ b :: back ↔
      [a, b] <:+: front ∨ front.getLast? = some a ∨ [a, b] <:+: back := by
  induction front with
  | nil => simp [pair_infix_cons_iff, Ne.symm differ]
  | cons c cs ih =>
      rw [List.cons_append, pair_infix_cons_iff, pair_infix_cons_iff, ih]
      cases cs with
      | nil => simp
      | cons d ds => simp [List.getLast?_cons_cons, or_assoc]

/-- Pieces are joined by the second of two different characters. Both occur where a piece other than
the last one ends with the first. -/
theorem pair_infix_intercalate_iff (differ : a ≠ b) {pieces : List (List Char)}
    (plain : ∀ piece ∈ pieces, b ∉ piece) :
    [a, b] <:+: [b].intercalate pieces ↔ ∃ piece ∈ pieces.dropLast, piece.getLast? = some a := by
  induction pieces with
  | nil => simp
  | cons first rest ih =>
      obtain ⟨firstPlain, restPlain⟩ := List.forall_mem_cons.mp plain
      have absent : ¬[a, b] <:+: first := fun occurs => firstPlain (occurs.subset (by simp))
      cases rest with
      | nil => simpa using absent
      | cons second others =>
          rw [List.intercalate_cons_cons, List.append_assoc, List.singleton_append,
            pair_infix_append_cons_iff differ, ih restPlain, List.dropLast_cons_cons]
          simp [absent]

/-- Two characters stand side by side when a piece before the second ends with the first. -/
theorem pair_infix_iff_exists_splitOn (differ : a ≠ b) (text : List Char) :
    [a, b] <:+: text ↔ ∃ piece ∈ (text.splitOn b).dropLast, piece.getLast? = some a := by
  have joined : [b].intercalate (text.splitOn b) = text := List.intercalate_splitOn b
  rw [← pair_infix_intercalate_iff differ fun _ => not_mem_of_mem_splitOn, joined]

/-- The last piece of a text ends as the text does. -/
theorem exists_splitOn_getLast?_iff (differ : a ≠ b) (text : List Char) :
    (∃ piece ∈ text.splitOn b, piece.getLast? = some a) ↔
      [a, b] <:+: text ∨ text.getLast? = some a := by
  have pieces : (text ++ [b]).splitOn b = text.splitOn b ++ [[]] := by
    rw [List.splitOn_append_cons_self, List.splitOn_nil]
  have across := pair_infix_append_cons_iff differ text []
  rw [pair_infix_iff_exists_splitOn differ (text ++ [b]), pieces, List.dropLast_concat] at across
  simpa using across

end Pair

namespace Text

/-- The pieces of a text between the occurrences of a separator. -/
def splitAt (separator : Char) (text : String) : List String :=
  (text.toList.splitOn separator).map String.ofList

/-- The lines of a text. -/
def lines (text : String) : List String := splitAt '\n' text

variable {separator : Char} {text : String}

/-- Texts are split as their characters are. -/
@[simp] theorem map_toList_splitAt (separator : Char) (text : String) :
    (splitAt separator text).map String.toList = text.toList.splitOn separator := by
  simp [splitAt, Function.comp_def]

/-- Every text has a piece. -/
theorem splitAt_ne_nil (separator : Char) (text : String) : splitAt separator text ≠ [] := by
  unfold splitAt
  rw [ne_eq, List.map_eq_nil_iff]
  exact List.splitOn_ne_nil separator text.toList

/-- No piece holds the separator. -/
theorem not_mem_of_mem_splitAt {piece : String} (member : piece ∈ splitAt separator text) :
    separator ∉ piece.toList := by
  obtain ⟨chars, listed, rfl⟩ := List.mem_map.mp member
  rw [String.toList_ofList]
  exact not_mem_of_mem_splitOn listed

/-- A character other than the separator stands in one of the pieces. -/
theorem mem_iff_mem_splitAt {c : Char} (plain : c ≠ separator) :
    c ∈ text.toList ↔ ∃ piece ∈ splitAt separator text, c ∈ piece.toList := by
  have absent : separator ∉ [c] := fun member => plain (List.mem_singleton.mp member).symm
  rw [← List.singleton_infix_iff, infix_iff_exists_splitOn absent]
  simp [splitAt, List.singleton_infix_iff]

/-- A text with a separator in it has the pieces of both sides. -/
theorem splitAt_append (separator : Char) (front back : String) :
    splitAt separator (front ++ String.singleton separator ++ back) =
      splitAt separator front ++ splitAt separator back := by
  have chars : (front ++ String.singleton separator ++ back).toList =
      front.toList ++ separator :: back.toList := by
    simp [String.toList_append]
  unfold splitAt
  rw [chars, List.splitOn_append_cons_self, List.map_append]

/-- A text without the separator is its only piece. -/
theorem splitAt_of_not_mem (plain : separator ∉ text.toList) : splitAt separator text = [text] := by
  unfold splitAt
  rw [List.splitOn_eq_singleton plain, List.map_singleton, String.ofList_toList]

/-- Pieces without the separator are those of the text that they are joined to. -/
theorem splitAt_intercalate {pieces : List String} (nonempty : pieces ≠ [])
    (plain : ∀ piece ∈ pieces, separator ∉ piece.toList) :
    splitAt separator ((String.singleton separator).intercalate pieces) = pieces := by
  unfold splitAt
  rw [String.toList_intercalate, String.toList_singleton, List.splitOn_intercalate, List.map_map]
  · simp
  · simpa using plain
  · simpa using nonempty

private theorem intercalate_splitAt (separator : Char) (text : String) :
    (String.singleton separator).intercalate (splitAt separator text) = text := by
  apply String.toList_injective
  rw [String.toList_intercalate, String.toList_singleton, map_toList_splitAt,
    List.intercalate_splitOn]

/-- The pieces of a text determine it. -/
theorem splitAt_inj (separator : Char) {a b : String}
    (same : splitAt separator a = splitAt separator b) : a = b := by
  rw [← intercalate_splitAt separator a, ← intercalate_splitAt separator b, same]

/-- The pieces of a text come first in those of the texts that go on with a separator. -/
theorem splitAt_prefix_iff {front : String} :
    splitAt separator front <+: splitAt separator text ↔
      text = front ∨ ∃ rest, text = front ++ String.singleton separator ++ rest := by
  constructor
  · rintro ⟨more, split⟩
    rcases eq_or_ne more [] with rfl | nonempty
    · rw [List.append_nil] at split
      exact Or.inl (splitAt_inj separator split.symm)
    · have plain : ∀ piece ∈ more, separator ∉ piece.toList := fun piece member =>
        not_mem_of_mem_splitAt (split ▸ List.mem_append_right _ member)
      refine Or.inr ⟨(String.singleton separator).intercalate more, splitAt_inj separator ?_⟩
      rw [splitAt_append, splitAt_intercalate nonempty plain, split]
  · rintro (rfl | ⟨rest, rfl⟩)
    · exact List.prefix_rfl
    · rw [splitAt_append]
      exact List.prefix_append _ _

/-- Lines are those of the text in which they follow each other. -/
theorem lines_intercalate {texts : List String} (nonempty : texts ≠ [])
    (single : ∀ text ∈ texts, '\n' ∉ text.toList) : lines ("\n".intercalate texts) = texts :=
  splitAt_intercalate nonempty single

end Text

end RouteClient
