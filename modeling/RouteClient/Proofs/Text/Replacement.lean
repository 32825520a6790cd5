import Mathlib.Logic.Relation
import RouteClient.Proofs.Text.Splitting

/-!
# Replacement of a pattern

A pattern is replaced in a text wherever it occurs: the pieces of the text between its occurrences
stay, and the replacement comes between them (`Text.Replaces`). A single character and a pattern of
two different characters cannot overlap themselves, so that the result is determined
(`Text.IsReplaced`). Such a replacement is one of single occurrences one after the other
(`Text.Replaces.stepwise`), but it may leave occurrences of the pattern, which it takes further
steps to remove (`Text.ReplacesUntilFree`).
-/

namespace RouteClient

namespace Text

variable {pattern replacement text result other : List Char} {a b c : Char}

/-- A text with a pattern replaced wherever it occurs: pieces that do not hold the pattern, joined
by it in the text and by the replacement in the result. -/
def Replaces (pattern replacement text result : List Char) : Prop :=
  ∃ first rest, (∀ piece ∈ first :: rest, ¬pattern <:+: piece) ∧
    pattern.intercalate (first :: rest) = text ∧ replacement.intercalate (first :: rest) = result

namespace Replaces

/-- Nothing is replaced in the empty text. -/
theorem nil (nonempty : pattern ≠ []) : Replaces pattern replacement [] [] :=
  ⟨[], [], by simpa using nonempty, by simp, by simp⟩

/-- A character at which the pattern does not begin stays. -/
theorem cons (replaced : Replaces pattern replacement text result)
    (starts : ¬pattern <+: c :: text) : Replaces pattern replacement (c :: text) (c :: result) := by
  obtain ⟨first, rest, free, rfl, rfl⟩ := replaced
  obtain ⟨firstFree, restFree⟩ := List.forall_mem_cons.mp free
  refine ⟨c :: first, rest, List.forall_mem_cons.mpr ⟨?_, restFree⟩, intercalate_cons_cons_head ..,
    intercalate_cons_cons_head ..⟩
  intro occurs
  rcases List.infix_cons_iff.mp occurs with begins | inside
  · refine starts (begins.trans (List.cons_prefix_cons.mpr ⟨rfl, ?_⟩))
    cases rest <;> simp
  · exact firstFree inside

/-- A character that is not the first of two stays. -/
theorem cons_unpaired (replaced : Replaces [a, b] replacement text result)
    (unpaired : ∀ rest, c = a → text = b :: rest → False) :
    Replaces [a, b] replacement (c :: text) (c :: result) := by
  refine replaced.cons fun begins => ?_
  obtain ⟨rest, split⟩ := begins
  obtain ⟨rfl, rfl⟩ := List.cons.inj split
  exact unpaired rest rfl rfl

/-- The pattern at the beginning of a text gives way to the replacement. -/
theorem append (replaced : Replaces pattern replacement text result) (nonempty : pattern ≠ []) :
    Replaces pattern replacement (pattern ++ text) (replacement ++ result) := by
  obtain ⟨first, rest, free, rfl, rfl⟩ := replaced
  refine ⟨[], first :: rest, List.forall_mem_cons.mpr ⟨?_, free⟩, by simp, by simp⟩
  simpa using nonempty

/-- A piece without the pattern ends before the first occurrence of the pattern behind it. -/
theorem append_eq_nil (differ : a ≠ b) {front more back rest : List Char}
    (free : ¬[a, b] <:+: front ++ more) (same : a :: b :: back = more ++ a :: b :: rest) :
    more = [] := by
  rcases more with _ | ⟨x, _ | ⟨y, more⟩⟩
  · rfl
  · simp only [List.cons_append, List.nil_append, List.cons.injEq] at same
    exact absurd same.2.1.symm differ
  · simp only [List.cons_append, List.cons.injEq] at same
    obtain ⟨rfl, rfl, _⟩ := same
    exact absurd ⟨front, more, by simp⟩ free

private theorem front_eq (differ : a ≠ b) {front front' back back' : List Char}
    (free : ¬[a, b] <:+: front) (free' : ¬[a, b] <:+: front')
    (same : front ++ a :: b :: back = front' ++ a :: b :: back') :
    front = front' ∧ back = back' := by
  rcases List.append_eq_append_iff.mp same with ⟨more, rfl, ahead⟩ | ⟨more, rfl, ahead⟩
  · obtain rfl := append_eq_nil differ free' ahead
    simpa using ahead
  · obtain rfl := append_eq_nil differ free ahead
    simpa [eq_comm] using ahead

private theorem pieces_eq (differ : a ≠ b) {first first' : List Char}
    {rest rest' : List (List Char)} (free : ∀ piece ∈ first :: rest, ¬[a, b] <:+: piece)
    (free' : ∀ piece ∈ first' :: rest', ¬[a, b] <:+: piece)
    (same : [a, b].intercalate (first :: rest) = [a, b].intercalate (first' :: rest')) :
    first :: rest = first' :: rest' := by
  induction rest generalizing first first' rest' with
  | nil =>
      cases rest' with
      | nil => simpa using same
      | cons second' others' =>
          rw [List.intercalate_singleton, List.intercalate_cons_cons] at same
          exact absurd ⟨first', _, same.symm⟩ (free first List.mem_cons_self)
  | cons second others ih =>
      obtain ⟨firstFree, restFree⟩ := List.forall_mem_cons.mp free
      obtain ⟨firstFree', restFree'⟩ := List.forall_mem_cons.mp free'
      cases rest' with
      | nil =>
          rw [List.intercalate_singleton, List.intercalate_cons_cons] at same
          exact absurd ⟨first, _, same⟩ firstFree'
      | cons second' others' =>
          simp only [List.intercalate_cons_cons, List.append_assoc, List.cons_append,
            List.nil_append] at same
          obtain ⟨rfl, behind⟩ := front_eq differ firstFree firstFree' same
          rw [ih restFree restFree' behind]

/-- Replacing a pattern of two different characters has one result. -/
theorem unique (differ : a ≠ b) (replaced : Replaces [a, b] replacement text result)
    (replaced' : Replaces [a, b] replacement text other) : result = other := by
  obtain ⟨first, rest, free, rfl, rfl⟩ := replaced
  obtain ⟨first', rest', free', same, rfl⟩ := replaced'
  rw [pieces_eq differ free free' same.symm]

/-- A character that is not the pattern stays. -/
theorem cons_other (replaced : Replaces [a] replacement text result) (differ : c ≠ a) :
    Replaces [a] replacement (c :: text) (c :: result) :=
  replaced.cons fun begins => differ (List.cons_prefix_cons.mp begins).1.symm

/-- Replacing a single character has one result, since its pieces are those of the split text. -/
theorem unique_char (replaced : Replaces [a] replacement text result)
    (replaced' : Replaces [a] replacement text other) : result = other := by
  have pieces {out : List Char} (found : Replaces [a] replacement text out) :
      replacement.intercalate (text.splitOn a) = out := by
    obtain ⟨first, rest, free, rfl, rfl⟩ := found
    have plain : ∀ piece ∈ first :: rest, a ∉ piece := fun piece member =>
      mt (List.singleton_infix_iff a piece).mpr (free piece member)
    rw [List.splitOn_intercalate a plain (List.cons_ne_nil first rest)]
  rw [← pieces replaced, ← pieces replaced']

end Replaces

/-- A text with a pattern replaced wherever it occurs, when only one result is possible. -/
def IsReplaced (pattern replacement text result : String) : Prop :=
  ∀ other, Replaces pattern.toList replacement.toList text.toList other ↔ other = result.toList

section Only

variable {pattern replacement text : String} {result : List Char}

/-- A text has all its matches replaced when there is one way to replace them. -/
theorem isReplaced_of_unique
    (replaced : Replaces pattern.toList replacement.toList text.toList result)
    (unique : ∀ other, Replaces pattern.toList replacement.toList text.toList other →
      other = result) :
    IsReplaced pattern replacement text (String.ofList result) := by
  intro other
  rw [String.toList_ofList]
  constructor
  · exact unique other
  · rintro rfl
    exact replaced

/-- What a pattern of two different characters is replaced by is the only possible result. -/
theorem Replaces.isReplaced (chars : pattern.toList = [a, b]) (differ : a ≠ b)
    (replaced : Replaces pattern.toList replacement.toList text.toList result) :
    IsReplaced pattern replacement text (String.ofList result) := by
  refine isReplaced_of_unique replaced ?_
  rw [chars] at replaced ⊢
  exact fun other found => found.unique differ replaced

/-- What a single character is replaced by is the only possible result. -/
theorem Replaces.isReplaced_char (chars : pattern.toList = [a])
    (replaced : Replaces pattern.toList replacement.toList text.toList result) :
    IsReplaced pattern replacement text (String.ofList result) := by
  refine isReplaced_of_unique replaced ?_
  rw [chars] at replaced ⊢
  exact fun other found => found.unique_char replaced

end Only

section Stepwise

open Relation

/-- A text with a pattern replaced in one place. -/
def ReplacesOnce (pattern replacement text result : List Char) : Prop :=
  ∃ front back, text = front ++ pattern ++ back ∧ result = front ++ replacement ++ back

/-- A text with a pattern replaced in one place after the other, until it does not occur any more. A
replacement may make the pattern occur anew. -/
def ReplacesUntilFree (pattern replacement text result : List Char) : Prop :=
  ReflTransGen (ReplacesOnce pattern replacement) text result ∧ ¬pattern <:+: result

private theorem ReplacesOnce.append_left (front : List Char)
    (once : ReplacesOnce pattern replacement text result) :
    ReplacesOnce pattern replacement (front ++ text) (front ++ result) := by
  obtain ⟨ahead, back, rfl, rfl⟩ := once
  exact ⟨front ++ ahead, back, by simp, by simp⟩

/-- Replacing one match after the other can be done behind other text. -/
theorem stepwise_append_left (front : List Char)
    (steps : ReflTransGen (ReplacesOnce pattern replacement) text result) :
    ReflTransGen (ReplacesOnce pattern replacement) (front ++ text) (front ++ result) :=
  steps.lift (front ++ ·) fun _ _ once => once.append_left front

/-- What each single replacement keeps is kept by all of them together. -/
theorem eq_of_stepwise {α : Type} {f : List Char → α}
    (kept : ∀ before after, ReplacesOnce pattern replacement before after → f before = f after)
    (steps : ReflTransGen (ReplacesOnce pattern replacement) text result) : f text = f result := by
  induction steps with
  | refl => rfl
  | tail _ once ih => exact ih.trans (kept _ _ once)

/-- A text keeps its last character when the pattern and the replacement end alike. -/
theorem getLast?_eq_of_stepwise (first : pattern.getLast? = some a)
    (second : replacement.getLast? = some a)
    (steps : ReflTransGen (ReplacesOnce pattern replacement) text result) :
    text.getLast? = result.getLast? := by
  refine eq_of_stepwise (fun before after once => ?_) steps
  obtain ⟨front, back, rfl, rfl⟩ := once
  simp only [List.getLast?_append, first, second, Option.some_or]

/-- A pattern is replaced wherever it occurs by replacing it in one place after the other. -/
theorem Replaces.stepwise (replaced : Replaces pattern replacement text result) :
    ReflTransGen (ReplacesOnce pattern replacement) text result := by
  obtain ⟨first, rest, free, rfl, rfl⟩ := replaced
  clear free
  induction rest generalizing first with
  | nil => simpa using ReflTransGen.refl
  | cons second others ih =>
      rw [List.intercalate_cons_cons, List.intercalate_cons_cons]
      exact .head ⟨first, _, rfl, rfl⟩ (stepwise_append_left _ (ih second))

end Stepwise

end Text

end RouteClient
