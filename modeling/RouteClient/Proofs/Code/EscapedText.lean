import RouteClient.Proofs.Code.LiteralReading
import RouteClient.Proofs.Text.Replacement

/-!
# Escaped text in template literals

Text is escaped by three replacements one after the other. Between backticks, escaped text holds no
backtick and no opening of a substitution that no backslash escapes, and its cooked value is the
text, except that the target language makes a line feed of each carriage return, with the line feed
behind it if there is one. `TemplateLiteral.cooked?_quoted_iff` says for which texts nothing is
changed.
-/

namespace RouteClient

namespace Code

open Text (IsReplaced Replaces)

/-- A text with each backslash doubled. -/
def doubleSlashes (text : List Char) : List Char :=
  text.flatMap fun c => if c = '\\' then ['\\', '\\'] else [c]

/-- A text with each backslash doubled and a backslash before each backtick. -/
def escapeTicks (text : List Char) : List Char :=
  text.flatMap fun c => if c = '\\' ∨ c = '\x60' then ['\\', c] else [c]

private theorem replaces_doubleSlashes (text : List Char) :
    Replaces ['\\'] ['\\', '\\'] text (doubleSlashes text) := by
  induction text with
  | nil => exact .nil (List.cons_ne_nil _ _)
  | cons c cs ih =>
      rw [doubleSlashes, List.flatMap_cons]
      by_cases slash : c = '\\'
      · rw [if_pos slash, slash]
        exact ih.append (List.cons_ne_nil _ _)
      · rw [if_neg slash]
        exact ih.cons_other slash

private theorem replaces_escapeTicks (text : List Char) :
    Replaces ['\x60'] ['\\', '\x60'] (doubleSlashes text) (escapeTicks text) := by
  induction text with
  | nil => exact .nil (List.cons_ne_nil _ _)
  | cons c cs ih =>
      rw [doubleSlashes, escapeTicks, List.flatMap_cons, List.flatMap_cons]
      by_cases slash : c = '\\'
      · rw [if_pos slash, if_pos (Or.inl slash), slash]
        exact (ih.cons_other (by decide)).cons_other (by decide)
      · rw [if_neg slash]
        by_cases tick : c = '\x60'
        · rw [if_pos (Or.inr tick), tick]
          exact ih.append (List.cons_ne_nil _ _)
        · rw [if_neg (not_or.mpr ⟨slash, tick⟩)]
          exact ih.cons_other tick

private theorem head?_escapeTicks_ne {d : Char} (plain : d ≠ '\\') {text : List Char}
    (text_ne : text.head? ≠ some d) : (escapeTicks text).head? ≠ some d := by
  cases text with
  | nil => exact text_ne
  | cons c cs =>
      rw [escapeTicks, List.flatMap_cons]
      split
      · simpa using Ne.symm plain
      · simpa using text_ne

/-- Escaping replaces what would begin a substitution, behind the other replacements. -/
theorem replaces_escapeTemplate (text : List Char) :
    Replaces ['$', '\x7b'] ['\\', '$', '\x7b'] (escapeTicks text) (escapeTemplate text) := by
  fun_induction escapeTemplate text with
  | case1 => exact .nil (List.cons_ne_nil _ _)
  | case2 cs ih => exact ih.append (List.cons_ne_nil _ _)
  | case3 c cs _ special ih =>
      simp only [Bool.or_eq_true, decide_eq_true_eq] at special
      have noDollar : c ≠ '$' := by
        rcases special with rfl | rfl <;> decide
      rw [escapeTicks, List.flatMap_cons, if_pos special]
      refine (ih.cons_unpaired fun _ dollar _ => noDollar dollar).cons_unpaired fun _ dollar _ => ?_
      exact absurd dollar (by decide)
  | case4 c cs unopened plain ih =>
      simp only [Bool.or_eq_true, decide_eq_true_eq] at plain
      rw [escapeTicks, List.flatMap_cons, if_neg plain]
      refine ih.cons_unpaired fun rest dollar opening => ?_
      have noBrace : cs.head? ≠ some '\x7b' := by
        intro brace
        obtain ⟨ds, rfl⟩ := List.head?_eq_some_iff.mp brace
        exact unopened ds dollar rfl
      exact head?_escapeTicks_ne (by decide) noBrace (congrArg List.head? opening)

/-- Escaping is done by three replacements: of backslashes, of backticks and of what opens a
substitution. -/
theorem escapeTemplateText_isReplaced (text : String) : ∃ slashes ticks,
    IsReplaced "\\" "\\\\" text slashes ∧ IsReplaced "\x60" "\\\x60" slashes ticks ∧
      IsReplaced "$\x7b" "\\$\x7b" ticks (escapeTemplateText text) := by
  have slashes := String.toList_ofList (l := doubleSlashes text.toList)
  have ticks := String.toList_ofList (l := escapeTicks text.toList)
  refine ⟨String.ofList (doubleSlashes text.toList), String.ofList (escapeTicks text.toList),
    ?_, ?_, ?_⟩
  · exact (replaces_doubleSlashes text.toList).isReplaced_char rfl
  · apply Replaces.isReplaced_char (a := '\x60') rfl
    rw [slashes]
    exact replaces_escapeTicks text.toList
  · apply Replaces.isReplaced (a := '$') (b := '\x7b') rfl (by decide)
    rw [ticks]
    exact replaces_escapeTemplate text.toList

end Code

/-- The character that a part of a literal stands for. A substitution stands for none. -/
def LiteralPart.char? : LiteralPart → Option Char
  | .char c => some c
  | .substitution _ => none

namespace TemplateLiteral

/-- A pattern occurs in the inside of a template literal at a place that no backslash escapes. -/
inductive OccursUnescaped (pattern : List Char) : List Char → Prop where
  | here {text : List Char} (begins : pattern <+: text) : OccursUnescaped pattern text
  | behindEscape {c : Char} {text : List Char} (later : OccursUnescaped pattern text) :
      OccursUnescaped pattern ('\\' :: c :: text)
  | behindChar {c : Char} {text : List Char} (plain : c ≠ '\\')
      (later : OccursUnescaped pattern text) : OccursUnescaped pattern (c :: text)

section Occurrences

variable {a c : Char} {more text : List Char}

private theorem occursUnescaped_escape (visible : a ≠ '\\') :
    OccursUnescaped (a :: more) ('\\' :: c :: text) ↔ OccursUnescaped (a :: more) text := by
  refine ⟨fun occurs => ?_, .behindEscape⟩
  cases occurs with
  | here begins => exact absurd (List.cons_prefix_cons.mp begins).1 visible
  | behindEscape later => exact later
  | behindChar plain _ => exact absurd rfl plain

private theorem occursUnescaped_cons (plain : c ≠ '\\') :
    OccursUnescaped (a :: more) (c :: text) ↔
      a :: more <+: c :: text ∨ OccursUnescaped (a :: more) text := by
  constructor
  · intro occurs
    cases occurs with
    | here begins => exact Or.inl begins
    | behindEscape _ => exact absurd rfl plain
    | behindChar _ later => exact Or.inr later
  · rintro (begins | later)
    · exact .here begins
    · exact .behindChar plain later

/-- Escaped text does not hold a pattern that only begins where a backslash is put before it. -/
theorem not_occursUnescaped_escapeTemplate (visible : a ≠ '\\')
    (guarded : ∀ c cs, a :: more <+: c :: Code.escapeTemplate cs →
      c = '\\' ∨ c = '\x60' ∨ c = '$' ∧ cs.head? = some '\x7b') (text : List Char) :
    ¬OccursUnescaped (a :: more) (Code.escapeTemplate text) := by
  induction text with
  | nil =>
      intro occurs
      cases occurs with
      | here begins => exact absurd (List.prefix_nil.mp begins) (List.cons_ne_nil a more)
  | cons c cs ih =>
      rw [escapeTemplate_cons]
      split
      next => rwa [occursUnescaped_escape visible]
      next plain =>
        rw [occursUnescaped_cons (not_or.mp plain).1, not_or]
        exact ⟨mt (guarded c cs) plain, ih⟩

private theorem not_occursUnescaped_tick (text : List Char) :
    ¬OccursUnescaped ['\x60'] (Code.escapeTemplate text) := by
  refine not_occursUnescaped_escapeTemplate (by decide) (fun c cs begins => ?_) text
  exact Or.inr (Or.inl (List.cons_prefix_cons.mp begins).1.symm)

private theorem not_occursUnescaped_opening (text : List Char) :
    ¬OccursUnescaped ['$', '\x7b'] (Code.escapeTemplate text) := by
  refine not_occursUnescaped_escapeTemplate (by decide) (fun c cs begins => ?_) text
  obtain ⟨dollar, rest, behind⟩ := List.cons_prefix_cons.mp begins
  refine Or.inr (Or.inr ⟨dollar.symm, ?_⟩)
  by_contra noBrace
  have escaped : (Code.escapeTemplate cs ++ []).head? ≠ some '\x7b' :=
    head?_escapeTemplate_ne (by decide) noBrace (by simp)
  rw [List.append_nil, ← behind] at escaped
  exact escaped rfl

end Occurrences

/-- The cooked value of a template literal that has no substitutions. -/
def cooked? : List Char → Option (List Char)
  | [] => none
  | c :: body => if c = '\x60' then (readFrom none body).bind (·.mapM LiteralPart.char?) else none

/-- A text escaped between backticks. -/
def quoted (text : String) : List Char :=
  '\x60' :: ((Code.escapeTemplateText text).toList ++ ['\x60'])

/-- An escaped text between ticks is one complete template literal. -/
theorem isComplete_quoted (text : String) : IsComplete (quoted text) := by
  refine ⟨_, rfl, ?_⟩
  rw [Code.escapeTemplateText, String.toList_ofList, behindClosing?_escapeTemplate]
  rfl

private theorem mapM_char? (text : List Char) :
    (text.map LiteralPart.char).mapM LiteralPart.char? = some text := by
  induction text with
  | nil => rfl
  | cons c cs ih => simp [List.mapM_cons, LiteralPart.char?, ih]

/-- The cooked value of an escaped text is the text with its line ends read. -/
theorem cooked?_quoted (text : String) :
    cooked? (quoted text) = some (lineEndsRead text.toList) := by
  have ending : readFrom none ['\x60'] = some [] := by decide
  rw [quoted, Code.escapeTemplateText, String.toList_ofList, cooked?, if_pos rfl,
    readFrom_escapeTemplate_lineEnds _ _ (by decide) (fun _ => by decide), ending, Option.map_some,
    Option.bind_some, List.append_nil, mapM_char?]

private theorem return_not_mem_lineEndsRead (text : List Char) : '\r' ∉ lineEndsRead text := by
  fun_induction lineEndsRead text with
  | case1 => exact List.not_mem_nil
  | case2 cs ih => simpa using ih
  | case3 c cs unpaired ih =>
      have differs : '\r' ≠ if c = '\r' then '\n' else c := by
        split
        · decide
        · exact Ne.symm ‹_›
      exact List.not_mem_cons_of_ne_of_not_mem differs ih

/-- **Which texts a template literal keeps.** An escaped text, made by three replacements, holds no
backtick and no opening of a substitution that is not escaped, so that it is one literal between
backticks. Its cooked value is the text with a line feed in place of each carriage return and of
each carriage return with a line feed behind it. This is the text itself exactly when it holds no
carriage return. -/
theorem cooked?_quoted_iff (text : String) :
    (∃ slashes ticks, Text.IsReplaced "\\" "\\\\" text slashes ∧
      Text.IsReplaced "\x60" "\\\x60" slashes ticks ∧
      Text.IsReplaced "$\x7b" "\\$\x7b" ticks (Code.escapeTemplateText text)) ∧
    ¬OccursUnescaped ['\x60'] (Code.escapeTemplateText text).toList ∧
    ¬OccursUnescaped ['$', '\x7b'] (Code.escapeTemplateText text).toList ∧
    IsComplete (quoted text) ∧
    cooked? (quoted text) = some (lineEndsRead text.toList) ∧
    (cooked? (quoted text) = some text.toList ↔ '\r' ∉ text.toList) := by
  refine ⟨Code.escapeTemplateText_isReplaced text, ?_, ?_, isComplete_quoted text,
    cooked?_quoted text, ?_⟩
  · rw [Code.escapeTemplateText, String.toList_ofList]
    exact not_occursUnescaped_tick text.toList
  · rw [Code.escapeTemplateText, String.toList_ofList]
    exact not_occursUnescaped_opening text.toList
  · rw [cooked?_quoted, Option.some.injEq]
    constructor
    · intro kept
      exact kept ▸ return_not_mem_lineEndsRead text.toList
    · exact lineEndsRead_of_not_mem

/-- A carriage return becomes a line feed. -/
theorem cooked?_quoted_return : cooked? (quoted "a\rb") = some "a\nb".toList ∧
    cooked? (quoted "a\rb") ≠ some "a\rb".toList := by
  decide

end TemplateLiteral

end RouteClient
