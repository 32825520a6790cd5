import RouteClient.Code.Identifier
import RouteClient.Code.TemplateText

/-!
# Reading template literals

The target language reads the text behind an opening backtick as characters and substitutions, up to
the first backtick that no backslash escapes. `TemplateLiteral.readFrom` is its reader for literals
whose escapes denote the escaped character and whose substitutions hold no braces. Escaped text is
read as the characters it was made from, but for its line ends (`readFrom_escapeTemplate_lineEnds`),
and the closing backtick of a literal is the first one outside escaped text
(`behindClosing?_escapeTemplate`).
-/

namespace RouteClient

/-- A part of a template literal: a character that stands for itself, or a substituted
expression. -/
inductive LiteralPart where
  | char (c : Char)
  | substitution (expression : List Char)
  deriving DecidableEq

namespace TemplateLiteral

/-- Whether a character behind a backslash denotes itself. The other characters open an escape for a
control character or a code point, or are a line end that is left out. -/
def escapesToItself (c : Char) : Bool :=
  !(c.isDigit ||
    ['b', 'f', 'n', 'r', 't', 'v', 'x', 'u', '\n', '\r', '\u2028', '\u2029'].contains c)

/-- Reads a template literal from behind its opening backtick to its end. `inside` is the
substituted expression whose middle has been reached, in reverse. A raw carriage return, with a line
feed behind it or not, denotes a line feed. -/
def readFrom : (inside : Option (List Char)) → List Char → Option (List LiteralPart)
  | _, [] => none
  | some expression, c :: cs =>
    if c = '\x7d' then (readFrom none cs).map (.substitution expression.reverse :: ·)
    else readFrom (some (c :: expression)) cs
  | none, [c] => if c = '\x60' then some [] else none
  | none, c :: d :: cs =>
    if c = '\x60' then none
    else if c = '\\' then
      if escapesToItself d then (readFrom none cs).map (.char d :: ·) else none
    else if c = '$' ∧ d = '\x7b' then readFrom (some []) cs
    else if c = '\r' then
      if d = '\n' then (readFrom none cs).map (.char '\n' :: ·)
      else (readFrom none (d :: cs)).map (.char '\n' :: ·)
    else (readFrom none (d :: cs)).map (.char c :: ·)

/-- The text behind the first backtick that no backslash escapes. -/
def behindClosing? : List Char → Option (List Char)
  | [] => none
  | [c] => if c = '\x60' then some [] else none
  | c :: d :: cs =>
    if c = '\x60' then some (d :: cs)
    else if c = '\\' then behindClosing? cs
    else behindClosing? (d :: cs)

/-- Whether a text is one template literal from its first character, a backtick, to its last one,
the next backtick that no backslash escapes. -/
def IsComplete (text : List Char) : Prop :=
  ∃ body, text = '\x60' :: body ∧ behindClosing? body = some []

/-- A character that is neither a backtick nor a backslash does not close a literal. -/
theorem behindClosing?_cons {c : Char} (notTick : c ≠ '\x60') (notSlash : c ≠ '\\')
    (cs : List Char) : behindClosing? (c :: cs) = behindClosing? cs := by
  cases cs with
  | nil => simp only [behindClosing?, notTick, ↓reduceIte]
  | cons d ds => simp only [behindClosing?, notTick, notSlash, ↓reduceIte]

/-- The end of a literal is looked for behind text that has neither ticks nor backslashes. -/
theorem behindClosing?_append (plain rest : List Char) (noTick : '\x60' ∉ plain)
    (noSlash : '\\' ∉ plain) : behindClosing? (plain ++ rest) = behindClosing? rest := by
  induction plain with
  | nil => rfl
  | cons c cs ih =>
      simp only [List.mem_cons, not_or] at noTick noSlash
      rw [List.cons_append, behindClosing?_cons (Ne.symm noTick.1) (Ne.symm noSlash.1)]
      exact ih noTick.2 noSlash.2

/-- Escaped text does not close a literal. -/
theorem behindClosing?_escapeTemplate (text rest : List Char) :
    behindClosing? (Code.escapeTemplate text ++ rest) = behindClosing? rest := by
  fun_induction Code.escapeTemplate text with
  | case1 => rfl
  | case2 cs ih =>
      simp only [List.cons_append, behindClosing?, Char.reduceEq, ↓reduceIte]
      rw [behindClosing?_cons (by decide) (by decide)]
      exact ih
  | case3 c cs _ special ih =>
      simp only [List.cons_append, behindClosing?, Char.reduceEq, ↓reduceIte]
      exact ih
  | case4 c cs _ plain ih =>
      simp only [Bool.or_eq_true, decide_eq_true_eq, not_or] at plain
      rw [List.cons_append, behindClosing?_cons plain.2 plain.1]
      exact ih

/-- The next character is escaped when it has a meaning of its own, and a dollar sign when it opens
a substitution together with the brace behind it. -/
theorem escapeTemplate_cons (c : Char) (cs : List Char) :
    Code.escapeTemplate (c :: cs) =
      if c = '\\' ∨ c = '\x60' ∨ c = '$' ∧ cs.head? = some '\x7b' then
        '\\' :: c :: Code.escapeTemplate cs
      else c :: Code.escapeTemplate cs := by
  by_cases opening : c = '$' ∧ cs.head? = some '\x7b'
  · obtain ⟨rfl, brace⟩ := opening
    obtain ⟨ds, rfl⟩ := List.head?_eq_some_iff.mp brace
    simp [Code.escapeTemplate]
  · have unopened (ds : List Char) (dollar : c = '$') (behind : cs = '\x7b' :: ds) : False :=
      opening ⟨dollar, behind ▸ rfl⟩
    rw [Code.escapeTemplate.eq_3 c cs unopened]
    simp [opening]

/-- Escaped text begins with a backslash or with the first character of the text. -/
theorem head?_escapeTemplate_ne {d : Char} (plain : d ≠ '\\') {text rest : List Char}
    (text_ne : text.head? ≠ some d) (rest_ne : text = [] → rest.head? ≠ some d) :
    (Code.escapeTemplate text ++ rest).head? ≠ some d := by
  cases text with
  | nil => exact rest_ne rfl
  | cons c cs =>
      rw [escapeTemplate_cons]
      split
      · simpa using Ne.symm plain
      · simpa using text_ne

/-- An ordinary character stands for itself, as long as it does not open a substitution together
with the next one. -/
theorem readFrom_char {c : Char} (notTick : c ≠ '\x60') (notSlash : c ≠ '\\') (notReturn : c ≠ '\r')
    (rest : List Char) (closed : c = '$' → rest.head? ≠ some '\x7b') :
    readFrom none (c :: rest) = (readFrom none rest).map (.char c :: ·) := by
  cases rest with
  | nil => simp only [readFrom, notTick, ↓reduceIte, Option.map_none]
  | cons d ds =>
      have noOpening : ¬(c = '$' ∧ d = '\x7b') := fun opening =>
        closed opening.1 (congrArg some opening.2)
      simp only [readFrom, notTick, notSlash, notReturn, noOpening, ↓reduceIte]

private theorem readFrom_escaped {c : Char} (itself : escapesToItself c = true) (rest : List Char) :
    readFrom none ('\\' :: c :: rest) = (readFrom none rest).map (.char c :: ·) := by
  simp only [readFrom, Char.reduceEq, itself, ↓reduceIte]

/-- The characters that a text denotes in a literal. A carriage return, with a line feed behind it
or not, denotes a line feed there. -/
def lineEndsRead : List Char → List Char
  | [] => []
  | '\r' :: '\n' :: cs => '\n' :: lineEndsRead cs
  | c :: cs => (if c = '\r' then '\n' else c) :: lineEndsRead cs

/-- A carriage return that no line feed follows denotes a line feed. -/
theorem readFrom_return {rest : List Char} (single : rest.head? ≠ some '\n') :
    readFrom none ('\r' :: rest) = (readFrom none rest).map (.char '\n' :: ·) := by
  cases rest with
  | nil => rfl
  | cons d ds =>
      have noFeed : d ≠ '\n' := fun feed => single (congrArg some feed)
      simp [readFrom, noFeed]

/-- The next character of escaped text is read, unless it is a carriage return with a line feed
behind it. -/
theorem readFrom_escapeTemplate_cons {c : Char} {cs rest : List Char}
    (closed : c = '$' → cs = [] → rest.head? ≠ some '\x7b')
    (single : c = '\r' → (Code.escapeTemplate cs ++ rest).head? ≠ some '\n') :
    readFrom none (Code.escapeTemplate (c :: cs) ++ rest) =
      (readFrom none (Code.escapeTemplate cs ++ rest)).map
        (.char (if c = '\r' then '\n' else c) :: ·) := by
  rw [escapeTemplate_cons]
  split
  next special =>
    have itself : escapesToItself c = true ∧ c ≠ '\r' := by
      rcases special with rfl | rfl | ⟨rfl, _⟩ <;> decide
    rw [List.cons_append, List.cons_append, readFrom_escaped itself.1, if_neg itself.2]
  next plain =>
    simp only [not_or, not_and] at plain
    rw [List.cons_append]
    by_cases isReturn : c = '\r'
    · rw [if_pos isReturn, isReturn, readFrom_return (single isReturn)]
    · rw [if_neg isReturn, readFrom_char plain.2.1 plain.1 isReturn]
      exact fun dollar => head?_escapeTemplate_ne (by decide) (plain.2.2 dollar) (closed dollar)

/-- **Escaped text is read as itself, but for its line ends.** Escaped text is read as the
characters that it denotes, whatever follows, as long as that does not go on with a substitution or
a line end. -/
theorem readFrom_escapeTemplate_lineEnds (text rest : List Char)
    (closed : rest.head? ≠ some '\x7b')
    (ended : text.getLast? = some '\r' → rest.head? ≠ some '\n') :
    readFrom none (Code.escapeTemplate text ++ rest) =
      (readFrom none rest).map ((lineEndsRead text).map .char ++ ·) := by
  fun_induction lineEndsRead text with
  | case1 => simp [Code.escapeTemplate]
  | case2 cs ih =>
      have behind (last : cs.getLast? = some '\r') : rest.head? ≠ some '\n' :=
        ended (by simp [List.getLast?_cons, last])
      have paired : readFrom none ('\r' :: '\n' :: (Code.escapeTemplate cs ++ rest)) =
          (readFrom none (Code.escapeTemplate cs ++ rest)).map (.char '\n' :: ·) := by
        simp [readFrom]
      have kept : Code.escapeTemplate ('\r' :: '\n' :: cs) =
          '\r' :: '\n' :: Code.escapeTemplate cs := by
        simp [escapeTemplate_cons]
      rw [kept, List.cons_append, List.cons_append, paired, ih behind]
      simp [Function.comp_def]
  | case3 c cs unpaired ih =>
      have behind (last : cs.getLast? = some '\r') : rest.head? ≠ some '\n' :=
        ended (by simp [List.getLast?_cons, last])
      have single : c = '\r' → (Code.escapeTemplate cs ++ rest).head? ≠ some '\n' := by
        intro isReturn
        apply head?_escapeTemplate_ne (by decide)
        · intro feed
          obtain ⟨ds, rfl⟩ := List.head?_eq_some_iff.mp feed
          exact unpaired ds isReturn rfl
        · rintro rfl
          exact ended (congrArg some isReturn)
      rw [readFrom_escapeTemplate_cons (fun _ _ => closed) single, ih behind]
      simp [Function.comp_def]

/-- A text without carriage returns is read as it stands. -/
theorem lineEndsRead_of_not_mem {text : List Char} (noReturn : '\r' ∉ text) :
    lineEndsRead text = text := by
  fun_induction lineEndsRead text with
  | case1 => rfl
  | case2 cs ih => exact absurd List.mem_cons_self noReturn
  | case3 c cs unpaired ih =>
      simp only [List.mem_cons, not_or] at noReturn
      rw [if_neg (Ne.symm noReturn.1), ih noReturn.2]

/-- Text without carriage returns, escaped and followed by anything but an opening brace, is read as
its own characters. -/
theorem readFrom_escapeTemplate (text rest : List Char) (noReturn : '\r' ∉ text)
    (closed : rest.head? ≠ some '\x7b') :
    readFrom none (Code.escapeTemplate text ++ rest) =
      (readFrom none rest).map (text.map .char ++ ·) := by
  have ended (last : text.getLast? = some '\r') : rest.head? ≠ some '\n' :=
    absurd (List.mem_of_getLast? last) noReturn
  rw [readFrom_escapeTemplate_lineEnds text rest closed ended, lineEndsRead_of_not_mem noReturn]

private theorem readFrom_inside (read expression rest : List Char) (free : '\x7d' ∉ expression) :
    readFrom (some read) (expression ++ '\x7d' :: rest) =
      (readFrom none rest).map (.substitution (read.reverse ++ expression) :: ·) := by
  induction expression generalizing read with
  | nil => simp [readFrom]
  | cons c cs ih =>
      simp only [List.mem_cons, not_or] at free
      rw [List.cons_append, readFrom.eq_2, if_neg (Ne.symm free.1), ih (c :: read) free.2]
      simp

/-- A substitution is read as its expression. -/
theorem readFrom_substitution (expression rest : List Char) (free : '\x7d' ∉ expression) :
    readFrom none ('$' :: '\x7b' :: (expression ++ '\x7d' :: rest)) =
      (readFrom none rest).map (.substitution expression :: ·) := by
  rw [readFrom.eq_4]
  simp only [Char.reduceEq, and_self, ↓reduceIte]
  exact readFrom_inside [] expression rest free

end TemplateLiteral

end RouteClient
