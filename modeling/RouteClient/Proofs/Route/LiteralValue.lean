import RouteClient.Proofs.Code.LiteralReading
import RouteClient.Route.PathLiteral

/-!
# The value of a path literal

Where a path builder runs, the names of parameters stand for strings, and the query parameter has a
serialised form. `TemplateLiteral.evaluate` is the value that a template literal has there.
A written path literal is one complete template literal (`PathLiteral.isComplete_text`), and its
value is its texts with the values of the substituted names between them
(`PathLiteral.evaluate_text`).
-/

namespace RouteClient

namespace Code

/-- A character that may open an identifier may also follow in one. -/
theorem continuesIdentifier_of_opens {c : Char} (opens : opensIdentifier c = true) :
    continuesIdentifier c = true := by
  simp only [opensIdentifier, continuesIdentifier, Char.isAlphanum, Bool.or_eq_true] at opens ⊢
  exact opens.imp_left (·.imp_left Or.inl)

/-- An identifier holds only characters that may follow in one. -/
theorem continuesIdentifier_of_mem {name : List Char} (shape : identifierShape name = true)
    {c : Char} (member : c ∈ name) : continuesIdentifier c = true := by
  cases name with
  | nil => exact absurd member List.not_mem_nil
  | cons first rest =>
      simp only [identifierShape, Bool.and_eq_true, List.all_eq_true] at shape
      rcases List.mem_cons.mp member with rfl | later
      · exact continuesIdentifier_of_opens shape.1
      · exact shape.2 c later

/-- A character that no identifier holds. -/
theorem not_mem_identifier {name : List Char} (shape : identifierShape name = true) {c : Char}
    (foreign : continuesIdentifier c = false) : c ∉ name := by
  intro member
  rw [continuesIdentifier_of_mem shape member] at foreign
  exact absurd foreign (by decide)

end Code

/-- What the names in a path builder stand for: the value of each parameter, and the form that each
parameter takes as a query string. -/
structure Scope where
  value : String → String
  serialized : String → String

namespace Scope

/-- What stands before the name in the expression of a query string. -/
def serializationHead : List Char := "new URLSearchParams(".toList

/-- What stands behind the name in the expression of a query string. -/
def serializationTail : List Char := " as any).toString()".toList

/-- The expression for the query string of a parameter. -/
def serialization (name : List Char) : List Char :=
  serializationHead ++ (name ++ serializationTail)

/-- The name in the expression of a query string. -/
def serializedName (expression : List Char) : List Char :=
  let behind := expression.drop serializationHead.length
  behind.take (behind.length - serializationTail.length)

/-- The value of a substituted expression, which is a name or the query string of a name. -/
def denote (scope : Scope) (expression : List Char) : Option (List Char) :=
  if Code.identifierShape expression then some (scope.value (String.ofList expression)).toList
  else
    let name := serializedName expression
    if Code.identifierShape name ∧ expression = serialization name then
      some (scope.serialized (String.ofList name)).toList
    else none

private theorem denote_name (scope : Scope) {name : String}
    (shape : Code.isIdentifier name = true) :
    scope.denote name.toList = some (scope.value name).toList := by
  rw [Code.isIdentifier] at shape
  rw [denote, if_pos shape, String.ofList_toList]

/-- A character that stands neither in a name nor around one does not stand in the expression of a
query string. -/
theorem not_mem_serialization {name : String} (shape : Code.isIdentifier name = true) {c : Char}
    (foreign : Code.continuesIdentifier c = false) (head : c ∉ serializationHead)
    (tail : c ∉ serializationTail) : c ∉ serialization name.toList := by
  simp only [serialization, List.mem_append, not_or]
  exact ⟨head, Code.not_mem_identifier shape foreign, tail⟩

private theorem serializedName_serialization (name : List Char) :
    serializedName (serialization name) = name := by
  simp only [serializedName, serialization, List.drop_left, List.length_append,
    Nat.add_sub_cancel, List.take_left]

private theorem denote_serialization (scope : Scope) {name : String}
    (shape : Code.isIdentifier name = true) :
    scope.denote (serialization name.toList) = some (scope.serialized name).toList := by
  have noIdentifier : Code.identifierShape (serialization name.toList) ≠ true := by
    intro identifier
    have blank : ' ' ∈ serializationHead := by decide
    exact Code.not_mem_identifier identifier (by decide) (List.mem_append_left _ blank)
  rw [Code.isIdentifier] at shape
  rw [denote, if_neg noIdentifier]
  simp only [serializedName_serialization, shape, and_self, ↓reduceIte, String.ofList_toList]

end Scope

namespace TemplateLiteral

/-- The value of the parts of a literal, unless one of them has none. -/
def denoteParts (scope : Scope) : List LiteralPart → Option (List Char)
  | [] => some []
  | .char c :: parts => (denoteParts scope parts).map (c :: ·)
  | .substitution expression :: parts =>
    (scope.denote expression).bind fun value => (denoteParts scope parts).map (value ++ ·)

/-- The value of a template literal. -/
def evaluate (scope : Scope) : List Char → Option (List Char)
  | [] => none
  | c :: body => if c = '\x60' then (readFrom none body).bind (denoteParts scope) else none

/-- Characters stand for themselves. -/
theorem denoteParts_chars (scope : Scope) (text : List Char) (parts : List LiteralPart) :
    denoteParts scope (text.map .char ++ parts) = (denoteParts scope parts).map (text ++ ·) := by
  induction text with
  | nil => simp
  | cons c cs ih =>
      rw [List.map_cons, List.cons_append, denoteParts, ih]
      simp [Function.comp_def]

end TemplateLiteral

namespace PathLiteral

open TemplateLiteral (readFrom denoteParts behindClosing? evaluate IsComplete)

/-- A literal whose texts stand on one line and whose names are identifiers. -/
structure Plain (l : PathLiteral) : Prop where
  front : '\r' ∉ l.front
  texts : ∀ part ∈ l.parts, '\r' ∉ part.2
  names : ∀ part ∈ l.parts, Code.isIdentifier part.1 = true
  query : ∀ name ∈ l.query, Code.isIdentifier name = true

/-- The query suffix of a path builder's result. -/
def querySuffix (scope : Scope) : Option String → List Char
  | none => []
  | some name => '?' :: (scope.serialized name).toList

/-- The value of a literal: its texts, with the values of the substituted names between them, and
the query suffix. -/
def valueIn (scope : Scope) (l : PathLiteral) : List Char :=
  l.front ++ l.parts.flatMap (fun part => (scope.value part.1).toList ++ part.2) ++
    querySuffix scope l.query

/-- The characters of a substitution with the text behind it. -/
def partChars (part : String × List Char) : List Char :=
  '$' :: '\x7b' :: (part.1.toList ++ '\x7d' :: Code.escapeTemplate part.2)

/-- The parts that a substitution with the text behind it is read as. -/
def partRead (part : String × List Char) : List LiteralPart :=
  .substitution part.1.toList :: part.2.map .char

/-- The characters of a query suffix. -/
def queryChars : Option String → List Char
  | none => []
  | some name => '?' :: '$' :: '\x7b' :: (Scope.serialization name.toList ++ ['\x7d'])

/-- The parts that a query suffix is read as. -/
def queryRead : Option String → List LiteralPart
  | none => []
  | some name => [.char '?', .substitution (Scope.serialization name.toList)]

private theorem toList_partText (part : String × List Char) :
    (partText part).toList = partChars part := by
  simp only [partText, String.toList_append, String.toList_ofList, List.append_assoc]
  rfl

private theorem toList_queryText (query : Option String) :
    ((query.map queryText).getD "").toList = queryChars query := by
  cases query with
  | none => rw [Option.map_none, Option.getD_none, String.toList_empty, queryChars]
  | some name =>
      have head : "?$\x7bnew URLSearchParams(".toList =
          '?' :: '$' :: '\x7b' :: Scope.serializationHead := by decide
      have tail : " as any).toString()\x7d".toList = Scope.serializationTail ++ ['\x7d'] := by
        decide
      rw [Option.map_some, Option.getD_some, queryChars, Scope.serialization]
      unfold queryText
      rw [String.toList_append, String.toList_append, head, tail]
      simp only [List.cons_append, List.append_assoc]

/-- A path literal as it is written, character by character. -/
theorem toList_text (l : PathLiteral) :
    l.text.toList = '\x60' :: (Code.escapeTemplate l.front ++
      (l.parts.flatMap partChars ++ (queryChars l.query ++ ['\x60']))) := by
  simp only [text, String.toList_append, String.toList_ofList, String.toList_join, toList_queryText,
    List.flatMap_map, toList_partText, List.append_assoc]
  rfl

private theorem head?_parts_ne (parts : List (String × List Char)) {rest : List Char}
    (closed : rest.head? ≠ some '\x7b') :
    (parts.flatMap partChars ++ rest).head? ≠ some '\x7b' := by
  cases parts with
  | nil => exact closed
  | cons part parts => simp [partChars]

private theorem readFrom_parts {parts : List (String × List Char)} {rest : List Char}
    (texts : ∀ part ∈ parts, '\r' ∉ part.2)
    (names : ∀ part ∈ parts, Code.isIdentifier part.1 = true)
    (closed : rest.head? ≠ some '\x7b') :
    readFrom none (parts.flatMap partChars ++ rest) =
      (readFrom none rest).map (parts.flatMap partRead ++ ·) := by
  induction parts with
  | nil => simp
  | cons part parts ih =>
      have noBrace : '\x7d' ∉ part.1.toList :=
        Code.not_mem_identifier (names part List.mem_cons_self) (by decide)
      have tail := ih (fun p member => texts p (List.mem_cons_of_mem _ member))
        (fun p member => names p (List.mem_cons_of_mem _ member))
      simp only [List.flatMap_cons, partChars, List.cons_append, List.append_assoc]
      rw [TemplateLiteral.readFrom_substitution _ _ noBrace,
        TemplateLiteral.readFrom_escapeTemplate _ _ (texts part List.mem_cons_self)
          (head?_parts_ne parts closed), tail]
      simp [partRead, Function.comp_def]

private theorem readFrom_query {query : Option String} {rest : List Char}
    (names : ∀ name ∈ query, Code.isIdentifier name = true) :
    readFrom none (queryChars query ++ rest) = (readFrom none rest).map (queryRead query ++ ·) := by
  cases query with
  | none => simp [queryChars, queryRead]
  | some name =>
      have noBrace : '\x7d' ∉ Scope.serialization name.toList :=
        Scope.not_mem_serialization (names name rfl) (by decide) (by decide) (by decide)
      have mark : '?' = '$' → ('$' :: '\x7b' :: (Scope.serialization name.toList ++
          '\x7d' :: rest)).head? ≠ some '\x7b' := fun same => absurd same (by decide)
      simp only [queryChars, List.cons_append, List.append_assoc, List.nil_append]
      rw [TemplateLiteral.readFrom_char (by decide) (by decide) (by decide) _ mark,
        TemplateLiteral.readFrom_substitution _ _ noBrace]
      simp [queryRead, Function.comp_def]

private theorem denoteParts_parts (scope : Scope) {parts : List (String × List Char)}
    (names : ∀ part ∈ parts, Code.isIdentifier part.1 = true) (rest : List LiteralPart) :
    denoteParts scope (parts.flatMap partRead ++ rest) = (denoteParts scope rest).map
      (parts.flatMap (fun part => (scope.value part.1).toList ++ part.2) ++ ·) := by
  induction parts with
  | nil => simp
  | cons part parts ih =>
      have tail := ih (fun p member => names p (List.mem_cons_of_mem _ member))
      simp only [List.flatMap_cons, partRead, List.cons_append, List.append_assoc, denoteParts]
      rw [scope.denote_name (names part List.mem_cons_self), TemplateLiteral.denoteParts_chars,
        tail]
      simp [Function.comp_def]

private theorem denoteParts_query (scope : Scope) {query : Option String}
    (names : ∀ name ∈ query, Code.isIdentifier name = true) :
    denoteParts scope (queryRead query) = some (querySuffix scope query) := by
  cases query with
  | none => rfl
  | some name =>
      simp only [queryRead, denoteParts, scope.denote_serialization (names name rfl)]
      simp [querySuffix]

/-- **The value of a written literal.** A literal with texts on one line and identifiers as names
has as its value its texts with the values of the names between them. -/
theorem evaluate_text {l : PathLiteral} (plain : l.Plain) (scope : Scope) :
    evaluate scope l.text.toList = some (l.valueIn scope) := by
  have closed : (queryChars l.query ++ ['\x60']).head? ≠ some '\x7b' := by
    cases l.query <;> simp [queryChars]
  have ending : readFrom none ['\x60'] = some [] := by decide
  have body : readFrom none (Code.escapeTemplate l.front ++
      (l.parts.flatMap partChars ++ (queryChars l.query ++ ['\x60']))) =
        some (l.front.map .char ++ (l.parts.flatMap partRead ++ queryRead l.query)) := by
    rw [TemplateLiteral.readFrom_escapeTemplate _ _ plain.front (head?_parts_ne l.parts closed),
      readFrom_parts plain.texts plain.names closed, readFrom_query plain.query, ending]
    simp
  rw [toList_text, evaluate, if_pos rfl, body, Option.bind_some, TemplateLiteral.denoteParts_chars,
    denoteParts_parts scope plain.names, denoteParts_query scope plain.query, valueIn]
  simp

private theorem behindClosing?_parts {parts : List (String × List Char)} {rest : List Char}
    (names : ∀ part ∈ parts, Code.isIdentifier part.1 = true) :
    behindClosing? (parts.flatMap partChars ++ rest) = behindClosing? rest := by
  induction parts with
  | nil => rfl
  | cons part parts ih =>
      have shape := names part List.mem_cons_self
      simp only [List.flatMap_cons, partChars, List.cons_append, List.append_assoc]
      rw [TemplateLiteral.behindClosing?_cons (by decide) (by decide),
        TemplateLiteral.behindClosing?_cons (by decide) (by decide),
        TemplateLiteral.behindClosing?_append _ _ (Code.not_mem_identifier shape (by decide))
          (Code.not_mem_identifier shape (by decide)),
        TemplateLiteral.behindClosing?_cons (by decide) (by decide),
        TemplateLiteral.behindClosing?_escapeTemplate]
      exact ih fun p member => names p (List.mem_cons_of_mem _ member)

private theorem behindClosing?_query {query : Option String} {rest : List Char}
    (names : ∀ name ∈ query, Code.isIdentifier name = true) :
    behindClosing? (queryChars query ++ rest) = behindClosing? rest := by
  cases query with
  | none => rfl
  | some name =>
      have shape := names name rfl
      simp only [queryChars, List.cons_append, List.append_assoc]
      rw [TemplateLiteral.behindClosing?_cons (by decide) (by decide),
        TemplateLiteral.behindClosing?_cons (by decide) (by decide),
        TemplateLiteral.behindClosing?_cons (by decide) (by decide),
        TemplateLiteral.behindClosing?_append _ _
          (Scope.not_mem_serialization shape (by decide) (by decide) (by decide))
          (Scope.not_mem_serialization shape (by decide) (by decide) (by decide)),
        TemplateLiteral.behindClosing?_cons (by decide) (by decide), List.nil_append]

/-- A written literal is complete: the first backtick behind its opening one that no backslash
escapes is its last character. -/
theorem isComplete_text {l : PathLiteral} (plain : l.Plain) : IsComplete l.text.toList := by
  refine ⟨_, l.toList_text, ?_⟩
  rw [TemplateLiteral.behindClosing?_escapeTemplate, behindClosing?_parts plain.names,
    behindClosing?_query plain.query]
  rfl

end PathLiteral

end RouteClient
