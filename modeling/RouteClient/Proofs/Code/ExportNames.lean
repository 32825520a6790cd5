import Mathlib.Data.List.Basic
import RouteClient.Code.ExportName

/-!
# Names in camel case

A name in camel case is made of the words of the name (`Code.camelFrom_eq_joined`), where every word
but the first begins with a capital. It holds no word break, so that it stays as it is when it is
put into camel case again. A directory is re-exported under this name when that is usable, and under
a usable one in any case (`Code.exportName_usable`).
-/

namespace RouteClient

namespace Code

/-- The characters between which the words of a name stand. -/
def wordBreaks : List Char := ['_', '-', '.', ' ']

/-- The words of a name, the pieces between its word breaks that are not empty. -/
def words (name : List Char) : List (List Char) :=
  (name.splitOnP (· ∈ wordBreaks)).filter (· ≠ [])

/-- A word whose first character is a capital. -/
def capitalized : List Char → List Char
  | [] => []
  | c :: cs => c.toUpper :: cs

/-- Words one behind the other, the first one as it is and the others with capitals. -/
def joined : List (List Char) → List Char
  | [] => []
  | first :: others => first ++ others.flatMap capitalized

private theorem isWordBreak_eq (c : Char) : isWordBreak c = decide (c ∈ wordBreaks) := by
  simp [isWordBreak, wordBreaks, Bool.or_assoc, Bool.decide_or]

/-- Word breaks are no capitals. -/
theorem toUpper_not_mem_wordBreaks {c : Char} (plain : c ∉ wordBreaks) :
    c.toUpper ∉ wordBreaks := by
  unfold Char.toUpper
  split
  case isTrue lower =>
    have apart : ∀ d ∈ wordBreaks, d.toNat < 65 ∨ 90 < d.toNat := by
      simp [wordBreaks]
    intro breaks
    have outside := apart _ breaks
    simp only [Char.toNat, Char.reduceVal, UInt32.le_iff_toNat_le, UInt32.toNat_add,
      UInt32.reduceSub, UInt32.reduceToNat] at lower outside
    omega
  case isFalse => exact plain

private theorem camelFrom_break {c : Char} (breaks : c ∈ wordBreaks) (started raised : Bool)
    (cs : List Char) : camelFrom started raised (c :: cs) = camelFrom started started cs := by
  rw [camelFrom, isWordBreak_eq, if_pos (decide_eq_true breaks)]

private theorem camelFrom_plain {c : Char} (plain : c ∉ wordBreaks) (started raised : Bool)
    (cs : List Char) : camelFrom started raised (c :: cs) =
      (if raised then c.toUpper else c) :: camelFrom true false cs := by
  rw [camelFrom, isWordBreak_eq, decide_eq_false plain, if_neg Bool.false_ne_true]

section Words

variable {c : Char} {cs : List Char}

private theorem splitOnP_break (breaks : c ∈ wordBreaks) :
    (c :: cs).splitOnP (· ∈ wordBreaks) = [] :: cs.splitOnP (· ∈ wordBreaks) := by
  rw [List.splitOnP_cons_eq_if_modifyHead, if_pos (decide_eq_true breaks)]

private theorem splitOnP_plain (plain : c ∉ wordBreaks) {first : List Char}
    {others : List (List Char)} (split : cs.splitOnP (· ∈ wordBreaks) = first :: others) :
    (c :: cs).splitOnP (· ∈ wordBreaks) = (c :: first) :: others := by
  rw [List.splitOnP_cons_eq_if_modifyHead, if_neg (by simpa using plain), split,
    List.modifyHead_cons]

private theorem exists_splitOnP (cs : List Char) :
    ∃ first others, cs.splitOnP (· ∈ wordBreaks) = first :: others :=
  List.exists_cons_of_ne_nil (List.splitOnP_ne_nil _ cs)

end Words

private theorem flatMap_capitalized_filter (pieces : List (List Char)) :
    (pieces.filter (· ≠ [])).flatMap capitalized = pieces.flatMap capitalized := by
  induction pieces with
  | nil => rfl
  | cons piece pieces ih =>
      cases piece with
      | nil => simpa [capitalized] using ih
      | cons c cs => simpa [capitalized] using ih

/-- Behind the first character, the word that has begun comes first and the others have capitals. -/
theorem camelFrom_started {cs first : List Char} {others : List (List Char)} (raised : Bool)
    (split : cs.splitOnP (· ∈ wordBreaks) = first :: others) : camelFrom true raised cs =
      (if raised then capitalized first else first) ++ others.flatMap capitalized := by
  induction cs generalizing first others raised with
  | nil =>
      rw [List.splitOnP_nil, List.cons.injEq] at split
      obtain ⟨rfl, rfl⟩ := split
      cases raised <;> rfl
  | cons c cs ih =>
      obtain ⟨next, further, behind⟩ := exists_splitOnP cs
      by_cases breaks : c ∈ wordBreaks
      · -- the word that has begun is empty, and the next one behind the break is raised
        rw [splitOnP_break breaks, behind, List.cons.injEq] at split
        obtain ⟨rfl, rfl⟩ := split
        rw [camelFrom_break breaks, ih true behind]
        cases raised <;> rfl
      · rw [splitOnP_plain breaks behind, List.cons.injEq] at split
        obtain ⟨rfl, rfl⟩ := split
        rw [camelFrom_plain breaks, ih false behind]
        cases raised <;> rfl

private theorem camelFrom_eq_joined (cs : List Char) :
    camelFrom false false cs = joined (words cs) := by
  induction cs with
  | nil => rfl
  | cons c cs ih =>
      obtain ⟨first, others, split⟩ := exists_splitOnP cs
      by_cases breaks : c ∈ wordBreaks
      · have same : words (c :: cs) = words cs := by simp [words, splitOnP_break breaks]
        rw [camelFrom_break breaks, ih, same]
      · have begun : words (c :: cs) = (c :: first) :: others.filter (· ≠ []) := by
          simp [words, splitOnP_plain breaks split]
        rw [camelFrom_plain breaks, camelFrom_started false split, begun, joined,
          flatMap_capitalized_filter]
        rfl

private theorem not_mem_wordBreaks_of_mem_camelFrom {started raised : Bool} {cs : List Char}
    {c : Char} (member : c ∈ camelFrom started raised cs) : c ∉ wordBreaks := by
  induction cs generalizing started raised with
  | nil => cases member
  | cons d cs ih =>
      by_cases breaks : d ∈ wordBreaks
      · rw [camelFrom_break breaks] at member
        exact ih member
      · rw [camelFrom_plain breaks] at member
        rcases List.mem_cons.mp member with rfl | later
        · split
          · exact toUpper_not_mem_wordBreaks breaks
          · exact breaks
        · exact ih later

private theorem camelFrom_eq_self {started : Bool} {cs : List Char}
    (plain : ∀ c ∈ cs, c ∉ wordBreaks) :
    camelFrom started false cs = cs := by
  induction cs generalizing started with
  | nil => rfl
  | cons c cs ih =>
      obtain ⟨here, later⟩ := List.forall_mem_cons.mp plain
      rw [camelFrom_plain here, ih later]
      rfl

/-- No separator is left in a text in camel case. -/
theorem camelCase_plain (name : String) : ∀ c ∈ (camelCase name).toList, c ∉ wordBreaks := by
  intro c member
  rw [camelCase, String.toList_ofList] at member
  exact not_mem_wordBreaks_of_mem_camelFrom member

/-- A text in camel case stays as it is. -/
theorem camelCase_camelCase (name : String) : camelCase (camelCase name) = camelCase name := by
  rw [camelCase, camelFrom_eq_self (camelCase_plain name), String.ofList_toList]

private theorem continuesIdentifier_identifierChar (c : Char) :
    continuesIdentifier (identifierChar c) = true := by
  unfold identifierChar
  split
  case isTrue allowed =>
    unfold continuesIdentifier
    rcases Bool.or_eq_true_iff.mp allowed with alphanumeric | dollar
    · simp [alphanumeric]
    · simp [dollar]
  case isFalse => decide

private theorem isIdentifier_underscore {rest : String}
    (plain : ∀ c ∈ rest.toList, continuesIdentifier c = true) :
    isIdentifier ("_" ++ rest) = true := by
  have chars : ("_" ++ rest).toList = '_' :: rest.toList := by simp
  have opens : opensIdentifier '_' = true := by decide
  rw [isIdentifier, chars, identifierShape, opens, Bool.true_and]
  exact List.all_eq_true.mpr plain

/-- No reserved word begins with an underscore. -/
theorem isReserved_underscore (rest : String) : isReserved ("_" ++ rest) = false := by
  have otherwise : ∀ word ∈ reservedWords, word.toList.head? ≠ some '_' := by decide
  rw [isReserved, Bool.eq_false_iff, ne_eq, List.contains_iff_mem]
  intro reserved
  exact otherwise _ reserved (by simp)

/-- Every segment is exported under a name that can be used. -/
theorem isUsableName_exportName (segment : String) : isUsableName (exportName segment) = true := by
  unfold exportName
  simp only
  split_ifs with usable plain
  · exact usable
  · exact plain
  · have continues : ∀ c ∈ (String.ofList ((camelCase segment).toList.map identifierChar)).toList,
        continuesIdentifier c = true := by
      rw [String.toList_ofList, List.forall_mem_map]
      intro c _
      exact continuesIdentifier_identifierChar c
    rw [isUsableName, isIdentifier_underscore continues, isReserved_underscore]
    rfl

private theorem exportName_of_usable {segment : String}
    (usable : isUsableName (camelCase segment) = true) :
    exportName segment = camelCase segment := if_pos usable

/-- **Names of re-exports are usable, and in camel case where that is.** Camel case joins the words
of a name, leaves no word break and changes nothing when it is applied again. -/
theorem exportName_usable (name : String) :
    (isIdentifier (exportName name) = true ∧ isReserved (exportName name) = false) ∧
    (isIdentifier (camelCase name) = true → isReserved (camelCase name) = false →
      exportName name = camelCase name) ∧
    (camelCase name).toList = joined (words name.toList) ∧
    (∀ c ∈ (camelCase name).toList, c ∉ wordBreaks) ∧
    camelCase (camelCase name) = camelCase name := by
  have usable : isIdentifier (exportName name) = true ∧ isReserved (exportName name) = false := by
    simpa [isUsableName] using isUsableName_exportName name
  refine ⟨usable, ?_, ?_, camelCase_plain name, camelCase_camelCase name⟩
  · intro identifier free
    apply exportName_of_usable
    rw [isUsableName, identifier, free]
    rfl
  · rw [camelCase, String.toList_ofList, camelFrom_eq_joined]

example : exportName "sale-items" = "saleItems" ∧ exportName "_new" = "_new" ∧
    exportName "2fa" = "_2fa" := by decide

end Code

end RouteClient
