import Mathlib.Data.List.Forall2
import RouteClient.CommandLine.Report
import RouteClient.Proofs.Json.IndentedLayout
import RouteClient.Proofs.Json.Writing
import RouteClient.Proofs.Text.ByteOrder

/-!
# Pretty reports

The pretty form of a value is laid out with the depth of each part, the indented form with lines
that are moved to the right level by level. Both come to the same text (`Report.prettyAt_eq_lines`),
and colours add nothing to it but their sequences (`Report.uncolors_prettyAt`), so that values in
which nothing has to be escaped or sorted look alike in both (`Report.render_pretty_eq_json`).
-/

namespace RouteClient

namespace Json

mutual

/-- The strings of a value and the keys of its objects. -/
def texts : Json → List String
  | .string s => [s]
  | .array items => itemTexts items
  | .object members => memberTexts members
  | .null => []
  | .bool _ => []
  | .number _ => []

/-- The keys and texts in the items of an array. -/
def itemTexts : List Json → List String
  | [] => []
  | item :: items => item.texts ++ itemTexts items

/-- The keys and texts of the members of an object, with those in their values. -/
def memberTexts : List (String × Json) → List String
  | [] => []
  | (key, value) :: members => key :: (value.texts ++ memberTexts members)

end

mutual

/-- The keys of each object of a value ascend by their bytes. -/
def KeysAscend : Json → Prop
  | .array items => ItemsAscend items
  | .object members =>
    (members.map (·.1)).Pairwise (fun a b => Text.bytes a < Text.bytes b) ∧ MembersAscend members
  | .null => True
  | .bool _ => True
  | .number _ => True
  | .string _ => True

/-- The members of all objects in the items of an array are in the order of their keys. -/
def ItemsAscend : List Json → Prop
  | [] => True
  | item :: items => item.KeysAscend ∧ ItemsAscend items

/-- The members of all objects in the values of members are in the order of their keys. -/
def MembersAscend : List (String × Json) → Prop
  | [] => True
  | (_, value) :: members => value.KeysAscend ∧ MembersAscend members

end

private theorem sortMembers_of_ascending {members : List (String × Json)}
    (ascending : (members.map (·.1)).Pairwise fun a b => Text.bytes a < Text.bytes b) :
    sortMembers members = members := by
  apply List.mergeSort_of_pairwise
  rw [List.pairwise_map] at ascending
  refine ascending.imp ?_
  intro a b before
  exact decide_eq_true (Text.bytes_lt_iff.mp before).le

mutual

/-- A value whose members are in the order of their keys stays as it is when it is sorted. -/
theorem sorted_of_keysAscend : (value : Json) → value.KeysAscend → value.sorted = value
  | .null, _ => rfl
  | .bool _, _ => rfl
  | .number _, _ => rfl
  | .string _, _ => rfl
  | .array items, ascend => by
      rw [sorted, sortedItems_of_ascend items ascend]
  | .object members, ascend => by
      rw [sorted, sortedMembers_of_ascend members ascend.2, sortMembers_of_ascending ascend.1]

private theorem sortedItems_of_ascend : (items : List Json) → ItemsAscend items →
    sortedItems items = items
  | [], _ => rfl
  | item :: items, ascend => by
      rw [sortedItems, sorted_of_keysAscend item ascend.1, sortedItems_of_ascend items ascend.2]

private theorem sortedMembers_of_ascend : (members : List (String × Json)) → MembersAscend members →
    sortedMembers members = members
  | [], _ => rfl
  | (_, value) :: members, ascend => by
      rw [sortedMembers, sorted_of_keysAscend value ascend.1,
        sortedMembers_of_ascend members ascend.2]

end

end Json

namespace Report

open Json (IsUnescaped bracketed itemLines itemTexts memberLines memberTexts separated)

private theorem indentation_succ (depth : Nat) :
    indentation (depth + 1) = indentation depth ++ "  " := by
  simp [indentation, List.replicate_succ']

/-- A block of entries is the lines of these entries between brackets. -/
theorem block_eq_lines (left right : String) (depth : Nat) {entries : List (List String)}
    (several : entries ≠ []) (nonempty : ∀ entry ∈ entries, entry ≠ []) :
    block left right depth (entries.map ("\n" ++ indentation (depth + 1)).intercalate) =
      ("\n" ++ indentation depth).intercalate (bracketed left right entries) := by
  rw [Json.intercalate_bracketed left right _ several nonempty, block, indentation_succ]

mutual

/-- Without colours the pretty form of a value at some depth has its lines, with the margin of that
depth in front of all but the first. -/
theorem prettyAt_eq_lines : (value : Json) → (∀ text ∈ value.texts, IsUnescaped text) →
    (depth : Nat) →
    prettyAt false depth value = ("\n" ++ indentation depth).intercalate value.lines
  | .null, _, depth => by simp [prettyAt, paint, Json.lines]
  | .bool b, _, depth => by simp [prettyAt, paint, Json.lines]
  | .number n, _, depth => by simp [prettyAt, paint, Json.lines]
  | .string s, unescaped, depth => by
      have plain := unescaped s (List.mem_singleton_self s)
      simp [prettyAt, paint, Json.lines, Json.quote_of_isUnescaped plain]
  | .array [], _, depth => by simp [prettyAt, Json.lines, itemLines, bracketed]
  | .object [], _, depth => by simp [prettyAt, Json.lines, memberLines, bracketed]
  | .array (item :: items), unescaped, depth => by
      rw [prettyAt, prettyItems_eq_lines (item :: items) unescaped, Json.lines]
      exact block_eq_lines _ _ depth (List.cons_ne_nil _ _) (Json.itemLines_ne_nil _)
  | .object (member :: members), unescaped, depth => by
      rw [prettyAt, prettyMembers_eq_lines (member :: members) unescaped, Json.lines]
      exact block_eq_lines _ _ depth (List.cons_ne_nil _ _) (Json.memberLines_ne_nil _)

private theorem prettyItems_eq_lines : (items : List Json) →
    (∀ text ∈ itemTexts items, IsUnescaped text) → (depth : Nat) →
    prettyItems false depth items = (itemLines items).map ("\n" ++ indentation depth).intercalate
  | [], _, _ => rfl
  | item :: items, unescaped, depth => by
      rw [itemTexts, List.forall_mem_append] at unescaped
      rw [prettyItems, prettyAt_eq_lines item unescaped.1,
        prettyItems_eq_lines items unescaped.2, itemLines, List.map_cons]

private theorem prettyMembers_eq_lines : (members : List (String × Json)) →
    (∀ text ∈ memberTexts members, IsUnescaped text) → (depth : Nat) →
    prettyMembers false depth members =
      (memberLines members).map ("\n" ++ indentation depth).intercalate
  | [], _, _ => rfl
  | (key, value) :: members, unescaped, depth => by
      rw [memberTexts, List.forall_mem_cons, List.forall_mem_append] at unescaped
      obtain ⟨plainKey, plainValue, others⟩ := unescaped
      have start : "\x22" ++ paint false .key key ++ "\x22: " = Json.quote key ++ ": " := by
        simp [paint, Json.quote_of_isUnescaped plainKey, String.append_assoc]
      rw [prettyMembers, start, prettyAt_eq_lines value plainValue,
        prettyMembers_eq_lines members others, memberLines, List.map_cons,
        Json.intercalate_openedWith]

end

/-- What stands behind the parameters of a colour sequence, if a text goes on with them. -/
def behindParameters? : List Char → Option (List Char)
  | [] => none
  | c :: cs =>
    if c = 'm' then some cs
    else if c.isDigit || c = ';' then behindParameters? cs
    else none

/-- What stands behind the colour sequence that a text begins with, if it does. -/
def behindColor? : List Char → Option (List Char)
  | '\x1b' :: '[' :: cs => behindParameters? cs
  | _ => none

private theorem length_behindParameters? {text behind : List Char}
    (found : behindParameters? text = some behind) : behind.length < text.length := by
  fun_induction behindParameters? text with
  | case1 => cases found
  | case2 cs => simp [← Option.some.inj found]
  | case3 c cs _ _ ih => exact Nat.lt_succ_of_lt (ih found)
  | case4 => cases found

private theorem length_behindColor? {text behind : List Char}
    (found : behindColor? text = some behind) :
    behind.length < text.length := by
  unfold behindColor? at found
  split at found
  · next cs =>
      have shorter := length_behindParameters? found
      simp only [List.length_cons]
      omega
  · cases found

/-- Characters without the colour sequences among them. -/
def dropColors (text : List Char) : List Char :=
  match text with
  | [] => []
  | c :: cs =>
    match _found : behindColor? (c :: cs) with
    | some behind => dropColors behind
    | none => c :: dropColors cs
termination_by text.length
decreasing_by
  · exact length_behindColor? _found
  · exact Nat.lt_succ_self _

/-- A text without its colour sequences. -/
def withoutColors (text : String) : String := String.ofList (dropColors text.toList)

/-- Nothing but `plain` remains of a coloured text, whatever stands behind it. -/
def Uncolors (colored plain : String) : Prop :=
  ∀ rest, dropColors (colored.toList ++ rest) = plain.toList ++ dropColors rest

private theorem dropColors_cons {c : Char} (noEscape : c ≠ '\x1b') (cs : List Char) :
    dropColors (c :: cs) = c :: dropColors cs := by
  have none : behindColor? (c :: cs) = none := by
    unfold behindColor?
    split
    · next same => exact absurd (List.cons.inj same).1 noEscape
    · rfl
  rw [dropColors]
  split
  · next found => simp [none] at found
  · rfl

private theorem dropColors_color {sequence : List Char} {rest : List Char}
    (isColor : behindColor? (sequence ++ rest) = some rest) :
    dropColors (sequence ++ rest) = dropColors rest := by
  cases sequence with
  | nil => rfl
  | cons c cs =>
      rw [List.cons_append] at isColor ⊢
      rw [dropColors]
      split
      · next found => rw [Option.some.inj (found.symm.trans isColor)]
      · next found => cases found.symm.trans isColor

/-- Colours are dropped from each part of a text by itself. -/
theorem Uncolors.append {front back frontPlain backPlain : String}
    (first : Uncolors front frontPlain) (second : Uncolors back backPlain) :
    Uncolors (front ++ back) (frontPlain ++ backPlain) := by
  intro rest
  rw [String.toList_append, List.append_assoc, first, second, String.toList_append,
    List.append_assoc]

/-- A text that begins no sequence remains as it is. -/
theorem uncolors_self {text : String} (free : '\x1b' ∉ text.toList) : Uncolors text text := by
  intro rest
  generalize text.toList = cs at free
  induction cs with
  | nil => rfl
  | cons c cs ih =>
      rw [List.mem_cons, not_or] at free
      rw [List.cons_append, dropColors_cons (Ne.symm free.1), ih free.2, List.cons_append]

private theorem keepColor_of_free (start : List Char) {text : List Char} (free : '\x1b' ∉ text) :
    keepColor start text = text := by
  fun_induction keepColor start text with
  | case1 => rfl
  | case2 => simp at free
  | case3 c cs _ ih =>
      rw [List.mem_cons, not_or] at free
      rw [ih free.2]

private theorem uncolors_start (part : Part) : Uncolors ("\x1b[" ++ part.color ++ "m") "" := by
  intro rest
  apply dropColors_color
  cases part <;> simp [Part.color, behindColor?, behindParameters?]

private theorem uncolors_end : Uncolors (String.ofList colorEnd) "" := by
  intro rest
  apply dropColors_color
  simp [colorEnd, behindColor?, behindParameters?]

/-- A part of a report without its colours is the text of the part. -/
theorem uncolors_paint (colored : Bool) (part : Part) {text : String}
    (free : '\x1b' ∉ text.toList) : Uncolors (paint colored part text) text := by
  cases colored with
  | false => exact uncolors_self free
  | true =>
      have kept := keepColor_of_free ("\x1b[" ++ part.color ++ "m").toList free
      have whole := ((uncolors_start part).append (uncolors_self free)).append uncolors_end
      simp only [paint, if_true, kept, String.ofList_toList]
      simpa using whole

private theorem uncolors_intercalate {separator : String} (free : '\x1b' ∉ separator.toList)
    {colored plain : List String} (each : List.Forall₂ Uncolors colored plain) :
    Uncolors (separator.intercalate colored) (separator.intercalate plain) := by
  induction each with
  | nil => exact uncolors_self (by simp)
  | @cons first firstPlain others othersPlain here behind ih =>
      cases behind with
      | nil => simpa using here
      | cons second further =>
          rw [String.intercalate_cons_of_ne_nil (List.cons_ne_nil _ _),
            String.intercalate_cons_of_ne_nil (List.cons_ne_nil _ _)]
          exact (here.append (uncolors_self free)).append ih

private theorem free_indentation (depth : Nat) : '\x1b' ∉ (indentation depth).toList := by
  intro member
  rw [indentation, String.toList_join, List.mem_flatMap] at member
  obtain ⟨blanks, listed, inside⟩ := member
  rw [List.eq_of_mem_replicate listed] at inside
  exact absurd inside (by decide)

private theorem uncolors_block {left right : String} (freeLeft : '\x1b' ∉ left.toList)
    (freeRight : '\x1b' ∉ right.toList) (depth : Nat) {colored plain : List String}
    (each : List.Forall₂ Uncolors colored plain) :
    Uncolors (block left right depth colored) (block left right depth plain) := by
  have margin := uncolors_self (free_indentation (depth + 1))
  have entries : List.Forall₂ Uncolors (colored.map (indentation (depth + 1) ++ ·))
      (plain.map (indentation (depth + 1) ++ ·)) := by
    rw [List.forall₂_map_left_iff, List.forall₂_map_right_iff]
    exact each.imp fun _ _ here => margin.append here
  have newline : Uncolors "\n" "\n" := uncolors_self (by decide)
  exact (((((uncolors_self freeLeft).append newline).append
    (uncolors_intercalate (by decide) entries)).append newline).append
      (uncolors_self (free_indentation depth))).append (uncolors_self freeRight)

private theorem free_toString (n : Int) : '\x1b' ∉ (toString n).toList := by
  have noDigit : '\x1b' ∉ (Json.Figure.of n).whole := by
    intro member
    exact absurd ((Json.Figure.of n).isDigits.2 _ member) (by decide)
  have noFraction : (Json.Figure.of n).fraction = [] := rfl
  have noExponent : (Json.Figure.of n).exponent = [] := rfl
  rw [← Json.Figure.token_of, Json.Figure.token, noFraction, noExponent]
  split <;> simp [noDigit]

private theorem free_of_isUnescaped {text : String} (unescaped : IsUnescaped text) :
    '\x1b' ∉ text.toList := by
  intro member
  exact absurd (unescaped _ member).2.2 (by decide)

mutual

/-- What remains of the pretty form without its colours is the pretty form that has none. -/
theorem uncolors_prettyAt (colored : Bool) : (value : Json) →
    (∀ text ∈ value.texts, IsUnescaped text) → (depth : Nat) →
    Uncolors (prettyAt colored depth value) (prettyAt false depth value)
  | .null, _, _ => uncolors_paint colored .null (by decide)
  | .bool true, _, _ => uncolors_paint colored .bool (by decide)
  | .bool false, _, _ => uncolors_paint colored .bool (by decide)
  | .number n, _, _ => uncolors_paint colored .number (free_toString n)
  | .string s, unescaped, _ => by
      have free := free_of_isUnescaped (unescaped s (List.mem_singleton_self s))
      have quotes : Uncolors "\x22" "\x22" := uncolors_self (by decide)
      exact (quotes.append (uncolors_paint colored .string free)).append quotes
  | .array [], _, _ => by
      rw [prettyAt, prettyAt]
      exact uncolors_self (by decide)
  | .object [], _, _ => by
      rw [prettyAt, prettyAt]
      exact uncolors_self (by decide)
  | .array (item :: items), unescaped, depth =>
      uncolors_block (by decide) (by decide) depth
        (uncolors_prettyItems colored (item :: items) unescaped (depth + 1))
  | .object (member :: members), unescaped, depth =>
      uncolors_block (by decide) (by decide) depth
        (uncolors_prettyMembers colored (member :: members) unescaped (depth + 1))

private theorem uncolors_prettyItems (colored : Bool) : (items : List Json) →
    (∀ text ∈ itemTexts items, IsUnescaped text) → (depth : Nat) →
    List.Forall₂ Uncolors (prettyItems colored depth items) (prettyItems false depth items)
  | [], _, _ => .nil
  | item :: items, unescaped, depth => by
      rw [itemTexts, List.forall_mem_append] at unescaped
      exact .cons (uncolors_prettyAt colored item unescaped.1 depth)
        (uncolors_prettyItems colored items unescaped.2 depth)

private theorem uncolors_prettyMembers (colored : Bool) : (members : List (String × Json)) →
    (∀ text ∈ memberTexts members, IsUnescaped text) → (depth : Nat) →
    List.Forall₂ Uncolors (prettyMembers colored depth members) (prettyMembers false depth members)
  | [], _, _ => .nil
  | (key, value) :: members, unescaped, depth => by
      rw [memberTexts, List.forall_mem_cons, List.forall_mem_append] at unescaped
      obtain ⟨plainKey, plainValue, others⟩ := unescaped
      have opening : Uncolors "\x22" "\x22" := uncolors_self (by decide)
      have colon : Uncolors "\x22: " "\x22: " := uncolors_self (by decide)
      have painted := uncolors_paint colored .key (free_of_isUnescaped plainKey)
      exact .cons
        (((opening.append painted).append colon).append
          (uncolors_prettyAt colored value plainValue depth))
        (uncolors_prettyMembers colored members others depth)

end

/-- **Values that need no escaping look alike.** When no string or key of a value has to be escaped
and the keys ascend, its pretty form without colours is its indented form, as is its report in the
JSON format and what remains of the pretty form when the colours are taken out of it. This is the
text of the lines on which the value is laid out, with two blanks a level and collections without
entries on one line. -/
theorem render_pretty_eq_json {value : Json} (unescaped : ∀ text ∈ value.texts, IsUnescaped text)
    (ascend : value.KeysAscend) :
    (∀ colored, render .json colored value = value.indented) ∧
      render .pretty false value = value.indented ∧
      (∀ colored, withoutColors (render .pretty colored value) = value.indented) ∧
      ∃ lines, Json.LaidOut 0 "" "" value lines ∧
        value.indented = "\n".intercalate (lines.map Json.Line.text) := by
  have sorted := Json.sorted_of_keysAscend value ascend
  have plain : prettyAt false 0 value = value.indented := prettyAt_eq_lines value unescaped 0
  refine ⟨fun _ => rfl, ?_, fun colored => ?_, value.indented_laidOut⟩
  · rw [render, pretty, sorted, plain]
  · have remains := uncolors_prettyAt colored value unescaped 0 []
    rw [List.append_nil, plain, dropColors, List.append_nil] at remains
    rw [render, pretty, sorted, withoutColors, remains, String.ofList_toList]

/-- A report with entries of all kinds, some of them inside others. -/
def nestedReport : Json :=
  .object [("files", .array [.string "functional/index.ts", .object [("größe", .number (-3))]]),
    ("none", .array []), ("notes", .object []), ("ok", .array [.bool true, .null])]

/-- The text of `nestedReport` in all formats with lines. -/
def nestedReportText : String :=
  "\n".intercalate
    ["\x7b",
      "  \x22files\x22: [",
      "    \x22functional/index.ts\x22,",
      "    \x7b",
      "      \x22größe\x22: -3",
      "    \x7d",
      "  ],",
      "  \x22none\x22: [],",
      "  \x22notes\x22: \x7b\x7d,",
      "  \x22ok\x22: [",
      "    true,",
      "    null",
      "  ]",
      "\x7d"]

/-- The report is written with two blanks a level in all formats with lines. -/
theorem render_pretty_nestedReport : (∀ text ∈ nestedReport.texts, IsUnescaped text) ∧
    nestedReport.KeysAscend ∧ (∀ colored, render .json colored nestedReport = nestedReportText) ∧
      render .pretty false nestedReport = nestedReportText ∧
      ∀ colored, withoutColors (render .pretty colored nestedReport) = nestedReportText := by
  have unescaped : ∀ text ∈ nestedReport.texts, IsUnescaped text := by decide
  have ascend : nestedReport.KeysAscend := by
    simp only [nestedReport, Json.KeysAscend, Json.ItemsAscend, Json.MembersAscend,
      Text.bytes_lt_iff, String.lt_iff_toList_lt]
    decide
  have text : nestedReport.indented = nestedReportText := by decide
  obtain ⟨json, pretty, uncolored, _⟩ := render_pretty_eq_json unescaped ascend
  rw [text] at json pretty uncolored
  exact ⟨unescaped, ascend, json, pretty, uncolored⟩

end Report

end RouteClient
