import RouteClient.Proofs.Code.Comment

/-!
# Line ends of a documentation comment

A documentation comment is made from a text in which each carriage return with a line feed behind it
has been replaced by the line feed, reading the text once. Two carriage returns in front of a line
feed leave one of them there, and a carriage return at the end of the text meets the line feed of
the comment's last line. `Code.docComment_lineEnds_iff` says that this is all: where neither
happens, the comment holds no carriage return with a line feed behind it, and it is the comment of
the text from which all of them have been taken out beforehand.
-/

namespace RouteClient

namespace Code

open Relation
open Text (ReplacesOnce ReplacesUntilFree lines)

/-- A text without the carriage returns that stand in front of a line feed, however many there
are. -/
def dropReturns : List Char → List Char
  | [] => []
  | c :: cs =>
    if c = '\r' ∧ (dropReturns cs).head? = some '\n' then dropReturns cs else c :: dropReturns cs

section DropReturns

variable {text other : List Char}

/-- No pair of carriage return and line feed is left when returns are dropped. -/
theorem not_infix_dropReturns (text : List Char) : ¬['\r', '\n'] <:+: dropReturns text := by
  induction text with
  | nil => simp [dropReturns]
  | cons c cs ih =>
      rw [dropReturns]
      split
      next => exact ih
      next kept =>
        rw [pair_infix_cons_iff, not_or]
        exact ⟨kept, ih⟩

private theorem not_doubled_infix_dropReturns (text : List Char) :
    ¬['\r', '\r', '\n'] <:+: dropReturns text := fun doubled =>
  not_infix_dropReturns text ((List.suffix_cons '\r' ['\r', '\n']).isInfix.trans doubled)

/-- A text without such a pair stays as it is. -/
theorem dropReturns_of_not_infix (free : ¬['\r', '\n'] <:+: text) : dropReturns text = text := by
  induction text with
  | nil => rfl
  | cons c cs ih =>
      rw [pair_infix_cons_iff, not_or] at free
      rw [dropReturns, ih free.2, if_neg free.1]

/-- A carriage return that is replaced with the line feed behind it would have been dropped. -/
theorem dropReturns_eq_of_once (once : ReplacesOnce ['\r', '\n'] ['\n'] text other) :
    dropReturns text = dropReturns other := by
  obtain ⟨front, back, rfl, rfl⟩ := once
  induction front with
  | nil => simp [dropReturns]
  | cons c cs ih => simp only [List.cons_append, dropReturns, ih]

private theorem dropReturns_eq_of_stepwise
    (steps : ReflTransGen (ReplacesOnce ['\r', '\n'] ['\n']) text other) :
    dropReturns text = dropReturns other :=
  Text.eq_of_stepwise (fun _ _ => dropReturns_eq_of_once) steps

/-- The carriage returns are dropped by single replacements, from the last one to the first. -/
theorem stepwise_dropReturns (text : List Char) :
    ReflTransGen (ReplacesOnce ['\r', '\n'] ['\n']) text (dropReturns text) := by
  induction text with
  | nil => exact .refl
  | cons c cs ih =>
      have behind := Text.stepwise_append_left [c] ih
      rw [dropReturns]
      split
      -- What is left of the text behind begins with a line feed, and the return is replaced with
      -- it.
      next paired =>
        obtain ⟨rfl, newline⟩ := paired
        obtain ⟨ds, split⟩ := List.head?_eq_some_iff.mp newline
        rw [split] at behind ⊢
        exact behind.tail ⟨[], ds, rfl, rfl⟩
      next => exact behind

/-- In whatever order carriage returns are replaced, the same text is left in the end. -/
theorem replacesUntilFree_iff :
    ReplacesUntilFree ['\r', '\n'] ['\n'] text other ↔ other = dropReturns text := by
  constructor
  · rintro ⟨steps, free⟩
    rw [dropReturns_eq_of_stepwise steps, dropReturns_of_not_infix free]
  · rintro rfl
    exact ⟨stepwise_dropReturns text, not_infix_dropReturns text⟩

private theorem getLast?_dropReturns (text : List Char) :
    (dropReturns text).getLast? = text.getLast? :=
  (Text.getLast?_eq_of_stepwise rfl rfl (stepwise_dropReturns text)).symm

end DropReturns

private theorem head?_normalizeLineEnds_iff (text : List Char) :
    (normalizeLineEnds text).head? = some '\n' ↔
      text.head? = some '\n' ∨ ['\r', '\n'] <+: text := by
  fun_cases normalizeLineEnds text with
  | case1 => simp
  | case2 cs => simp
  | case3 c cs unpaired =>
      have single : ¬['\r', '\n'] <+: c :: cs := by
        rintro ⟨rest, split⟩
        obtain ⟨rfl, rfl⟩ := List.cons.inj split
        exact unpaired rest rfl rfl
      simp [single]

/-- Reading a text once leaves a carriage return in front of a line feed where two of them stood. -/
theorem infix_normalizeLineEnds_iff (text : List Char) :
    ['\r', '\n'] <:+: normalizeLineEnds text ↔ ['\r', '\r', '\n'] <:+: text := by
  fun_induction normalizeLineEnds text with
  | case1 => simp
  | case2 cs ih => simp [List.infix_cons_iff, ← ih]
  | case3 c cs unpaired ih =>
      -- A return that is kept has no line feed behind it, unless the next reading step puts it
      -- there.
      have single : c = '\r' → cs.head? ≠ some '\n' := by
        rintro rfl newline
        obtain ⟨ds, rfl⟩ := List.head?_eq_some_iff.mp newline
        exact unpaired ds rfl rfl
      rw [pair_infix_cons_iff, head?_normalizeLineEnds_iff, ih, List.infix_cons_iff,
        List.cons_prefix_cons]
      grind

private theorem getLast?_normalizeLineEnds (text : List Char) :
    (normalizeLineEnds text).getLast? = text.getLast? :=
  (Text.getLast?_eq_of_stepwise rfl rfl (replaces_normalizeLineEnds text).stepwise).symm

/-- Reading a text once drops all carriage returns in front of line feeds exactly when nowhere two
of them stand there. -/
theorem normalizeLineEnds_eq_dropReturns_iff (text : List Char) :
    normalizeLineEnds text = dropReturns text ↔ ¬['\r', '\r', '\n'] <:+: text := by
  rw [← infix_normalizeLineEnds_iff]
  constructor
  · intro same
    exact same ▸ not_infix_dropReturns text
  · intro free
    have steps := (replaces_normalizeLineEnds text).stepwise
    rw [dropReturns_eq_of_stepwise steps, dropReturns_of_not_infix free]

private theorem infix_guardTerminator_iff (text : List Char) :
    ['\r', '\n'] <:+: guardTerminator text ↔ ['\r', '\n'] <:+: text := by
  fun_induction guardTerminator text with
  | case1 => rfl
  | case2 cs ih => simp [pair_infix_cons_iff, ih]
  | case3 c cs unpaired ih =>
      rw [pair_infix_cons_iff, pair_infix_cons_iff, head?_guardTerminator, ih]

private theorem getLast?_guardTerminator (text : List Char) :
    (guardTerminator text).getLast? = text.getLast? :=
  (Text.getLast?_eq_of_stepwise rfl rfl (replaces_guardTerminator text).stepwise).symm

private theorem getLast?_marginal_iff (line : String) :
    (" * " ++ line).toList.getLast? = some '\r' ↔ line.toList.getLast? = some '\r' := by
  rw [String.toList_append, List.getLast?_append]
  cases line.toList.getLast? with
  | none => decide
  | some c => rfl

/-- A comment holds a carriage return with a line feed behind it when one of its lines but the last
ends with the return, and these are its opening and the lines of its text. -/
theorem infix_docComment_iff (text : String) :
    ['\r', '\n'] <:+: (docComment text).toList ↔
      ['\r', '\r', '\n'] <:+: text.toList ∨ text.toList.getLast? = some '\r' := by
  have opening : "/**".toList.getLast? ≠ some '\r' := by decide
  have unclosed : (commentLines text " */").dropLast =
      "/**" :: (docLines text).map (" * " ++ ·) := by
    rw [commentLines, ← List.cons_append, List.dropLast_concat]
  rw [pair_infix_iff_exists_splitOn (by decide), ← Text.map_toList_splitAt, ← lines,
    lines_docComment, ← List.map_dropLast, unclosed]
  calc
    _ ↔ ∃ line ∈ docLines text, line.toList.getLast? = some '\r' := by
      simp only [List.map_cons, List.map_map, List.exists_mem_cons_iff, opening, false_or,
        List.mem_map, exists_exists_and_eq_and, Function.comp_apply, getLast?_marginal_iff]
    _ ↔ ∃ line ∈ (guardTerminator (normalizeLineEnds text.toList)).splitOn '\n',
        line.getLast? = some '\r' := by
      simp [docLines]
    _ ↔ _ := by
      rw [exists_splitOn_getLast?_iff (by decide), infix_guardTerminator_iff,
        infix_normalizeLineEnds_iff, getLast?_guardTerminator, getLast?_normalizeLineEnds]

/-- Comments are equal when their texts are, once their line ends and closing characters are
replaced. -/
theorem docComment_eq_iff (first second : String) :
    docComment first = docComment second ↔
      guardTerminator (normalizeLineEnds first.toList) =
        guardTerminator (normalizeLineEnds second.toList) := by
  constructor
  · intro same
    have inner := congrArg lines same
    rw [lines_docComment, lines_docComment, commentLines, commentLines] at inner
    have marginal := List.append_cancel_right (List.cons.inj inner).2
    have unmarked (line other : String) (equal : " * " ++ line = " * " ++ other) : line = other :=
      (String.append_right_inj " * ").mp equal
    have sameLines := (List.map_inj_right unmarked).mp marginal
    rw [docLines_eq, docLines_eq] at sameLines
    have sameText := Text.splitAt_inj '\n' sameLines
    rw [guarded, guarded, normalized, normalized, String.toList_ofList,
      String.toList_ofList] at sameText
    exact String.ofList_injective sameText
  · intro same
    rw [docComment, docComment, docLines, docLines, same]

/-- The comment of a text is that of the text without carriage returns in front of line feeds
exactly when reading the text once drops them all. -/
theorem docComment_dropReturns_iff (text : String) :
    docComment (String.ofList (dropReturns text.toList)) = docComment text ↔
      ¬['\r', '\r', '\n'] <:+: text.toList := by
  have free := not_infix_dropReturns text.toList
  have settled : normalizeLineEnds (dropReturns text.toList) = dropReturns text.toList := by
    rw [(normalizeLineEnds_eq_dropReturns_iff _).mpr (not_doubled_infix_dropReturns _),
      dropReturns_of_not_infix free]
  rw [docComment_eq_iff, String.toList_ofList, settled]
  constructor
  · intro same
    -- Different texts may be guarded alike, but only if both or neither hold a return and line
    -- feed.
    rw [← infix_normalizeLineEnds_iff, ← infix_guardTerminator_iff, ← same,
      infix_guardTerminator_iff]
    exact free
  · intro single
    rw [(normalizeLineEnds_eq_dropReturns_iff _).mpr single]

/-- **Which line ends of a documentation text are normalised.** A comment holds a carriage return
with a line feed behind it exactly when two carriage returns stand in front of a line feed of its
text or the text ends with a carriage return. The replacement of carriage returns in front of line
feeds, repeated until none is left, has one result. Its comment is that of the text exactly when
nowhere two carriage returns stand in front of a line feed, and holds a carriage return with a line
feed behind it exactly when the text ends with a carriage return. -/
theorem docComment_lineEnds_iff (text : String) :
    (['\r', '\n'] <:+: (docComment text).toList ↔
      ['\r', '\r', '\n'] <:+: text.toList ∨ text.toList.getLast? = some '\r') ∧
    ∃ normal : String,
      (∀ other : String,
        ReplacesUntilFree ['\r', '\n'] ['\n'] text.toList other.toList ↔ other = normal) ∧
      (docComment normal = docComment text ↔ ¬['\r', '\r', '\n'] <:+: text.toList) ∧
      (['\r', '\n'] <:+: (docComment normal).toList ↔ text.toList.getLast? = some '\r') := by
  refine ⟨infix_docComment_iff text, String.ofList (dropReturns text.toList), fun other => ?_,
    docComment_dropReturns_iff text, ?_⟩
  · rw [replacesUntilFree_iff, String.ext_iff, String.toList_ofList]
  · rw [infix_docComment_iff, String.toList_ofList, getLast?_dropReturns]
    simp [not_doubled_infix_dropReturns]

/-- The first of two carriage returns in front of a line feed is kept, and the comment holds it. -/
theorem docComment_doubledReturn :
    ['\r', '\n'] <:+: (docComment "a\r\r\nb").toList ∧
      ReplacesUntilFree ['\r', '\n'] ['\n'] "a\r\r\nb".toList "a\nb".toList ∧
      docComment "a\nb" ≠ docComment "a\r\r\nb" := by
  refine ⟨by decide, ⟨?_, by decide⟩, by decide⟩
  have first : ReplacesOnce ['\r', '\n'] ['\n'] "a\r\r\nb".toList "a\r\nb".toList :=
    ⟨['a', '\r'], ['b'], by decide, by decide⟩
  have second : ReplacesOnce ['\r', '\n'] ['\n'] "a\r\nb".toList "a\nb".toList :=
    ⟨['a'], ['b'], by decide, by decide⟩
  exact .tail (.single first) second

end Code

end RouteClient
