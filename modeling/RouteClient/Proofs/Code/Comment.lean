import RouteClient.Code.DocComment
import RouteClient.Proofs.Text.Replacement

/-!
# Lines and end of a documentation comment

A documentation comment has one line for each line of its text, with the line ends and the closing
characters of the text replaced, and is closed by its own last characters only
(`Code.docComment_encloses`).
-/

namespace RouteClient

namespace Code

open Text (IsReplaced Replaces lines splitAt)

/-- Normalising line ends replaces the pairs of carriage return and line feed. -/
theorem replaces_normalizeLineEnds (text : List Char) :
    Replaces ['\r', '\n'] ['\n'] text (normalizeLineEnds text) := by
  fun_induction normalizeLineEnds text with
  | case1 => exact .nil (List.cons_ne_nil _ _)
  | case2 cs ih => exact ih.append (List.cons_ne_nil _ _)
  | case3 c cs unpaired ih => exact ih.cons_unpaired unpaired

/-- Guarding a text replaces what would end a comment. -/
theorem replaces_guardTerminator (text : List Char) :
    Replaces ['*', '/'] ['*', '\\', '/'] text (guardTerminator text) := by
  fun_induction guardTerminator text with
  | case1 => exact .nil (List.cons_ne_nil _ _)
  | case2 cs ih => exact ih.append (List.cons_ne_nil _ _)
  | case3 c cs unpaired ih => exact ih.cons_unpaired unpaired

/-- A text with its line ends normalised. -/
def normalized (text : String) : String := String.ofList (normalizeLineEnds text.toList)

/-- A text with its closing characters kept apart. -/
def guarded (text : String) : String := String.ofList (guardTerminator text.toList)

private theorem isReplaced_normalized (text : String) :
    IsReplaced "\r\n" "\n" text (normalized text) :=
  (replaces_normalizeLineEnds text.toList).isReplaced rfl (by decide)

/-- A guarded text is the text with all terminators replaced. -/
theorem isReplaced_guarded (text : String) : IsReplaced "*/" "*\\/" text (guarded text) :=
  (replaces_guardTerminator text.toList).isReplaced rfl (by decide)

/-- A guarded text begins with a slash only if the text does. -/
theorem head?_guardTerminator (text : List Char) : (guardTerminator text).head? = text.head? := by
  fun_cases guardTerminator text <;> rfl

private theorem not_infix_guardTerminator (text : List Char) :
    ¬['*', '/'] <:+: guardTerminator text := by
  fun_induction guardTerminator text with
  | case1 => simp
  | case2 cs ih => simpa [List.infix_cons_iff] using ih
  | case3 c cs unpaired ih =>
      rw [List.infix_cons_iff, not_or]
      refine ⟨fun begins => ?_, ih⟩
      obtain ⟨rest, split⟩ := begins
      obtain ⟨rfl, behind⟩ := List.cons.inj split
      have slash : cs.head? = some '/' := by rw [← head?_guardTerminator, ← behind]; rfl
      obtain ⟨ds, rfl⟩ := List.head?_eq_some_iff.mp slash
      exact unpaired ds rfl rfl

/-- A text is guarded line by line. -/
theorem splitOn_guardTerminator (text : List Char) :
    (guardTerminator text).splitOn '\n' = (text.splitOn '\n').map guardTerminator := by
  fun_induction guardTerminator text with
  | case1 => rfl
  | case2 cs ih =>
      obtain ⟨first, rest, split⟩ := List.exists_cons_of_ne_nil (List.splitOn_ne_nil '\n' cs)
      rw [split] at ih
      simp [List.splitOn_cons_eq_if_modifyHead, ih, split, guardTerminator]
  | case3 c cs unpaired ih =>
      obtain ⟨first, rest, split⟩ := List.exists_cons_of_ne_nil (List.splitOn_ne_nil '\n' cs)
      rw [split] at ih
      by_cases newline : c = '\n'
      · simp [List.splitOn_cons_eq_if_modifyHead, newline, ih, split, guardTerminator]
      · have kept : guardTerminator (c :: first) = c :: guardTerminator first := by
          refine guardTerminator.eq_3 c first fun ds star slash => ?_
          have begins : cs = '/' :: ['\n'].intercalate (ds :: rest) := by
            rw [← intercalate_cons_cons_head, ← slash, ← split, List.intercalate_splitOn]
          exact unpaired _ star begins
        simp [List.splitOn_cons_eq_if_modifyHead, newline, ih, split, kept]

/-- Guarding a text guards each of its lines. -/
theorem lines_guarded (text : String) : lines (guarded text) = (lines text).map guarded := by
  have chars : (guarded text).toList = guardTerminator text.toList := String.toList_ofList
  rw [lines, splitAt, chars, splitOn_guardTerminator, lines, splitAt, List.map_map, List.map_map]
  refine List.map_congr_left fun line _ => ?_
  rw [Function.comp_apply, Function.comp_apply, guarded, String.toList_ofList]

/-- A text without carriage returns has normal line ends. -/
theorem normalizeLineEnds_of_not_mem {text : List Char} (plain : '\r' ∉ text) :
    normalizeLineEnds text = text := by
  fun_induction normalizeLineEnds text with
  | case1 => rfl
  | case2 cs ih => exact absurd List.mem_cons_self plain
  | case3 c cs unpaired ih => rw [ih (List.not_mem_of_not_mem_cons plain)]

/-- The lines in a comment are those of the text, normalised and guarded. -/
theorem docLines_eq (text : String) : docLines text = lines (guarded (normalized text)) := by
  rw [docLines, lines, splitAt, guarded, normalized, String.toList_ofList, String.toList_ofList]

private theorem newline_not_mem_docLines {text line : String} (member : line ∈ docLines text) :
    '\n' ∉ line.toList :=
  Text.not_mem_of_mem_splitAt (docLines_eq text ▸ member)

/-- No line of a text holds the closing characters, since the guarded text does not. -/
theorem not_infix_docLines {text line : String} (member : line ∈ docLines text) :
    ¬['*', '/'] <:+: line.toList := by
  intro occurs
  obtain ⟨chars, listed, rfl⟩ := List.mem_map.mp member
  rw [String.toList_ofList] at occurs
  apply not_infix_guardTerminator (normalizeLineEnds text.toList)
  exact (infix_iff_exists_splitOn (by decide) _).mpr ⟨chars, listed, occurs⟩

/-- The lines of a comment, of which the last is given. -/
def commentLines (text last : String) : List String :=
  "/**" :: ((docLines text).map (" * " ++ ·) ++ [last])

private theorem intercalate_commentLines (text last : String) :
    "\n".intercalate (commentLines text last) =
      "/**\n" ++ "\n".intercalate ((docLines text).map (" * " ++ ·)) ++ "\n" ++ last := by
  have body : (docLines text).map (" * " ++ ·) ≠ [] := by
    rw [docLines_eq, ne_eq, List.map_eq_nil_iff]
    exact Text.splitAt_ne_nil _ _
  rw [commentLines, String.intercalate_cons_of_ne_nil (by simp),
    String.intercalate_append_of_ne_nil body (List.cons_ne_nil _ _), String.intercalate_singleton]
  simp only [String.append_assoc]
  rfl

private theorem docComment_eq (text : String) :
    docComment text = "\n".intercalate (commentLines text " */") := by
  have closing : "\n */" = "\n" ++ " */" := rfl
  rw [intercalate_commentLines, docComment, closing, ← String.append_assoc]

/-- A comment has its lines between the line that opens it and the line that ends it. -/
theorem lines_docComment (text : String) :
    lines (docComment text) = commentLines text " */" := by
  rw [docComment_eq]
  refine Text.lines_intercalate (List.cons_ne_nil _ _) ?_
  simp only [commentLines, List.forall_mem_cons, List.forall_mem_append, List.forall_mem_map]
  refine ⟨by decide, fun line member => ?_, by decide⟩
  have plain := newline_not_mem_docLines member
  simpa [String.toList_append] using plain

/-- Up to its last character a comment does not hold the characters that close it. -/
theorem not_infix_unclosed (text : String) :
    ¬['*', '/'] <:+: ("\n".intercalate (commentLines text " *")).toList := by
  have free : ∀ line ∈ commentLines text " *", ¬['*', '/'] <:+: line.toList := by
    simp only [commentLines, List.forall_mem_cons, List.forall_mem_append, List.forall_mem_map]
    refine ⟨by decide, fun line member => ?_, by decide⟩
    have margin : (" * " ++ line).toList = [' ', '*'] ++ ' ' :: line.toList := String.toList_append
    rw [margin, infix_append_cons_iff (by decide), not_or]
    exact ⟨by decide, not_infix_docLines member⟩
  have newline : "\n".toList = ['\n'] := rfl
  rw [String.toList_intercalate, newline,
    infix_intercalate_iff (by decide) (by simp [commentLines])]
  simpa using free

/-- The characters that close a comment are its last ones and occur nowhere else. -/
theorem closes_once (text : String) : ∃ unclosed, ∀ front back,
    (docComment text).toList = front ++ ['*', '/'] ++ back ↔ front = unclosed ∧ back = [] := by
  have free := not_infix_unclosed text
  rw [intercalate_commentLines, String.toList_append] at free
  have star : " *".toList = [' '] ++ ['*'] := rfl
  have closing : " */".toList = [' '] ++ ['*', '/'] := rfl
  rw [star, ← List.append_assoc] at free
  rw [docComment_eq, intercalate_commentLines, String.toList_append, closing, ← List.append_assoc]
  exact ⟨_, eq_append_pair_iff free⟩

/-- **A documentation comment keeps every line and is closed at its end only.** The closing
characters occur in it once, and its lines are those of the text, with the line ends and the closing
characters of the text replaced, between its first line and its last. -/
theorem docComment_encloses (text : String) :
    (∃ inner, docComment text = "/**\n" ++ inner ++ "\n */") ∧
      (∃ unclosed, ∀ front back,
        (docComment text).toList = front ++ ['*', '/'] ++ back ↔ front = unclosed ∧ back = []) ∧
      ∃ normal guarded, IsReplaced "\r\n" "\n" text normal ∧ IsReplaced "*/" "*\\/" normal guarded ∧
        lines (docComment text) = "/**" :: ((lines guarded).map (" * " ++ ·) ++ [" */"]) := by
  refine ⟨⟨_, rfl⟩, closes_once text, normalized text, guarded (normalized text),
    isReplaced_normalized text, isReplaced_guarded _, ?_⟩
  rw [lines_docComment, commentLines, docLines_eq]

end Code

end RouteClient
