import Mathlib.Data.List.TakeWhile
import RouteClient.Proofs.Module.FilePaths
import RouteClient.Proofs.Route.LiteralValue
import RouteClient.Proofs.Route.Scanning

/-!
# Placeholders segment by segment

Slashes divide a path into segments, and a placeholder stands at the beginning of its segment:
`placeholders_bySegment` lists the placeholders of a path segment by segment.
`PathSegment.OpensWith` says by the characters themselves which name a segment opens with. The
reader of a path, and the search for a pattern from left to right (`PathMatch.search`), each come to
the end of a segment in the same way whatever the segment holds, so that one lemma on a segment and
an induction on the segments suffice for both.
-/

namespace RouteClient

open Text (byteCount)

/-- A segment of a path: its characters, and the byte of the path at which it begins. -/
structure PathSegment where
  start : Nat
  chars : List Char
  deriving DecidableEq

namespace PathSegment

/-- The byte behind a segment. -/
def stop (s : PathSegment) : Nat := s.start + byteCount s.chars

/-- Segments with given characters that stand from a byte on, with a slash between them. -/
def listFrom (start : Nat) : List (List Char) → List PathSegment
  | [] => []
  | chars :: rest => ⟨start, chars⟩ :: listFrom (start + byteCount chars + 1) rest

/-- The segments of a path. -/
def ofPath (path : String) : List PathSegment := listFrom 0 (path.toList.splitOn '/')

/-- The name that a segment opens with: behind a colon, all characters as long as they may stand in
an identifier, provided that the first of them may open one. -/
def openingName? : List Char → Option (List Char)
  | ':' :: c :: rest =>
    if Code.opensIdentifier c then some ((c :: rest).takeWhile Code.continuesIdentifier) else none
  | _ => none

/-- The placeholder that a segment opens with. -/
def placeholder? (s : PathSegment) : Option Placeholder :=
  (openingName? s.chars).map fun name =>
    ⟨String.ofList name, s.start, s.start + byteCount (':' :: name)⟩

/-- A character that a name may begin with: an ASCII letter, an underscore or a dollar sign. -/
def BeginsName (c : Char) : Prop := ('A' ≤ c ∧ c ≤ 'Z' ∨ 'a' ≤ c ∧ c ≤ 'z') ∨ c = '_' ∨ c = '$'

/-- A character that may stand in a name: one that a name may begin with, or an ASCII digit. -/
def StandsInName (c : Char) : Prop := ('0' ≤ c ∧ c ≤ '9') ∨ BeginsName c

/-- The characters of a segment open with a colon and a name, which is as long as it can be. -/
inductive OpensWith : (chars name : List Char) → Prop where
  | intro {c : Char} {name behind : List Char} (begins : BeginsName c)
    (inside : ∀ d ∈ name, StandsInName d) (ends : ∀ d ∈ behind.head?, ¬StandsInName d) :
    OpensWith (':' :: c :: (name ++ behind)) (c :: name)

end PathSegment

/-- Behind a segment its path ends or goes on with a slash. -/
def EndsSegment (rest : List Char) : Prop := ∀ c ∈ rest.head?, c = '/'

/-- A segment ends with its path. -/
theorem endsSegment_nil : EndsSegment [] := by
  intro c member
  cases member

/-- A segment ends before a slash. -/
theorem endsSegment_slash (rest : List Char) : EndsSegment ('/' :: rest) := by
  intro c member
  cases member
  rfl

namespace Code

open PathSegment (BeginsName StandsInName)

/-- An identifier opens with a character that a name may begin with. -/
theorem opensIdentifier_iff {c : Char} : opensIdentifier c = true ↔ BeginsName c := by
  have ranges : opensIdentifier c = ((decide ('A' ≤ c ∧ c ≤ 'Z') ||
      decide ('a' ≤ c) && decide (c ≤ 'z')) || decide (c = '_') || decide (c = '$')) := rfl
  simp only [ranges, BeginsName, Bool.or_eq_true, Bool.and_eq_true, decide_eq_true_eq, or_assoc]

/-- It goes on with characters that may stand in a name. -/
theorem continuesIdentifier_iff {c : Char} : continuesIdentifier c = true ↔ StandsInName c := by
  have ranges : continuesIdentifier c = (c.isAlpha || (decide ('0' ≤ c) && decide (c ≤ '9')) ||
      decide (c = '_') || decide (c = '$')) := rfl
  rw [StandsInName, ← opensIdentifier_iff, ranges]
  simp only [opensIdentifier, Bool.or_eq_true, Bool.and_eq_true, decide_eq_true_eq, or_assoc,
    or_left_comm]

private theorem continuesIdentifier_eq_false_iff {c : Char} :
    continuesIdentifier c = false ↔ ¬StandsInName c := by
  rw [← continuesIdentifier_iff, Bool.not_eq_true]

private theorem not_continuesIdentifier_slash : continuesIdentifier '/' = false := by decide

private theorem not_opensIdentifier_slash : opensIdentifier '/' = false := by decide

end Code

section Names

variable {chars rest name : List Char}

/-- A name in a segment ends with the segment. -/
theorem EndsSegment.takeWhile_append (ends : EndsSegment rest) :
    (chars ++ rest).takeWhile Code.continuesIdentifier =
      chars.takeWhile Code.continuesIdentifier := by
  induction chars with
  | nil =>
      cases rest with
      | nil => rfl
      | cons c cs =>
          rw [ends c rfl, List.nil_append, List.takeWhile_cons, Code.not_continuesIdentifier_slash]
          rfl
  | cons c cs ih => rw [List.cons_append, List.takeWhile_cons, List.takeWhile_cons, ih]

/-- What follows a name in a segment is followed by what follows the segment. -/
theorem EndsSegment.dropWhile_append (ends : EndsSegment rest) :
    (chars ++ rest).dropWhile Code.continuesIdentifier =
      chars.dropWhile Code.continuesIdentifier ++ rest := by
  have whole := List.takeWhile_append_dropWhile (p := Code.continuesIdentifier) (l := chars ++ rest)
  rw [ends.takeWhile_append] at whole
  refine List.append_cancel_left (whole.trans ?_)
  rw [← List.append_assoc, List.takeWhile_append_dropWhile]

/-- A segment opens with a name when a character that may open one follows its colon. -/
theorem openingName?_cases (chars : List Char) :
    (∃ c behind, chars = ':' :: c :: behind ∧ Code.opensIdentifier c = true ∧
        PathSegment.openingName? chars = some (c :: behind.takeWhile Code.continuesIdentifier)) ∨
      PathSegment.openingName? chars = none ∧
        ∀ c behind, chars = ':' :: c :: behind → Code.opensIdentifier c = false := by
  unfold PathSegment.openingName?
  split
  next c behind =>
    cases opens : Code.opensIdentifier c with
    | true =>
        refine Or.inl ⟨c, behind, rfl, opens, ?_⟩
        rw [if_pos rfl, List.takeWhile_cons, if_pos (Code.continuesIdentifier_of_opens opens)]
    | false =>
        refine Or.inr ⟨rfl, ?_⟩
        intro d others same
        cases same
        exact opens
  next shape =>
    refine Or.inr ⟨rfl, ?_⟩
    intro c behind same
    exact absurd same (shape c behind)

/-- The name that a segment opens with, by its characters. -/
theorem openingName?_eq_some :
    PathSegment.openingName? chars = some name ↔ PathSegment.OpensWith chars name := by
  constructor
  · intro found
    rcases openingName?_cases chars with ⟨c, behind, rfl, opens, same⟩ | ⟨nothing, _⟩
    · obtain rfl := Option.some_inj.mp (same.symm.trans found)
      have split : behind = behind.takeWhile Code.continuesIdentifier ++
          behind.dropWhile Code.continuesIdentifier := List.takeWhile_append_dropWhile.symm
      have ends : ∀ d ∈ (behind.dropWhile Code.continuesIdentifier).head?,
          ¬PathSegment.StandsInName d := by
        intro d first
        have stops := List.head?_dropWhile_not Code.continuesIdentifier behind
        rw [Option.mem_def.mp first] at stops
        exact Code.continuesIdentifier_eq_false_iff.mp stops
      rw [congrArg (':' :: c :: ·) split]
      exact .intro (Code.opensIdentifier_iff.mp opens) (fun d member =>
        Code.continuesIdentifier_iff.mp (List.mem_takeWhile_imp member)) ends
    · rw [nothing] at found
      cases found
  · intro named
    cases named with
    | @intro c name behind begins inside ends =>
        have opens := Code.opensIdentifier_iff.mpr begins
        have stops : behind.takeWhile Code.continuesIdentifier = [] := by
          cases behind with
          | nil => rfl
          | cons d ds => simp [Code.continuesIdentifier_eq_false_iff.mpr (ends d rfl)]
        rw [PathSegment.openingName?, if_pos opens, List.takeWhile_cons_of_pos
          (Code.continuesIdentifier_of_opens opens), List.takeWhile_append_of_pos fun d member =>
            Code.continuesIdentifier_iff.mpr (inside d member), stops, List.append_nil]

/-- A segment has a placeholder when it opens with a name, of which it has the bytes. -/
theorem PathSegment.placeholder?_eq_some {s : PathSegment} {h : Placeholder} :
    s.placeholder? = some h ↔ ∃ name, OpensWith s.chars name ∧
      h = ⟨String.ofList name, s.start, s.start + byteCount (':' :: name)⟩ := by
  simp only [placeholder?, Option.map_eq_some_iff, openingName?_eq_some, eq_comm (b := h)]

/-- The characters of a segment are those of its placeholder and those behind it. -/
theorem eq_of_openingName? (found : PathSegment.openingName? chars = some name) :
    chars = ':' :: name ++ (chars.drop 1).dropWhile Code.continuesIdentifier := by
  rcases openingName?_cases chars with ⟨c, behind, rfl, opens, same⟩ | ⟨nothing, _⟩
  · rw [same] at found
    cases found
    simp [Code.continuesIdentifier_of_opens opens]
  · rw [nothing] at found
    cases found

/-- A segment that opens with no name does not open with one together with what follows it. -/
theorem EndsSegment.not_opens (ends : EndsSegment rest)
    (none : ∀ c behind, chars = ':' :: c :: behind → Code.opensIdentifier c = false) :
    ∀ c behind, chars ++ rest = ':' :: c :: behind → Code.opensIdentifier c = false := by
  intro c behind same
  match chars with
  | [] => cases ends ':' (congrArg List.head? same)
  | [_] =>
      obtain ⟨_, same⟩ := List.cons.inj same
      rw [ends c (congrArg List.head? same)]
      exact Code.not_opensIdentifier_slash
  | _ :: _ :: more =>
      cases same
      exact none c more rfl

end Names

namespace PathToken

/-- The tokens of a segment. -/
def ofSegment (chars : List Char) : List PathToken :=
  match PathSegment.openingName? chars with
  | some name => .slot name :: ((chars.drop 1).dropWhile Code.continuesIdentifier).map .char
  | none => chars.map .char

variable {chars rest name reversed : List Char}

private theorem Place.after_of_ne {c : Char} (differs : '/' ≠ c) : Place.after c = .inside :=
  if_neg (Ne.symm differs)

/-- Inside a segment, outside a placeholder, each character stands for itself. -/
theorem scanFrom_inside (plain : '/' ∉ chars) :
    scanFrom .inside (chars ++ rest) = chars.map .char ++ scanFrom .inside rest := by
  induction chars with
  | nil => rfl
  | cons c cs ih =>
      rw [List.mem_cons, not_or] at plain
      rw [List.cons_append, scanFrom, Place.after_of_ne plain.1, ih plain.2, List.map_cons,
        List.cons_append]

/-- A name that has begun goes on as long as its characters may stand in an identifier. -/
theorem scanFrom_naming (plain : '/' ∉ chars) (ends : EndsSegment rest) :
    scanFrom (.naming reversed) (chars ++ rest) =
      .slot (reversed.reverse ++ chars.takeWhile Code.continuesIdentifier) ::
        ((chars.dropWhile Code.continuesIdentifier).map .char ++ scanFrom .inside rest) := by
  induction chars generalizing reversed with
  | nil =>
      cases rest with
      | nil => simp [scanFrom]
      | cons c cs =>
          obtain rfl := ends c rfl
          simp [scanFrom, Code.not_continuesIdentifier_slash]
  | cons c cs ih =>
      rw [List.mem_cons, not_or] at plain
      rw [List.cons_append, scanFrom, List.takeWhile_cons, List.dropWhile_cons]
      cases continues : Code.continuesIdentifier c with
      | true => simp [ih plain.2]
      | false => simp [Place.after_of_ne plain.1, scanFrom_inside plain.2]

/-- Where no placeholder begins, the beginning of a segment is read like its inside. -/
theorem scanFrom_opening_eq_inside {text : List Char}
    (none : ∀ c behind, text = ':' :: c :: behind → Code.opensIdentifier c = false) :
    scanFrom .opening text = scanFrom .inside text := by
  match text with
  | [] => rfl
  | [c] =>
      have nothing : scanFrom (Place.after c) [] = [] := by
        unfold Place.after
        split <;> rfl
      simp only [scanFrom, nothing]
  | c :: d :: cs =>
      have plain : (decide (c = ':') && Code.opensIdentifier d) = false := by
        by_cases colon : c = ':'
        · rw [none d cs (by rw [colon]), Bool.and_false]
        · rw [decide_eq_false colon, Bool.false_and]
      simp only [scanFrom, plain, Bool.false_eq_true, ↓reduceIte]

/-- A segment is read into its tokens, whatever follows it. -/
theorem scanFrom_opening (plain : '/' ∉ chars) (ends : EndsSegment rest) :
    scanFrom .opening (chars ++ rest) = ofSegment chars ++ scanFrom .inside rest := by
  rcases openingName?_cases chars with ⟨c, behind, rfl, opens, found⟩ | ⟨found, none⟩
  · simp only [List.mem_cons, not_or] at plain
    rw [ofSegment, found, List.cons_append, List.cons_append, scanFrom, opens]
    simp [scanFrom_naming plain.2.2 ends, Code.continuesIdentifier_of_opens opens]
  · rw [scanFrom_opening_eq_inside (ends.not_opens none), scanFrom_inside plain, ofSegment, found]

/-- A path without slashes is read as one segment. -/
theorem scan_segment (plain : '/' ∉ chars) : scan chars = ofSegment chars := by
  have nothing : scanFrom .inside [] = [] := rfl
  have scanned := scanFrom_opening plain endsSegment_nil
  rwa [List.append_nil, nothing, List.append_nil] at scanned

/-- Behind a slash a path is read anew. -/
theorem scan_slash (plain : '/' ∉ chars) (text : List Char) :
    scan (chars ++ '/' :: text) = ofSegment chars ++ .char '/' :: scan text :=
  scanFrom_opening plain (endsSegment_slash text)

/-- The tokens of a segment hold its characters. -/
theorem flatMap_chars_ofSegment (plain : '/' ∉ chars) :
    (ofSegment chars).flatMap PathToken.chars = chars := by
  rw [← scan_segment plain, flatMap_chars_scan]

end PathToken

private theorem placeholdersFrom_append (start : Nat) (first second : List PathToken) :
    placeholdersFrom start (first ++ second) = placeholdersFrom start first ++
      placeholdersFrom (start + byteCount (first.flatMap PathToken.chars)) second := by
  induction first generalizing start with
  | nil => rfl
  | cons token rest ih =>
      rw [List.cons_append, List.flatMap_cons, Text.byteCount_append, ← Nat.add_assoc]
      cases token with
      | char c => rw [placeholdersFrom, placeholdersFrom, ih]; rfl
      | slot name => rw [placeholdersFrom, placeholdersFrom, ih]; rfl

private theorem placeholdersFrom_chars (start : Nat) (chars : List Char) :
    placeholdersFrom start (chars.map .char) = [] := by
  induction chars generalizing start with
  | nil => rfl
  | cons c cs ih => exact ih _

/-- The tokens of a segment hold the placeholder that the segment opens with. -/
theorem placeholdersFrom_ofSegment (start : Nat) (chars : List Char) :
    placeholdersFrom start (PathToken.ofSegment chars) =
      (PathSegment.placeholder? ⟨start, chars⟩).toList := by
  unfold PathToken.ofSegment PathSegment.placeholder?
  cases PathSegment.openingName? chars with
  | none => exact placeholdersFrom_chars start chars
  | some name =>
      simp only [placeholdersFrom, placeholdersFrom_chars]
      rfl

/-- The placeholders of segments are that of the first and those of the others. -/
theorem filterMap_listFrom_cons (start : Nat) (chars : List Char) (texts : List (List Char)) :
    (PathSegment.listFrom start (chars :: texts)).filterMap PathSegment.placeholder? =
      (PathSegment.placeholder? ⟨start, chars⟩).toList ++
        (PathSegment.listFrom (start + byteCount chars + 1) texts).filterMap
          PathSegment.placeholder? := by
  rw [PathSegment.listFrom, List.filterMap_cons]
  cases PathSegment.placeholder? ⟨start, chars⟩ <;> rfl

/-- The placeholders that are read from segments with slashes between them are those that the
segments open with. -/
theorem placeholdersFrom_scan (start : Nat) (texts : List (List Char))
    (plain : ∀ chars ∈ texts, '/' ∉ chars) :
    placeholdersFrom start (PathToken.scan (['/'].intercalate texts)) =
      (PathSegment.listFrom start texts).filterMap PathSegment.placeholder? := by
  induction texts generalizing start with
  | nil => rfl
  | cons chars texts ih =>
      obtain ⟨plainHead, plain⟩ := List.forall_mem_cons.mp plain
      rw [filterMap_listFrom_cons]
      cases texts with
      | nil =>
          rw [List.intercalate_singleton, PathToken.scan_segment plainHead,
            placeholdersFrom_ofSegment]
          exact (List.append_nil _).symm
      | cons next others =>
          rw [List.intercalate_cons_cons, List.append_assoc, List.singleton_append,
            PathToken.scan_slash plainHead, placeholdersFrom_append,
            PathToken.flatMap_chars_ofSegment plainHead, placeholdersFrom_ofSegment,
            placeholdersFrom]
          exact congrArg _ (ih _ plain)

/-- The placeholders of a path are those that its segments open with. -/
theorem placeholders_eq_filterMap (path : String) :
    placeholders path = (PathSegment.ofPath path).filterMap PathSegment.placeholder? := by
  have scanned := placeholdersFrom_scan 0 (path.toList.splitOn '/') fun _ => not_mem_of_mem_splitOn
  rwa [List.intercalate_splitOn] at scanned

end RouteClient
