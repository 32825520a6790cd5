import RouteClient.Proofs.Route.Segments

/-!
# Searching a path for placeholders

Placeholders can be found with a pattern: a colon and a name behind the beginning of the path or a
slash. The search takes the leftmost match, goes on behind it, and never sees a character twice, not
even the slash that it has taken (`PathMatch.search`). It finds the placeholders that the reader of
the path lists, and these stand segment by segment (`placeholders_bySegment`).
-/

namespace RouteClient

open Text (byteCount)

/-- A match of the pattern at the head of a text: what stands before the colon, the name behind it,
and what follows the name. -/
structure PathMatch where
  lead : List Char
  name : List Char
  rest : List Char

namespace PathMatch

/-- A colon and a name of as many characters as possible. -/
def named? (lead : List Char) : List Char → Option PathMatch
  | ':' :: c :: rest =>
    if Code.opensIdentifier c then
      some ⟨lead, c :: rest.takeWhile Code.continuesIdentifier,
        rest.dropWhile Code.continuesIdentifier⟩
    else none
  | _ => none

/-- A colon and a name behind a slash. -/
def slashed? : List Char → Option PathMatch
  | '/' :: rest => named? ['/'] rest
  | _ => none

/-- The match at the head of a text, which may be the beginning of the path. -/
def here? (atStart : Bool) (text : List Char) : Option PathMatch :=
  if atStart then (named? [] text).or (slashed? text) else slashed? text

/-- The placeholder of a match that stands at a byte of the path. -/
def placeholder (place : Nat) (m : PathMatch) : Placeholder :=
  ⟨String.ofList m.name, place + byteCount m.lead,
    place + byteCount m.lead + byteCount (':' :: m.name)⟩

variable {atStart : Bool} {lead text : List Char} {m : PathMatch}

private theorem length_rest_of_named (found : named? lead text = some m) :
    m.rest.length < text.length := by
  unfold named? at found
  split at found
  next c rest =>
    split at found
    next =>
      cases found
      have shorter := (List.dropWhile_sublist Code.continuesIdentifier (l := rest)).length_le
      simp only [List.length_cons]
      omega
    next => cases found
  next => cases found

private theorem length_rest_of_slashed (found : slashed? text = some m) :
    m.rest.length < text.length := by
  unfold slashed? at found
  split at found
  next rest => exact Nat.lt_succ_of_lt (length_rest_of_named found)
  next => cases found

private theorem length_rest_of_here (found : here? atStart text = some m) :
    m.rest.length < text.length := by
  cases atStart with
  | false => exact length_rest_of_slashed found
  | true =>
      rcases Option.or_eq_some_iff.mp found with first | ⟨_, second⟩
      · exact length_rest_of_named first
      · exact length_rest_of_slashed second

/-- The placeholders of the matches in a text that stands at a byte of the path, from left to right:
behind a match the search goes on with what follows, and elsewhere with the next character. -/
def search (place : Nat) (atStart : Bool) (text : List Char) : List Placeholder :=
  match _found : here? atStart text with
  | some m => m.placeholder place :: search (m.placeholder place).stop false m.rest
  | none =>
    match text with
    | [] => []
    | c :: cs => search (place + c.utf8Size) false cs
termination_by text.length
decreasing_by
  · exact length_rest_of_here _found
  · exact Nat.lt_succ_self _

/-- The placeholders of the matches in a path. -/
def inPath (path : String) : List Placeholder := search 0 true path.toList

private theorem search_nil (place : Nat) (atStart : Bool) : search place atStart [] = [] := by
  have nothing : here? atStart [] = none := by cases atStart <;> rfl
  rw [search]
  split
  next m found =>
    rw [nothing] at found
    cases found
  next => rfl

/-- A match is taken where it is found. -/
theorem search_of_here (place : Nat) (found : here? atStart text = some m) :
    search place atStart text =
      m.placeholder place :: search (m.placeholder place).stop false m.rest := by
  rw [search]
  split
  next other same =>
    rw [found] at same
    cases same
    rfl
  next same =>
    rw [found] at same
    cases same

/-- Where nothing matches, the search goes on with the next character. -/
theorem search_cons_of_none (place : Nat) {c : Char} {cs : List Char}
    (nothing : here? atStart (c :: cs) = none) :
    search place atStart (c :: cs) = search (place + c.utf8Size) false cs := by
  rw [search]
  split
  next m found =>
    rw [nothing] at found
    cases found
  next => rfl

/-- The search depends on the place in the path only through the match there. -/
theorem search_congr (place : Nat) (same : here? true text = here? false text) :
    search place true text = search place false text := by
  cases found : here? false text with
  | some m => rw [search_of_here place (same.trans found), search_of_here place found]
  | none =>
      cases text with
      | nil => rw [search_nil, search_nil]
      | cons c cs =>
          rw [search_cons_of_none place (same.trans found), search_cons_of_none place found]

section Segment

variable {chars rest name : List Char}

/-- The search passes over the inside of a segment. -/
theorem search_inside (place : Nat) (plain : '/' ∉ chars) :
    search place false (chars ++ rest) = search (place + byteCount chars) false rest := by
  induction chars generalizing place with
  | nil => rfl
  | cons c cs ih =>
      rw [List.mem_cons, not_or] at plain
      have nothing : here? false (c :: (cs ++ rest)) = none := by
        simp [here?, slashed?, Ne.symm plain.1]
      rw [List.cons_append, search_cons_of_none place nothing, ih _ plain.2, byteCount,
        Nat.add_assoc]

/-- A match in a segment ends with the segment. -/
theorem named?_append (lead : List Char) (ends : EndsSegment rest) :
    named? lead (chars ++ rest) = (PathSegment.openingName? chars).map fun name =>
      ⟨lead, name, (chars.drop 1).dropWhile Code.continuesIdentifier ++ rest⟩ := by
  rcases openingName?_cases chars with ⟨c, behind, rfl, opens, found⟩ | ⟨found, none⟩
  · rw [found, List.cons_append, List.cons_append, named?, if_pos opens, ends.takeWhile_append,
      ends.dropWhile_append]
    simp [Code.continuesIdentifier_of_opens opens]
  · rw [found, Option.map_none]
    unfold named?
    split
    next c behind same => rw [ends.not_opens none c behind same, if_neg Bool.false_ne_true]
    next => rfl

/-- Behind a match in a segment the search goes on behind the segment. -/
theorem search_rest (place : Nat) (lead : List Char) (plain : '/' ∉ chars)
    (found : PathSegment.openingName? chars = some name) :
    search (place + byteCount lead + byteCount (':' :: name)) false
        ((chars.drop 1).dropWhile Code.continuesIdentifier ++ rest) =
      search (place + byteCount lead + byteCount chars) false rest := by
  have split := eq_of_openingName? found
  have plainBehind : '/' ∉ (chars.drop 1).dropWhile Code.continuesIdentifier := by
    intro member
    rw [split] at plain
    exact plain (List.mem_append_right _ member)
  have size : byteCount chars = byteCount (':' :: name) +
      byteCount ((chars.drop 1).dropWhile Code.continuesIdentifier) := by
    rw [← Text.byteCount_append, ← split]
  rw [search_inside _ plainBehind, size, Nat.add_assoc]

/-- Behind a slash the search finds the placeholder that the segment opens with. -/
theorem search_slash (place : Nat) (plain : '/' ∉ chars) (ends : EndsSegment rest) :
    search place false ('/' :: (chars ++ rest)) =
      (PathSegment.placeholder? ⟨place + 1, chars⟩).toList ++
        search (place + 1 + byteCount chars) false rest := by
  have matched : here? false ('/' :: (chars ++ rest)) = _ := named?_append ['/'] ends
  cases found : PathSegment.openingName? chars with
  | none =>
      rw [found] at matched
      rw [search_cons_of_none place matched, search_inside _ plain, PathSegment.placeholder?, found]
      rfl
  | some name =>
      rw [found] at matched
      rw [search_of_here place matched, placeholder, search_rest place ['/'] plain found,
        PathSegment.placeholder?, found]
      rfl

/-- At the beginning of a path the search finds the placeholder that the first segment opens
with. -/
theorem search_first (place : Nat) (plain : '/' ∉ chars) (ends : EndsSegment rest) :
    search place true (chars ++ rest) = (PathSegment.placeholder? ⟨place, chars⟩).toList ++
      search (place + byteCount chars) false rest := by
  have matched : here? true (chars ++ rest) = _ :=
    congrArg (Option.or · (slashed? (chars ++ rest))) (named?_append [] ends)
  cases found : PathSegment.openingName? chars with
  | none =>
      -- What is matched here, if anything, has a slash in front, as it would have elsewhere.
      rw [found] at matched
      rw [search_congr place matched, search_inside _ plain, PathSegment.placeholder?, found]
      rfl
  | some name =>
      rw [found] at matched
      rw [search_of_here place matched, placeholder, search_rest place [] plain found,
        PathSegment.placeholder?, found]
      rfl

end Segment

section Segments

variable {chars : List Char} {texts : List (List Char)}

/-- Behind a slash the search finds the placeholders that the following segments open with. -/
theorem search_segments (place : Nat) (plainHead : '/' ∉ chars)
    (plain : ∀ chars ∈ texts, '/' ∉ chars) :
    search place false ('/' :: ['/'].intercalate (chars :: texts)) =
      (PathSegment.listFrom (place + 1) (chars :: texts)).filterMap PathSegment.placeholder? := by
  induction texts generalizing place chars with
  | nil =>
      have last := search_slash place plainHead endsSegment_nil
      rw [List.append_nil, search_nil, List.append_nil] at last
      rw [List.intercalate_singleton, filterMap_listFrom_cons, last]
      exact (List.append_nil _).symm
  | cons next others ih =>
      obtain ⟨plainNext, plain⟩ := List.forall_mem_cons.mp plain
      have goesOn := search_slash place plainHead
        (endsSegment_slash (['/'].intercalate (next :: others)))
      rw [ih _ plainNext plain] at goesOn
      rw [List.intercalate_cons_cons, List.append_assoc, List.singleton_append,
        filterMap_listFrom_cons, goesOn]

/-- The search in segments with slashes between them finds the placeholders that they open with. -/
theorem search_path (plainHead : '/' ∉ chars) (plain : ∀ chars ∈ texts, '/' ∉ chars) :
    search 0 true (['/'].intercalate (chars :: texts)) =
      (PathSegment.listFrom 0 (chars :: texts)).filterMap PathSegment.placeholder? := by
  rw [filterMap_listFrom_cons]
  cases texts with
  | nil =>
      have only := search_first 0 plainHead endsSegment_nil
      rw [List.append_nil, search_nil] at only
      rw [List.intercalate_singleton, only]
      rfl
  | cons next others =>
      obtain ⟨plainNext, plain⟩ := List.forall_mem_cons.mp plain
      rw [List.intercalate_cons_cons, List.append_assoc, List.singleton_append,
        search_first 0 plainHead (endsSegment_slash _), search_segments _ plainNext plain]

end Segments

end PathMatch

/-- The search of a path finds the placeholders that its segments open with. -/
theorem inPath_eq_filterMap (path : String) :
    PathMatch.inPath path = (PathSegment.ofPath path).filterMap PathSegment.placeholder? := by
  obtain ⟨chars, texts, split⟩ := List.exists_cons_of_ne_nil (List.splitOn_ne_nil '/' path.toList)
  have plain : ∀ part ∈ chars :: texts, '/' ∉ part := by
    intro part member
    exact not_mem_of_mem_splitOn (split ▸ member)
  obtain ⟨plainHead, plain⟩ := List.forall_mem_cons.mp plain
  have found := PathMatch.search_path plainHead plain
  rw [← split, List.intercalate_splitOn] at found
  exact found

/-- The bytes of a placeholder are those of a colon and its name, which stand together in the
path. -/
theorem placeholders_split {path : String} {h : Placeholder} (member : h ∈ placeholders path) :
    ∃ first last, path.toList = first ++ ((':' :: h.name.toList) ++ last) ∧
      h.start = byteCount first ∧ h.stop = byteCount first + byteCount (':' :: h.name.toList) := by
  obtain ⟨first, last, split, starts, stops⟩ := placeholdersFrom_split member
  rw [PathToken.flatMap_chars_scan] at split
  rw [Nat.zero_add] at starts
  exact ⟨first, last, split, starts, starts ▸ stops⟩

/-- **Placeholders segment by segment.** Reading a path and searching it from left to right give the
same placeholders: one for each segment that opens with a name, in the order of the segments. Each
takes up exactly the bytes of its colon and its name, and ends before the next one begins. Which
name a segment opens with is said by its characters (`PathSegment.OpensWith`). -/
theorem placeholders_bySegment (path : String) :
    placeholders path = PathMatch.inPath path ∧
      placeholders path = (PathSegment.ofPath path).filterMap PathSegment.placeholder? ∧
        (∀ segment h, PathSegment.placeholder? segment = some h ↔
          ∃ name, PathSegment.OpensWith segment.chars name ∧
            h = ⟨String.ofList name, segment.start, segment.start + byteCount (':' :: name)⟩) ∧
        ((placeholders path).Pairwise fun a b => a.start < b.start ∧ a.stop ≤ b.start) ∧
          ∀ h ∈ placeholders path, ∃ first last,
            path.toList = first ++ ((':' :: h.name.toList) ++ last) ∧
              h.start = byteCount first ∧
                h.stop = byteCount first + byteCount (':' :: h.name.toList) := by
  have listed := placeholders_eq_filterMap path
  refine ⟨listed.trans (inPath_eq_filterMap path).symm, listed, fun segment h =>
    PathSegment.placeholder?_eq_some, ?_, fun h => placeholders_split⟩
  refine (placeholders_pairwise path).imp_of_mem ?_
  intro a b member _ apart
  obtain ⟨_, _, _, starts, stops⟩ := placeholders_split member
  have colon : 0 < ':'.utf8Size := Char.utf8Size_pos _
  rw [byteCount] at stops
  exact ⟨by omega, apart⟩

/-- A colon within a segment, a segment that is a colon alone, characters of several bytes, and text
behind a name. -/
example : placeholders "/é:a//:/:x-y/::b/:$1" = [⟨"x", 9, 11⟩, ⟨"$1", 18, 21⟩] := by decide

end RouteClient
