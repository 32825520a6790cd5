import RouteClient.Proofs.Route.Search

/-!
# Literal segments of a path

The module of a route drops each segment that begins with a colon, whereas a placeholder is found
only where a name follows the colon. What the module keeps is literal text of the path, therefore,
but literal text that begins with a colon is missing in it. `ofRoutePath_eq_literals_iff` says for
which paths nothing is missing.
-/

namespace RouteClient

open Text (byteCount)

namespace PathSegment

/-- A placeholder lies in a segment. -/
def Holds (s : PathSegment) (h : Placeholder) : Prop := s.start ≤ h.start ∧ h.stop ≤ s.stop

/-- Whether a segment holds a placeholder can be decided. -/
instance (s : PathSegment) (h : Placeholder) : Decidable (s.Holds h) :=
  inferInstanceAs (Decidable (_ ∧ _))

/-- The segments of a path that are not empty and in which no placeholder is found. -/
def literals (path : String) : List PathSegment :=
  (ofPath path).filter fun s => s.chars ≠ [] ∧ ¬∃ h ∈ placeholders path, s.Holds h

/-- The characters of a segment as a text. -/
def text (s : PathSegment) : String := String.ofList s.chars

/-- A segment begins with a colon. -/
def HasColon (s : PathSegment) : Prop := s.chars.head? = some ':'

instance (s : PathSegment) : Decidable s.HasColon := inferInstanceAs (Decidable (_ = _))

/-- Behind its first character a segment goes on with one that may open a name. -/
def NamesField (s : PathSegment) : Prop :=
  ∃ c ∈ (s.chars.drop 1).head?, Code.opensIdentifier c = true

section Placing

variable {s t : PathSegment} {h : Placeholder} {start : Nat} {texts : List (List Char)}
  {path : String}

private theorem start_le_of_mem_listFrom (member : s ∈ listFrom start texts) : start ≤ s.start := by
  induction texts generalizing start with
  | nil => exact absurd member List.not_mem_nil
  | cons chars rest ih =>
      rcases List.mem_cons.mp member with rfl | later
      · exact Nat.le_refl start
      · have beyond := ih later
        omega

/-- Segments stand one behind the other, with a byte between them. -/
theorem listFrom_pairwise (start : Nat) (texts : List (List Char)) :
    (listFrom start texts).Pairwise fun s t => s.stop < t.start := by
  induction texts generalizing start with
  | nil => exact List.Pairwise.nil
  | cons chars rest ih =>
      refine List.Pairwise.cons (fun t later => ?_) (ih _)
      exact start_le_of_mem_listFrom later

/-- Two segments of a path are the same or lie apart. -/
theorem eq_or_apart (first : s ∈ ofPath path) (second : t ∈ ofPath path) :
    s = t ∨ s.stop < t.start ∨ t.stop < s.start := by
  refine List.Pairwise.forall_of_forall_of_flip (R := fun s t : PathSegment =>
    s = t ∨ s.stop < t.start ∨ t.stop < s.start) ?_ ?_ ?_ first second
  · intro s _
    exact .inl rfl
  · exact (listFrom_pairwise 0 _).imp fun before => .inr (.inl before)
  · exact (listFrom_pairwise 0 _).imp fun before => .inr (.inr before)

/-- The placeholder that a segment opens with begins with the segment and ends in it. -/
theorem bounds_of_placeholder (found : t.placeholder? = some h) :
    h.start = t.start ∧ h.stop ≤ t.stop := by
  obtain ⟨name, opening, rfl⟩ := Option.map_eq_some_iff.mp found
  have size := congrArg byteCount (eq_of_openingName? opening)
  rw [Text.byteCount_append] at size
  refine ⟨rfl, ?_⟩
  change t.start + byteCount (':' :: name) ≤ t.start + byteCount t.chars
  omega

/-- A placeholder that begins in a segment of its path is the one that the segment opens with. -/
theorem placeholder_of_mem (member : s ∈ ofPath path) (listed : h ∈ placeholders path)
    (begins : s.start ≤ h.start) (ends : h.start ≤ s.stop) : s.placeholder? = some h := by
  rw [placeholders_eq_filterMap] at listed
  obtain ⟨t, other, found⟩ := List.mem_filterMap.mp listed
  have place := (bounds_of_placeholder found).1
  have stops : t.start ≤ t.stop := Nat.le_add_right _ _
  rcases eq_or_apart member other with rfl | before | behind
  · exact found
  · omega
  · omega

/-- The placeholder of a segment is one of the path. -/
theorem mem_of_placeholder (member : s ∈ ofPath path) (found : s.placeholder? = some h) :
    h ∈ placeholders path := by
  rw [placeholders_eq_filterMap]
  exact List.mem_filterMap.mpr ⟨s, member, found⟩

end Placing

section Opening

variable {s : PathSegment} {path : String}

/-- A segment has a placeholder when a colon and the name of a field open it. -/
theorem exists_placeholder_iff :
    (∃ h, s.placeholder? = some h) ↔ s.HasColon ∧ s.NamesField := by
  obtain ⟨start, chars⟩ := s
  rw [placeholder?]
  rcases openingName?_cases chars with ⟨c, behind, rfl, opens, found⟩ | ⟨found, closed⟩
  · rw [found]
    exact iff_of_true ⟨_, rfl⟩ ⟨rfl, c, rfl, opens⟩
  · rw [found]
    refine iff_of_false ?_ ?_
    · rintro ⟨h, opening⟩
      exact Option.some_ne_none h opening.symm
    · rintro ⟨colon, c, follows, opens⟩
      rcases chars with _ | ⟨first, _ | ⟨second, behind⟩⟩
      · cases colon
      · cases follows
      · cases colon
        cases follows
        exact absurd opens (Bool.eq_false_iff.mp (closed _ _ rfl))

/-- A placeholder is found in a segment when a name follows the colon that the segment begins
with. -/
theorem exists_holds_iff (member : s ∈ ofPath path) :
    (∃ h ∈ placeholders path, s.Holds h) ↔ s.HasColon ∧ s.NamesField := by
  rw [← exists_placeholder_iff]
  constructor
  · rintro ⟨h, listed, starts, stops⟩
    obtain ⟨first, _, _, begins, ends⟩ := placeholders_split listed
    exact ⟨h, placeholder_of_mem member listed starts (by omega)⟩
  · rintro ⟨h, found⟩
    obtain ⟨starts, stops⟩ := bounds_of_placeholder found
    exact ⟨h, mem_of_placeholder member found, by omega, stops⟩

/-- A placeholder that is found in a segment begins with it. -/
theorem exists_start_iff (member : s ∈ ofPath path) :
    (∃ h ∈ placeholders path, h.start = s.start) ↔ s.HasColon ∧ s.NamesField := by
  rw [← exists_placeholder_iff]
  constructor
  · rintro ⟨h, listed, starts⟩
    have stops : s.start ≤ s.stop := Nat.le_add_right _ _
    exact ⟨h, placeholder_of_mem member listed (by omega) (by omega)⟩
  · rintro ⟨h, found⟩
    exact ⟨h, mem_of_placeholder member found, (bounds_of_placeholder found).1⟩

end Opening

section Literals

variable {s : PathSegment} {path : String}

private theorem HasColon.ne_nil (colon : s.HasColon) : s.chars ≠ [] := by
  intro empty
  rw [HasColon, empty] at colon
  cases colon

/-- A segment is literal when it is neither empty nor opened by a colon. -/
theorem isLiteralSegment_iff :
    ModulePath.isLiteralSegment s.chars = true ↔ s.chars ≠ [] ∧ ¬s.HasColon := by
  rw [HasColon]
  cases s.chars with
  | nil => exact iff_of_false Bool.false_ne_true fun shape => shape.1 rfl
  | cons c cs => simp [ModulePath.isLiteralSegment]

private theorem mem_literals : s ∈ literals path ↔
    s ∈ ofPath path ∧ s.chars ≠ [] ∧ ¬(s.HasColon ∧ s.NamesField) := by
  rw [literals, List.mem_filter, decide_eq_true_iff]
  exact and_congr_right fun member => and_congr_right fun _ => not_congr (exists_holds_iff member)

private theorem map_chars_listFrom (start : Nat) (texts : List (List Char)) :
    (listFrom start texts).map (·.chars) = texts := by
  induction texts generalizing start with
  | nil => rfl
  | cons chars rest ih => rw [listFrom, List.map_cons, ih]

/-- The module of a path keeps the literal segments that do not begin with a colon. -/
theorem segments_ofRoutePath (path : String) : (ModulePath.ofRoutePath path).segments =
    ((literals path).filter fun s => ¬s.HasColon).map text := by
  have kept : (ofPath path).filter (fun s => ModulePath.isLiteralSegment s.chars) =
      (literals path).filter fun s => ¬s.HasColon := by
    rw [literals, List.filter_filter]
    refine List.filter_congr fun s member => Bool.eq_iff_iff.mpr ?_
    rw [isLiteralSegment_iff, Bool.and_eq_true, decide_eq_true_iff, decide_eq_true_iff,
      exists_holds_iff member]
    tauto
  have parts : path.toList.splitOn '/' = (ofPath path).map (·.chars) :=
    (map_chars_listFrom 0 _).symm
  rw [← kept, ModulePath.ofRoutePath, parts, List.filter_map, List.map_map]
  rfl

/-- All literal segments of a path are kept when no literal segment begins with a colon. -/
theorem segments_eq_literals_iff (path : String) :
    (ModulePath.ofRoutePath path).segments = (literals path).map text ↔
      ∀ s ∈ ofPath path, s.HasColon → s.NamesField := by
  rw [segments_ofRoutePath]
  constructor
  · intro same s member colon
    by_contra closed
    have sameLength := congrArg List.length same
    rw [List.length_map, List.length_map] at sameLength
    have kept := List.filter_eq_self.mp (List.filter_sublist.eq_of_length sameLength) s
      (mem_literals.mpr ⟨member, colon.ne_nil, fun names => closed names.2⟩)
    exact of_decide_eq_true kept colon
  · intro named
    rw [List.filter_eq_self.mpr]
    intro s literal
    obtain ⟨member, _, plain⟩ := mem_literals.mp literal
    exact decide_eq_true fun colon => plain ⟨colon, named s member colon⟩

end Literals

end PathSegment

open PathSegment in
/-- **When modules are named by the literal segments of paths.** A segment that is not empty is
dropped from the module of its path exactly when a placeholder begins there, unless it begins with a
colon that no name follows. The module therefore consists of the literal segments of the path that
do not begin with a colon, and it consists of all literal segments exactly when a name follows each
colon that begins a segment. -/
theorem ofRoutePath_eq_literals_iff (path : String) :
    (∀ s ∈ ofPath path, s.chars ≠ [] →
      ((ModulePath.isLiteralSegment s.chars = false ↔
          ∃ h ∈ placeholders path, h.start = s.start) ↔ (s.HasColon → s.NamesField))) ∧
      (ModulePath.ofRoutePath path).segments =
          ((literals path).filter fun s => ¬s.HasColon).map text ∧
        ((ModulePath.ofRoutePath path).segments = (literals path).map text ↔
          ∀ s ∈ ofPath path, s.HasColon → s.NamesField) := by
  refine ⟨fun s member nonempty => ?_, segments_ofRoutePath path, segments_eq_literals_iff path⟩
  have dropped : ModulePath.isLiteralSegment s.chars = false ↔ s.HasColon := by
    rw [← Bool.not_eq_true, isLiteralSegment_iff, not_and, not_not]
    exact ⟨fun implied => implied nonempty, fun colon _ => colon⟩
  rw [dropped, exists_start_iff member]
  exact ⟨fun same colon => (same.mp colon).2, fun named =>
    ⟨fun colon => ⟨colon, named colon⟩, And.left⟩⟩

/-- A colon and a digit are literal text to the placeholders, but the module has no such segment. -/
theorem ofRoutePath_ne_literals_secondFactor :
    (ModulePath.ofRoutePath "/users/:2fa").segments = ["users"] ∧
      (PathSegment.literals "/users/:2fa").map PathSegment.text = ["users", ":2fa"] ∧
        (ModulePath.ofRoutePath "/users/:2fa").segments ≠
          (PathSegment.literals "/users/:2fa").map PathSegment.text := by
  decide

end RouteClient
