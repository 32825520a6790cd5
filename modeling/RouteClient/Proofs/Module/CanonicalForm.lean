import Mathlib.Data.List.Induction
import RouteClient.Proofs.Module.FilePaths

/-!
# Modules and their texts

The module of a route path is written as a path without placeholders and idle slashes, and read from
this text it is the same module again (`ModulePath.IsCanonical.ofRoutePath_text`). The segments of a
path are those of its two parts wherever it is cut at a slash, and a module is written like the
module above it with one segment more. Going up from module to module, `ModulePath.climb`, ends at
the root after one step for each segment. `ModulePath.ofRoutePath_canonical` puts this together.
-/

namespace RouteClient

namespace ModulePath

/-- Every module is reached from the root by submodules. -/
@[elab_as_elim]
theorem child_induction {motive : ModulePath → Prop} (m : ModulePath) (root : motive .root)
    (child : ∀ above name, motive above → motive (above.child name)) : motive m := by
  obtain ⟨segments⟩ := m
  induction segments using List.reverseRecOn with
  | nil => exact root
  | append_singleton above name ih => exact child ⟨above⟩ name ih

variable {m other : ModulePath} {name : String}

section Steps

/-- The root has no module above it. -/
@[simp] theorem parent?_root : root.parent? = none := rfl

/-- A submodule lies in the module it is a submodule of. -/
@[simp] theorem parent?_child (m : ModulePath) (name : String) : (m.child name).parent? = some m :=
  (eq_child_iff.mp rfl).1

/-- The last segment of a submodule is its name. -/
@[simp] theorem last?_child (m : ModulePath) (name : String) : (m.child name).last? = some name :=
  (eq_child_iff.mp rfl).2

/-- A submodule lies one step deeper. -/
@[simp] theorem depth_child (m : ModulePath) (name : String) :
    (m.child name).depth = m.depth + 1 := List.length_append

private theorem child_ne_root (m : ModulePath) (name : String) : m.child name ≠ .root := by
  intro same
  have size := congrArg depth same
  rw [depth_child] at size
  exact absurd size (Nat.succ_ne_zero _)

/-- A module comes before its submodules. -/
theorem lt_child (m : ModulePath) (name : String) : m < m.child name := by
  change m.segments < m.segments ++ [name]
  have longer : m.segments ++ [] < m.segments ++ [name] :=
    List.append_left_lt (List.nil_lt_cons name [])
  rwa [List.append_nil] at longer

/-- The module that is reached by going up a number of times; there is none above the root. -/
def climb : (steps : Nat) → ModulePath → Option ModulePath
  | 0, m => some m
  | steps + 1, m => m.parent?.bind (climb steps)

/-- Nothing is above the root. -/
@[simp] theorem climb_root (steps : Nat) : climb (steps + 1) root = none := by
  rw [climb, parent?_root, Option.bind_none]

/-- The first step up from a submodule leads to its module. -/
@[simp] theorem climb_child (steps : Nat) (m : ModulePath) (name : String) :
    climb (steps + 1) (m.child name) = climb steps m := by
  rw [climb, parent?_child, Option.bind_some]

/-- It takes one step for each segment to reach the root. -/
theorem climb_eq_root (m : ModulePath) (steps : Nat) :
    climb steps m = some root ↔ steps = m.depth := by
  induction m using child_induction generalizing steps with
  | root =>
      cases steps with
      | zero => exact iff_of_true rfl rfl
      | succ steps => exact iff_of_false (by simp) (Nat.succ_ne_zero steps)
  | child above name ih =>
      cases steps with
      | zero => simp [climb, child_ne_root]
      | succ steps => rw [climb_child, depth_child, ih, Nat.succ_inj]

/-- Each step on the way up leads to the parent, which is a smaller module. -/
theorem exists_climb (m : ModulePath) {steps : Nat} (below : steps < m.depth) :
    ∃ lower upper, climb steps m = some lower ∧ climb (steps + 1) m = some upper ∧
      lower.parent? = some upper ∧ upper < lower := by
  induction m using child_induction generalizing steps with
  | root => exact absurd below (Nat.not_lt_zero steps)
  | child above name ih =>
      cases steps with
      | zero => exact ⟨above.child name, above, rfl, by simp [climb], by simp, lt_child above name⟩
      | succ steps =>
          rw [depth_child] at below
          simpa using ih (Nat.lt_of_succ_lt_succ below)

/-- Above a submodule are its module and those above that. -/
theorem ancestors_child (m : ModulePath) (name : String) :
    (m.child name).ancestors = m :: m.ancestors := by
  have kept : ∀ n ∈ List.range m.depth,
      (⟨(m.child name).segments.take n⟩ : ModulePath) = ⟨m.segments.take n⟩ := by
    intro n member
    have within : n ≤ m.segments.length := (List.mem_range.mp member).le
    rw [child, List.take_append_of_le_length within]
  rw [ancestors, depth_child, List.range_succ, List.map_append, List.map_congr_left kept,
    List.reverse_append, List.map_singleton, List.reverse_singleton, List.singleton_append, child,
    depth, List.take_left, ancestors, depth]

/-- The ancestors of a module are what is met on the way up. -/
theorem getElem?_ancestors (m : ModulePath) (n : Nat) : m.ancestors[n]? = climb (n + 1) m := by
  induction m using child_induction generalizing n with
  | root => exact (climb_root n).symm
  | child above name ih =>
      rw [ancestors_child, climb_child]
      cases n with
      | zero => rfl
      | succ n => rw [List.getElem?_cons_succ, ih]

end Steps

section Texts

/-- A module is written like the module above it, with its last segment behind a slash. The text of
the root is a slash itself. -/
theorem text_child (m : ModulePath) (name : String) :
    (m.child name).text = m.text ++ (if m = .root then "" else "/") ++ name := by
  by_cases isRoot : m = .root
  · subst isRoot
    rw [if_pos rfl, String.append_empty, text, text, directory, directory, child, root,
      List.nil_append, String.intercalate_singleton, String.intercalate_nil, String.append_empty]
  · have inside : m.segments ≠ [] := fun empty => isRoot (congrArg ModulePath.mk empty)
    rw [if_neg isRoot, text, text, directory, directory, child,
      String.intercalate_append_of_ne_nil inside (List.cons_ne_nil _ _),
      String.intercalate_singleton]
    simp only [String.append_assoc]

/-- A module whose segments are literal segments of a path. -/
structure IsCanonical (m : ModulePath) : Prop where
  segmented : m.Segmented
  literal : ∀ segment ∈ m.segments, isLiteralSegment segment.toList = true

/-- The segments of a path are its parts that are neither empty nor opened by a colon. -/
theorem segments_ofRoutePath_eq (path : String) : (ofRoutePath path).segments =
    (PathText.parts path).filter (isLiteralSegment ·.toList) := by
  rw [ofRoutePath, PathText.parts, List.filter_map]
  simp [Function.comp_def]

/-- The module of every path is canonical. -/
theorem isCanonical_ofRoutePath (path : String) : (ofRoutePath path).IsCanonical where
  segmented := segmented_ofRoutePath path
  literal segment member := by
    rw [segments_ofRoutePath_eq] at member
    exact (List.mem_filter.mp member).2

/-- Where a path is cut at a slash, its segments are those of both sides. -/
theorem segments_ofRoutePath_slash (front back : String) :
    (ofRoutePath (front ++ "/" ++ back)).segments =
      (ofRoutePath front).segments ++ (ofRoutePath back).segments := by
  simp only [segments_ofRoutePath_eq, PathText.parts_slash, List.filter_append]

/-- The module of a directory of literal segments has these segments. -/
theorem IsCanonical.segments_directory (canonical : m.IsCanonical) :
    (ofRoutePath m.directory).segments = m.segments := by
  rw [segments_ofRoutePath_eq, directory]
  by_cases empty : m.segments = []
  · rw [empty, String.intercalate_nil]
    decide
  · rw [PathText.parts_intercalate empty canonical.segmented]
    exact List.filter_eq_self.mpr canonical.literal

/-- A module is read from its text. -/
theorem IsCanonical.ofRoutePath_text (canonical : m.IsCanonical) : ofRoutePath m.text = m := by
  have opening : (ofRoutePath "").segments = [] := by decide
  have segments := segments_ofRoutePath_slash "" m.directory
  rw [opening, canonical.segments_directory, String.empty_append, List.nil_append] at segments
  exact congrArg ModulePath.mk segments

/-- Modules with one text are the same. -/
theorem IsCanonical.eq_of_text (canonical : m.IsCanonical) (canonicalToo : other.IsCanonical)
    (same : m.text = other.text) : m = other := by
  rw [← canonical.ofRoutePath_text, same, canonicalToo.ofRoutePath_text]

end Texts

/-- **Modules are a canonical form of route paths.** The text of a module is a path of the same
module, and cutting a path at a slash cuts its segments. A module but the root is written like its
parent with its last segment behind it. Going up from a module, each step leads to the parent, a
smaller module and one of the ancestors, and the root is reached after as many steps as the module
has segments. Modules with one text or one directory are the same. -/
theorem ofRoutePath_canonical :
    (∀ path, ofRoutePath (ofRoutePath path).text = ofRoutePath path) ∧
    (∀ front back, (ofRoutePath (front ++ "/" ++ back)).segments =
      (ofRoutePath front).segments ++ (ofRoutePath back).segments) ∧
    (∀ m : ModulePath, m ≠ .root → ∃ above name, m.parent? = some above ∧ m.last? = some name ∧
      m.text = above.text ++ (if above = .root then "" else "/") ++ name) ∧
    (∀ (m : ModulePath) (steps : Nat), (climb steps m = some .root ↔ steps = m.depth) ∧
      m.ancestors[steps]? = climb (steps + 1) m ∧
      (steps < m.depth → ∃ lower upper, climb steps m = some lower ∧
        climb (steps + 1) m = some upper ∧ lower.parent? = some upper ∧ upper < lower)) ∧
    (∀ path other, (ofRoutePath path).text = (ofRoutePath other).text →
      ofRoutePath path = ofRoutePath other) ∧
    ∀ path other, (ofRoutePath path).directory = (ofRoutePath other).directory →
      ofRoutePath path = ofRoutePath other := by
  have fromText (path other : String) (same : (ofRoutePath path).text = (ofRoutePath other).text) :
      ofRoutePath path = ofRoutePath other :=
    (isCanonical_ofRoutePath path).eq_of_text (isCanonical_ofRoutePath other) same
  refine ⟨fun path => (isCanonical_ofRoutePath path).ofRoutePath_text, segments_ofRoutePath_slash,
    fun m below => ?_,
    fun m steps => ⟨climb_eq_root m steps, getElem?_ancestors m steps, exists_climb m⟩, fromText,
    fun path other same => fromText path other (congrArg ("/" ++ ·) same)⟩
  obtain ⟨above, name, rfl⟩ := exists_eq_child below
  exact ⟨above, name, parent?_child above name, last?_child above name, text_child above name⟩

/-- Two paths of one module, which lies two steps below the root. -/
theorem ofRoutePath_saleItems :
    ofRoutePath "/sales/:saleId/items" ≠ .root ∧
    (∃ above name, (ofRoutePath "/sales/:saleId/items").parent? = some above ∧
      (ofRoutePath "/sales/:saleId/items").last? = some name ∧
      (ofRoutePath "/sales/:saleId/items").text =
        above.text ++ (if above = .root then "" else "/") ++ name) ∧
    1 < (ofRoutePath "/sales/:saleId/items").depth ∧
    (∃ lower upper, climb 1 (ofRoutePath "/sales/:saleId/items") = some lower ∧
      climb 2 (ofRoutePath "/sales/:saleId/items") = some upper ∧
      lower.parent? = some upper ∧ upper < lower) ∧
    (ofRoutePath "/sales/:saleId/items").text = (ofRoutePath "sales//items/").text ∧
    (ofRoutePath "/sales/:saleId/items").directory = (ofRoutePath "sales//items/").directory ∧
    ofRoutePath "/sales/:saleId/items" = ofRoutePath "sales//items/" := by
  have below : ofRoutePath "/sales/:saleId/items" ≠ .root := by decide
  have deep : 1 < (ofRoutePath "/sales/:saleId/items").depth := by decide
  have sameText : (ofRoutePath "/sales/:saleId/items").text =
      (ofRoutePath "sales//items/").text := by
    decide
  have sameDirectory : (ofRoutePath "/sales/:saleId/items").directory =
      (ofRoutePath "sales//items/").directory := by decide
  obtain ⟨_, _, texts, steps, byText, _⟩ := ofRoutePath_canonical
  exact ⟨below, texts _ below, deep, (steps _ 1).2.2 deep, sameText, sameDirectory,
    byText _ _ sameText⟩

end ModulePath

end RouteClient
