import Mathlib.Data.List.DropRight
import RouteClient.Project.Exclusion
import RouteClient.Proofs.Files.PathSteps

/-!
# Exclusion by segments

What remains of an entry without the slashes at its end is its core (`Exclusion.Trims`). An entry
covers a path exactly when the parts of its core are the first parts of the path
(`Exclusion.covers_iff`), so that only the cores of a list of entries decide what is excluded
(`isExcluded_congr`).
-/

namespace RouteClient

namespace Exclusion

/-- An entry is a core that does not end with a slash, with any number of slashes behind it. -/
structure Trims (entry core : String) : Prop where
  slashes : ∃ count, entry.toList = core.toList ++ List.replicate count '/'
  bare : PathText.endsWithSlash core = false

private theorem trimmed_append_slashes (text : List Char) (count : Nat) :
    trimmed (text ++ List.replicate count '/') = trimmed text := by
  induction count with
  | zero => rw [List.replicate_zero, List.append_nil]
  | succ count ih =>
      rw [List.replicate_succ', ← List.append_assoc, ← ih]
      exact List.rdropWhile_concat_pos _ _ '/' (decide_eq_true rfl)

private theorem trimmed_of_bare {text : List Char} (bare : text.getLast? ≠ some '/') :
    trimmed text = text := by
  apply List.rdropWhile_eq_self_iff.mpr
  intro nonempty ends
  apply bare
  rw [List.getLast?_eq_some_getLast nonempty, of_decide_eq_true ends]

private theorem getLast?_trimmed (text : List Char) : (trimmed text).getLast? ≠ some '/' := by
  intro ends
  obtain ⟨front, split⟩ := List.getLast?_eq_some_iff.mp ends
  have nonempty : trimmed text ≠ [] := split ▸ List.concat_ne_nil '/' front
  have last : (trimmed text).getLast nonempty = '/' := by simp [split]
  exact List.rdropWhile_last_not (· = '/') text nonempty (decide_eq_true last)

private theorem trimmed_append_rest (text : List Char) :
    ∃ count, text = trimmed text ++ List.replicate count '/' := by
  have slashes : ∀ c ∈ text.rtakeWhile (· = '/'), c = '/' := by
    intro c member
    simpa using List.mem_rtakeWhile_imp member
  refine ⟨(text.rtakeWhile (· = '/')).length, ?_⟩
  rw [← List.eq_replicate_of_mem slashes]
  exact List.rdropWhile_append_rtakeWhile.symm

/-- An entry is trimmed to what `trimmed` leaves of it. -/
theorem trims_iff {entry core : String} :
    Trims entry core ↔ trimmed entry.toList = core.toList := by
  constructor
  · rintro ⟨⟨count, split⟩, bare⟩
    rw [split, trimmed_append_slashes, trimmed_of_bare (of_decide_eq_false bare)]
  · intro core
    refine ⟨?_, decide_eq_false (core ▸ getLast?_trimmed entry.toList)⟩
    rw [← core]
    exact trimmed_append_rest entry.toList

/-- Every entry is trimmed to one text. -/
theorem existsUnique_trims (entry : String) : ∃! core, Trims entry core := by
  refine ⟨String.ofList (trimmed entry.toList), ?_, ?_⟩
  · exact trims_iff.mpr String.toList_ofList.symm
  · intro core trims
    rw [trims_iff.mp trims, String.ofList_toList]

private theorem trims_slashes (count : Nat) :
    Trims (String.ofList (List.replicate count '/')) "" := by
  refine ⟨⟨count, ?_⟩, by decide⟩
  rw [String.toList_ofList, String.toList_empty, List.nil_append]

private theorem restBehind?_eq_some {front text rest : List Char} :
    restBehind? front text = some rest ↔ text = front ++ rest := by
  fun_induction restBehind? front text with
  | case1 text => simp [eq_comm]
  | case2 c front => simp
  | case3 front c text ih => simp [ih]
  | case4 c front d text differ => simp [Ne.symm differ]

private theorem atBoundary_iff {rest : List Char} :
    atBoundary rest = true ↔ rest = [] ∨ ∃ more, rest = '/' :: more := by
  cases rest <;> simp [atBoundary]

private theorem covers_eq_true {entry path : String} : covers entry path = true ↔
    ∃ rest, path.toList = trimmed entry.toList ++ rest ∧ atBoundary rest = true := by
  simp only [← restBehind?_eq_some]
  unfold covers
  cases restBehind? (trimmed entry.toList) path.toList <;> simp

/-- An entry covers the path that is its core and the paths below it. -/
theorem covers_iff {entry core path : String} (trims : Trims entry core) :
    covers entry path = true ↔ PathText.parts core <+: PathText.parts path := by
  rw [covers_eq_true, trims_iff.mp trims, PathText.parts_prefix_iff]
  constructor
  · rintro ⟨rest, split, boundary⟩
    rcases atBoundary_iff.mp boundary with rfl | ⟨below, rfl⟩
    · left
      apply String.toList_injective
      rw [split, List.append_nil]
    · right
      refine ⟨String.ofList below, String.toList_injective ?_⟩
      simp [split]
  · rintro (rfl | ⟨below, rfl⟩)
    · exact ⟨[], (List.append_nil _).symm, rfl⟩
    · refine ⟨'/' :: below.toList, ?_, rfl⟩
      simp

end Exclusion

open Exclusion

variable {entries others : List String} {path : String}

/-- A path is left out when the parts of a trimmed entry begin it. -/
theorem isExcluded_eq_true : isExcluded entries path = true ↔
    ∃ entry ∈ entries, ∃ core, Trims entry core ∧ PathText.parts core <+: PathText.parts path := by
  unfold isExcluded
  rw [List.any_eq_true]
  apply exists_congr
  intro entry
  apply and_congr_right
  intro _
  obtain ⟨core, trims, unique⟩ := existsUnique_trims entry
  rw [covers_iff trims]
  constructor
  · intro below
    exact ⟨core, trims, below⟩
  · rintro ⟨other, trimsToo, below⟩
    rwa [← unique other trimsToo]

/-- What is excluded depends on the cores of the entries alone. -/
theorem isExcluded_congr
    (same : ∀ core, (∃ entry ∈ entries, Trims entry core) ↔ ∃ entry ∈ others, Trims entry core) :
    isExcluded entries path = isExcluded others path := by
  have byCore : ∀ list : List String, isExcluded list path = true ↔
      ∃ core, (∃ entry ∈ list, Trims entry core) ∧ PathText.parts core <+: PathText.parts path := by
    intro list
    rw [isExcluded_eq_true]
    tauto
  rw [Bool.eq_iff_iff, byCore, byCore]
  simp only [same]

/-- Entries that differ in the slashes at their ends have the same cores. -/
theorem exists_trims_congr (paired : List.Forall₂
      (fun entry other => ∃ core, Trims entry core ∧ Trims other core) entries others)
    (core : String) :
    (∃ entry ∈ entries, Trims entry core) ↔ ∃ entry ∈ others, Trims entry core := by
  induction paired with
  | nil => simp
  | cons alike _ ih =>
      obtain ⟨common, trims, trimsToo⟩ := alike
      simp only [List.mem_cons, exists_eq_or_imp, ih]
      rw [trims_iff, trims_iff, trims_iff.mp trims, trims_iff.mp trimsToo]

/-- **Exclusion goes by whole segments.** Neither the order of the entries, nor their repetition,
nor the slashes at their ends have influence on it, and further entries leave excluded what is
so. -/
theorem isExcluded_bySegments (entries : List String) (path : String) :
    (isExcluded entries path = true ↔
      ∃ entry ∈ entries, ∃ core, Trims entry core ∧
        PathText.parts core <+: PathText.parts path) ∧
    (∀ entry, ∃! core, Trims entry core) ∧
    (∀ count, Trims (String.ofList (List.replicate count '/')) "") ∧ PathText.parts "" = [""] ∧
    (∀ others, (∀ entry, entry ∈ entries ↔ entry ∈ others) →
      isExcluded entries path = isExcluded others path) ∧
    (∀ others, List.Forall₂ (fun entry other => ∃ core, Trims entry core ∧ Trims other core)
      entries others → isExcluded entries path = isExcluded others path) ∧
    ∀ more, entries ⊆ more → isExcluded entries path = true → isExcluded more path = true := by
  refine ⟨isExcluded_eq_true, existsUnique_trims, trims_slashes, PathText.parts_empty, ?_, ?_, ?_⟩
  · intro others same
    apply isExcluded_congr
    simp only [same, implies_true]
  · intro others paired
    exact isExcluded_congr (exists_trims_congr paired)
  · intro more included excluded
    obtain ⟨entry, listed, below⟩ := isExcluded_eq_true.mp excluded
    exact isExcluded_eq_true.mpr ⟨entry, included listed, below⟩

/-- An entry does not cover a path that goes on inside the last segment of the entry. -/
example : isExcluded ["/sales", "/admin/"] "/salesmen/:id" = false ∧
    isExcluded ["/sales", "/admin/"] "/admin/users" = true := by decide

end RouteClient
