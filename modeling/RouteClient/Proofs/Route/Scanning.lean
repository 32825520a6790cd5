import RouteClient.Proofs.Text.Slices
import RouteClient.Route.Placeholder

/-!
# Scanning a route path

Reading a path into tokens loses no character (`flatMap_chars_scan`). The placeholders listed with a
path stand in its order without overlap (`placeholders_pairwise`), and each takes up exactly its
colon and its name (`mem_placeholders_slice`).
-/

namespace RouteClient

namespace PathToken

/-- The characters of a path that have been read at a place and belong to no token yet. -/
def Place.pending : Place → List Char
  | .opening => []
  | .inside => []
  | .naming reversed => ':' :: reversed.reverse

@[simp] private theorem Place.pending_after (c : Char) : (Place.after c).pending = [] := by
  unfold Place.after
  split <;> rfl

/-- The tokens read from a place on hold the pending characters and all that follow. -/
theorem flatMap_chars_scanFrom (place : Place) (path : List Char) :
    (scanFrom place path).flatMap chars = place.pending ++ path := by
  fun_induction scanFrom place path with
  | case1 name => simp [chars, Place.pending]
  | case2 place notNaming =>
      cases place with
      | opening => rfl
      | inside => rfl
      | naming name => exact absurd rfl (notNaming name)
  | case3 name c cs continues ih => simpa [Place.pending] using ih
  | case4 name c cs ends ih =>
      rw [Place.pending_after, List.nil_append] at ih
      simp [chars, Place.pending, ih]
  | case5 c cs ih =>
      rw [Place.pending_after, List.nil_append] at ih
      simp [chars, Place.pending, ih]
  | case6 c => simp [chars, Place.pending]
  | case7 c d cs opens ih =>
      simp only [Bool.and_eq_true, decide_eq_true_eq] at opens
      simp [Place.pending, ih, opens.1]
  | case8 c d cs plain ih =>
      rw [Place.pending_after, List.nil_append] at ih
      simp [chars, Place.pending, ih]

/-- Reading a path into tokens loses no character. -/
theorem flatMap_chars_scan (path : List Char) : (scan path).flatMap chars = path :=
  flatMap_chars_scanFrom .opening path

end PathToken

open Text (byteCount slice)

/-- Each listed placeholder takes up the bytes of its colon and its name, at its place among the
characters of the tokens. -/
theorem placeholdersFrom_split {start : Nat} {tokens : List PathToken} {h : Placeholder}
    (member : h ∈ placeholdersFrom start tokens) :
    ∃ first last, tokens.flatMap PathToken.chars = first ++ ((':' :: h.name.toList) ++ last) ∧
      h.start = start + byteCount first ∧ h.stop = h.start + byteCount (':' :: h.name.toList) := by
  induction tokens generalizing start with
  | nil => exact absurd member List.not_mem_nil
  | cons token rest ih =>
      cases token with
      | char c =>
          obtain ⟨first, last, split, starts, stops⟩ := ih member
          refine ⟨c :: first, last, ?_, ?_, stops⟩
          · simp [PathToken.chars, split]
          · rw [starts, byteCount, Nat.add_assoc]
      | slot name =>
          rcases List.mem_cons.mp member with rfl | later
          · exact ⟨[], rest.flatMap PathToken.chars, by simp [PathToken.chars], rfl, by simp⟩
          · obtain ⟨first, last, split, starts, stops⟩ := ih later
            refine ⟨(':' :: name) ++ first, last, ?_, ?_, stops⟩
            · simp [PathToken.chars, split]
            · rw [starts, Text.byteCount_append, Nat.add_assoc]

/-- A listed placeholder begins where the tokens begin or later. -/
theorem placeholdersFrom_start_le {start : Nat} {tokens : List PathToken} {h : Placeholder}
    (member : h ∈ placeholdersFrom start tokens) : start ≤ h.start := by
  obtain ⟨first, _, _, starts, _⟩ := placeholdersFrom_split member
  rw [starts]
  exact Nat.le_add_right start _

/-- The placeholders among tokens stand one behind the other. -/
theorem placeholdersFrom_pairwise (start : Nat) (tokens : List PathToken) :
    (placeholdersFrom start tokens).Pairwise fun a b => a.stop ≤ b.start := by
  induction tokens generalizing start with
  | nil => exact List.Pairwise.nil
  | cons token rest ih =>
      cases token with
      | char c => exact ih _
      | slot name => exact List.Pairwise.cons (fun h => placeholdersFrom_start_le) (ih _)

/-- The placeholders of a path stand one behind the other. -/
theorem placeholders_pairwise (path : String) :
    (placeholders path).Pairwise fun a b => a.stop ≤ b.start :=
  placeholdersFrom_pairwise 0 _

/-- The bytes of a listed placeholder are those of a colon and its name. -/
theorem mem_placeholders_slice {path : String} {h : Placeholder} (member : h ∈ placeholders path) :
    slice h.start h.stop path.toList = ':' :: h.name.toList := by
  obtain ⟨first, last, split, starts, stops⟩ := placeholdersFrom_split member
  rw [PathToken.flatMap_chars_scan] at split
  rw [stops, starts, Nat.zero_add, split, Text.slice_middle]

end RouteClient
