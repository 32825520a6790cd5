import Mathlib.Data.String.Basic

/-!
# The order of texts by their bytes

Texts are compared character by character. Their forms in UTF-8 stand in the same order when they
are compared byte by byte (`Text.bytes_lt_iff`): of two characters, the one with the smaller number
has the smaller byte where their forms differ first, and neither form continues the other.
-/

namespace RouteClient

namespace Text

/-- The bytes of a text in UTF-8. -/
def bytes (s : String) : List UInt8 := s.toUTF8.data.toList

/-- The bytes of a text are those of its characters. -/
theorem bytes_eq (s : String) : bytes s = s.toList.flatMap String.utf8EncodeChar := by
  rw [bytes, String.toUTF8_eq_toByteArray, ← String.utf8Encode_toList, List.utf8Encode,
    List.data_toByteArray]

/-- The first digit to the base 64 in which two numbers differ tells which of them is smaller. -/
theorem digits_lt {v w : Nat} (below : v < w) :
    v / 262144 < w / 262144 ∨ v / 262144 = w / 262144 ∧
      (v / 4096 % 64 < w / 4096 % 64 ∨ v / 4096 % 64 = w / 4096 % 64 ∧
        (v / 64 % 64 < w / 64 % 64 ∨ v / 64 % 64 = w / 64 % 64 ∧ v % 64 < w % 64)) := by
  have lastDigit (m n : Nat) : m < n → m / 64 < n / 64 ∨ m / 64 = n / 64 ∧ m % 64 < n % 64 := by
    omega
  have shifted (n : Nat) : n / 64 / 64 = n / 4096 ∧ n / 4096 / 64 = n / 262144 := by omega
  rcases lastDigit v w below with below | ⟨same, last⟩
  · rcases lastDigit _ _ below with below | ⟨same, last⟩
    · rw [(shifted v).1, (shifted w).1] at below
      rcases lastDigit _ _ below with below | ⟨same, last⟩
      · rw [(shifted v).2, (shifted w).2] at below
        exact Or.inl below
      · rw [(shifted v).2, (shifted w).2] at same
        exact Or.inr ⟨same, Or.inl last⟩
    · rw [(shifted v).1, (shifted w).1] at same
      rw [← (shifted v).2, ← (shifted w).2, same]
      exact Or.inr ⟨rfl, Or.inr ⟨rfl, Or.inl last⟩⟩
  · rw [← (shifted v).2, ← (shifted w).2, ← (shifted v).1, ← (shifted w).1, same]
    exact Or.inr ⟨rfl, Or.inr ⟨rfl, Or.inr ⟨rfl, last⟩⟩⟩

private theorem byte_lt_iff {m n : Nat} (first : m < 256) (second : n < 256) :
    UInt8.ofNat m < UInt8.ofNat n ↔ m < n := by
  rw [UInt8.lt_iff_toNat_lt, UInt8.toNat_ofNat', UInt8.toNat_ofNat', Nat.mod_eq_of_lt first,
    Nat.mod_eq_of_lt second]

private theorem byte_eq_iff {m n : Nat} (first : m < 256) (second : n < 256) :
    UInt8.ofNat m = UInt8.ofNat n ↔ m = n := by
  rw [← UInt8.toNat_inj, UInt8.toNat_ofNat', UInt8.toNat_ofNat', Nat.mod_eq_of_lt first,
    Nat.mod_eq_of_lt second]

private theorem codePoint_lt (c : Char) : c.val.toNat < 0x110000 := by
  rcases c.valid with low | ⟨_, high⟩
  · exact Nat.lt_trans low (by decide)
  · exact high

/-- The bytes of a smaller character stand before those of a larger one, whatever follows. -/
theorem encodeChar_lt {c d : Char} (before : c < d) (x y : List UInt8) :
    String.utf8EncodeChar c ++ x < String.utf8EncodeChar d ++ y := by
  have below : c.val.toNat < d.val.toNat := before
  have digits := digits_lt below
  have bound := codePoint_lt d
  unfold String.utf8EncodeChar
  generalize c.val.toNat = v at *
  generalize d.val.toNat = w at *
  dsimp only
  -- Each character takes one to four bytes; a form with more bytes has the larger first byte.
  split_ifs <;>
    simp (disch := omega) only [List.cons_append, List.nil_append, List.cons_lt_cons_iff,
      byte_lt_iff, byte_eq_iff, Nat.mod_eq_of_lt] <;>
    omega

private theorem flatMap_encodeChar_lt {first second : List Char} (before : first < second) :
    first.flatMap String.utf8EncodeChar < second.flatMap String.utf8EncodeChar := by
  induction first generalizing second with
  | nil =>
      cases second with
      | nil => exact absurd before (List.lt_irrefl [])
      | cons d ds =>
          obtain ⟨byte, rest, form⟩ :=
            List.exists_cons_of_ne_nil (String.utf8EncodeChar_ne_nil (c := d))
          rw [List.flatMap_nil, List.flatMap_cons, form]
          exact List.nil_lt_cons _ _
  | cons c cs ih =>
      cases second with
      | nil => exact absurd before (List.not_lt_nil _)
      | cons d ds =>
          rw [List.flatMap_cons, List.flatMap_cons]
          rcases List.cons_lt_cons_iff.mp before with smaller | ⟨rfl, later⟩
          · exact encodeChar_lt smaller _ _
          · exact List.append_left_lt (ih later)

/-- Texts are ordered as their bytes. -/
theorem bytes_lt_bytes {a b : String} (before : a < b) : bytes a < bytes b := by
  rw [bytes_eq, bytes_eq]
  exact flatMap_encodeChar_lt (String.lt_iff_toList_lt.mp before)

/-- The order of texts is that of their bytes. -/
theorem bytes_lt_iff {a b : String} : bytes a < bytes b ↔ a < b := by
  constructor
  · intro before
    rcases lt_trichotomy a b with less | rfl | more
    · exact less
    · exact absurd before (List.lt_irrefl _)
    · exact absurd (List.lt_trans before (bytes_lt_bytes more)) (List.lt_irrefl _)
  · exact bytes_lt_bytes

section Sorting

variable {α : Type} (key : α → String)

private theorem key_le_total (a b : α) :
    (decide (key a ≤ key b) || decide (key b ≤ key a)) = true := by
  simpa using String.le_total (key a) (key b)

private theorem key_le_trans (a b c : α) (first : decide (key a ≤ key b) = true)
    (second : decide (key b ≤ key c) = true) : decide (key a ≤ key c) = true :=
  decide_eq_true (String.le_trans (of_decide_eq_true first) (of_decide_eq_true second))

/-- Items that are sorted by a text ascend. -/
theorem pairwise_mergeSort (items : List α) :
    (items.mergeSort fun a b => decide (key a ≤ key b)).Pairwise fun a b => key a ≤ key b :=
  (List.pairwise_mergeSort (key_le_trans key) (key_le_total key) items).imp of_decide_eq_true

/-- Items with one text stay in their order when they are sorted by it. -/
theorem filter_mergeSort (text : String) (items : List α) :
    (items.mergeSort fun a b => decide (key a ≤ key b)).filter (key · = text) =
      items.filter (key · = text) := by
  have level : (items.filter (key · = text)).Pairwise fun a b => decide (key a ≤ key b) = true := by
    apply List.pairwise_of_forall_mem_list
    intro a first b second
    have same : key a = key b :=
      (of_decide_eq_true (List.mem_filter.mp first).2).trans
        (of_decide_eq_true (List.mem_filter.mp second).2).symm
    exact decide_eq_true (same ▸ String.le_refl (key a))
  have kept := List.sublist_mergeSort (key_le_trans key) (key_le_total key) level
    List.filter_sublist
  -- The items with the text are still there in their order, and no other items have it.
  have within := kept.filter (key · = text)
  rw [List.filter_filter] at within
  simp only [Bool.and_self] at within
  exact (within.eq_of_length ((List.mergeSort_perm items _).filter _).length_eq.symm).symm

end Sorting

end Text

end RouteClient
