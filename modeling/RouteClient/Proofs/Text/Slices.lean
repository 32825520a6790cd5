import RouteClient.Text.Bytes

/-!
# Slices of a text by bytes

Places in a text are counted in bytes. `takeBytes` and `dropBytes` cut a text at such a place, and
cutting behind a part of known length gives back that part and the rest.
-/

namespace RouteClient

namespace Text

/-- The characters of a text that begin before a given byte. -/
def takeBytes : (count : Nat) → List Char → List Char
  | _, [] => []
  | count, c :: cs => if count = 0 then [] else c :: takeBytes (count - c.utf8Size) cs

/-- The characters of a text from a given byte on. -/
def dropBytes : (count : Nat) → List Char → List Char
  | _, [] => []
  | count, c :: cs => if count = 0 then c :: cs else dropBytes (count - c.utf8Size) cs

/-- The part of a text between two of its bytes. -/
def slice (start stop : Nat) (text : List Char) : List Char :=
  takeBytes (stop - start) (dropBytes start text)

/-- No bytes are no text. -/
@[simp] theorem takeBytes_zero (text : List Char) : takeBytes 0 text = [] := by
  cases text <;> rfl

@[simp] private theorem dropBytes_zero (text : List Char) : dropBytes 0 text = text := by
  cases text <;> rfl

/-- A text has the bytes of its parts. -/
@[simp] theorem byteCount_append (first second : List Char) :
    byteCount (first ++ second) = byteCount first + byteCount second := by
  induction first with
  | nil => simp [byteCount]
  | cons c cs ih => simp only [List.cons_append, byteCount, ih, Nat.add_assoc]

/-- A cut behind the first character keeps it. -/
theorem takeBytes_cons (c : Char) (cs : List Char) (count : Nat) :
    takeBytes (c.utf8Size + count) (c :: cs) = c :: takeBytes count cs := by
  have positive : c.utf8Size + count ≠ 0 := Nat.ne_of_gt (Nat.add_pos_left c.utf8Size_pos _)
  rw [takeBytes, if_neg positive, Nat.add_sub_cancel_left]

private theorem dropBytes_cons (c : Char) (cs : List Char) (count : Nat) :
    dropBytes (c.utf8Size + count) (c :: cs) = dropBytes count cs := by
  have positive : c.utf8Size + count ≠ 0 := Nat.ne_of_gt (Nat.add_pos_left c.utf8Size_pos _)
  rw [dropBytes, if_neg positive, Nat.add_sub_cancel_left]

/-- A cut behind a part of a text keeps that part. -/
theorem takeBytes_append (first second : List Char) (count : Nat) :
    takeBytes (byteCount first + count) (first ++ second) = first ++ takeBytes count second := by
  induction first with
  | nil => simp [byteCount]
  | cons c cs ih =>
      rw [byteCount, Nat.add_assoc, List.cons_append, takeBytes_cons, ih, List.cons_append]

/-- More bytes than a text has are taken from what follows it. -/
theorem dropBytes_append (first second : List Char) (count : Nat) :
    dropBytes (byteCount first + count) (first ++ second) = dropBytes count second := by
  induction first with
  | nil => simp [byteCount]
  | cons c cs ih => rw [byteCount, Nat.add_assoc, List.cons_append, dropBytes_cons, ih]

@[simp] private theorem takeBytes_length (first second : List Char) :
    takeBytes (byteCount first) (first ++ second) = first := by
  simpa using takeBytes_append first second 0

/-- Behind the bytes of a text stands what follows it. -/
@[simp] theorem dropBytes_length (first second : List Char) :
    dropBytes (byteCount first) (first ++ second) = second := by
  simpa using dropBytes_append first second 0

/-- The slice taken up by a part of a text is that part. -/
theorem slice_middle (first middle last : List Char) :
    slice (byteCount first) (byteCount first + byteCount middle) (first ++ (middle ++ last)) =
      middle := by
  rw [slice, Nat.add_sub_cancel_left, dropBytes_length, takeBytes_length]

end Text

end RouteClient
