import RouteClient.Json.Writer

/-!
# Layout of indented JSON

`Json.LaidOut` says on which lines a value stands and how far each of them is moved to the right:
two blanks for each level, one line for each bracket, item and member, and a single line for a value
that holds nothing. The indented form of a value consists of just these lines
(`Json.indented_laidOut`).
-/

namespace RouteClient

section Separators

variable {separator start : String} {entries : List String}

/-- A text in front of each entry is one in front of the first and a part of the separator. -/
theorem intercalate_map_append (nonempty : entries ≠ []) :
    separator.intercalate (entries.map (start ++ ·)) =
      start ++ (separator ++ start).intercalate entries := by
  obtain ⟨first, rest, rfl⟩ := List.exists_cons_of_ne_nil nonempty
  induction rest generalizing first with
  | nil => simp
  | cons second rest ih =>
      have behind := ih second (List.cons_ne_nil _ _)
      rw [List.map_cons, String.intercalate_cons_of_ne_nil (by simp), behind,
        String.intercalate_cons_of_ne_nil (List.cons_ne_nil _ _)]
      simp only [String.append_assoc]

end Separators

namespace Json

/-- What holds of a value when it holds of its items or members holds of every value. -/
@[elab_as_elim]
theorem parts_induction {motive : Json → Prop} (null : motive .null)
    (bool : ∀ b, motive (.bool b)) (number : ∀ n, motive (.number n))
    (string : ∀ s, motive (.string s))
    (array : ∀ items, (∀ item ∈ items, motive item) → motive (.array items))
    (object : ∀ members, (∀ member ∈ members, motive member.2) → motive (.object members))
    (value : Json) : motive value :=
  @Json.rec motive (fun items => ∀ item ∈ items, motive item)
    (fun members => ∀ member ∈ members, motive member.2) (fun member => motive member.2)
    null bool number string array object
    (List.forall_mem_nil _) (fun _ _ first rest => List.forall_mem_cons.mpr ⟨first, rest⟩)
    (List.forall_mem_nil _) (fun _ _ first rest => List.forall_mem_cons.mpr ⟨first, rest⟩)
    (fun _ _ held => held) value

/-- A line of a written value: its level and what stands on it. -/
structure Line where
  level : Nat
  content : String

/-- Two blanks for each level. -/
def margin (level : Nat) : String :=
  String.ofList (List.replicate (2 * level) ' ')

/-- A line as it is written. -/
def Line.text (line : Line) : String :=
  margin line.level ++ line.content

mutual

/-- The lines on which a value stands at a level, when `start` comes in front of it and `finish`
behind it. -/
inductive LaidOut : (level : Nat) → (start finish : String) → Json → List Line → Prop where
  | null {level : Nat} {start finish : String} :
      LaidOut level start finish .null [⟨level, start ++ "null" ++ finish⟩]
  | bool {level : Nat} {start finish : String} (b : Bool) :
      LaidOut level start finish (.bool b)
        [⟨level, start ++ (if b then "true" else "false") ++ finish⟩]
  | number {level : Nat} {start finish : String} (n : Int) :
      LaidOut level start finish (.number n) [⟨level, start ++ toString n ++ finish⟩]
  | string {level : Nat} {start finish : String} (s : String) :
      LaidOut level start finish (.string s) [⟨level, start ++ quote s ++ finish⟩]
  | noItems {level : Nat} {start finish : String} :
      LaidOut level start finish (.array []) [⟨level, start ++ "[]" ++ finish⟩]
  | noMembers {level : Nat} {start finish : String} :
      LaidOut level start finish (.object []) [⟨level, start ++ "\x7b\x7d" ++ finish⟩]
  | array {level : Nat} {start finish : String} {items : List Json} {inner : List Line}
      (within : EntriesLaidOut (level + 1) (items.map ("", ·)) inner) :
      LaidOut level start finish (.array items)
        (⟨level, start ++ "["⟩ :: (inner ++ [⟨level, "]" ++ finish⟩]))
  | object {level : Nat} {start finish : String} {members : List (String × Json)}
      {inner : List Line}
      (within : EntriesLaidOut (level + 1) (members.map fun m => (quote m.1 ++ ": ", m.2)) inner) :
      LaidOut level start finish (.object members)
        (⟨level, start ++ "\x7b"⟩ :: (inner ++ [⟨level, "\x7d" ++ finish⟩]))

/-- The lines of one or more values at a level, each with a text in front of it. A comma comes
behind all but the last. -/
inductive EntriesLaidOut : (level : Nat) → List (String × Json) → List Line → Prop where
  | last {level : Nat} {start : String} {value : Json} {lines : List Line}
      (alone : LaidOut level start "" value lines) : EntriesLaidOut level [(start, value)] lines
  | more {level : Nat} {start : String} {value : Json} {entries : List (String × Json)}
      {lines others : List Line} (first : LaidOut level start "," value lines)
      (rest : EntriesLaidOut level entries others) :
      EntriesLaidOut level ((start, value) :: entries) (lines ++ others)

end

section Lines

/-- A comma behind the last line leaves no fewer lines. -/
theorem closedWithComma_ne_nil {entry : List String} (nonempty : entry ≠ []) :
    closedWithComma entry ≠ [] := by
  obtain ⟨front, last, rfl⟩ := (List.eq_nil_or_concat entry).resolve_left nonempty
  simp [closedWithComma]

/-- A comma behind the last line is one behind the joined lines. -/
theorem intercalate_closedWithComma (separator : String) {entry : List String}
    (nonempty : entry ≠ []) :
    separator.intercalate (closedWithComma entry) = separator.intercalate entry ++ "," := by
  obtain ⟨front, last, rfl⟩ := (List.eq_nil_or_concat entry).resolve_left nonempty
  have closed : closedWithComma (front.concat last) = front ++ [last ++ ","] := by
    simp [closedWithComma]
  rw [closed, List.concat_eq_append]
  by_cases alone : front = []
  · simp [alone]
  · rw [String.intercalate_append_of_ne_nil alone (by simp),
      String.intercalate_append_of_ne_nil alone (by simp), String.intercalate_singleton,
      String.intercalate_singleton]
    simp only [String.append_assoc]

/-- Entries with lines have lines together. -/
theorem separated_ne_nil {entries : List (List String)} (several : entries ≠ [])
    (nonempty : ∀ entry ∈ entries, entry ≠ []) : separated entries ≠ [] := by
  obtain ⟨first, rest, rfl⟩ := List.exists_cons_of_ne_nil several
  have here := nonempty first List.mem_cons_self
  cases rest with
  | nil => exact here
  | cons second rest => exact List.append_ne_nil_of_left_ne_nil (closedWithComma_ne_nil here) _

/-- The lines of entries are those of each of them, with a comma in front of the separator where one
entry ends. -/
theorem intercalate_separated (separator : String) {entries : List (List String)}
    (nonempty : ∀ entry ∈ entries, entry ≠ []) : separator.intercalate (separated entries) =
      ("," ++ separator).intercalate (entries.map separator.intercalate) := by
  fun_induction separated entries with
  | case1 => rfl
  | case2 entry => simp
  | case3 entry entries several ih =>
      rw [List.forall_mem_cons] at nonempty
      rw [String.intercalate_append_of_ne_nil (closedWithComma_ne_nil nonempty.1)
          (separated_ne_nil several nonempty.2), intercalate_closedWithComma separator nonempty.1,
        ih nonempty.2, List.map_cons, String.intercalate_cons_of_ne_nil (by simpa using several)]
      simp only [String.append_assoc]

/-- Entries between brackets on lines behind a margin: the entries come two blanks further in. -/
theorem intercalate_bracketed (left right before : String) {entries : List (List String)}
    (several : entries ≠ []) (nonempty : ∀ entry ∈ entries, entry ≠ []) :
    ("\n" ++ before).intercalate (bracketed left right entries) =
      left ++ "\n" ++ ",\n".intercalate ((entries.map ("\n" ++ (before ++ "  ")).intercalate).map
        (before ++ "  " ++ ·)) ++ "\n" ++ before ++ right := by
  have listed : entries.isEmpty = false := by simpa using several
  have inner := separated_ne_nil several nonempty
  have comma : "," ++ ("\n" ++ (before ++ "  ")) = ",\n" ++ (before ++ "  ") :=
    String.append_assoc.symm
  have further : "\n" ++ before ++ "  " = "\n" ++ (before ++ "  ") := String.append_assoc
  rw [bracketed, listed, if_neg Bool.false_ne_true,
    String.intercalate_append_of_ne_nil (List.cons_ne_nil _ _) (by simp),
    String.intercalate_cons_of_ne_nil (by simpa using inner), intercalate_map_append inner,
    further, intercalate_separated _ nonempty, comma, String.intercalate_singleton,
    intercalate_map_append (by simpa using several)]
  simp only [String.append_assoc]

/-- Every value stands on at least one line. -/
theorem lines_ne_nil (value : Json) : value.lines ≠ [] := by
  cases value with
  | array items =>
      rw [lines, bracketed]
      split <;> simp
  | object members =>
      rw [lines, bracketed]
      split <;> simp
  | _ => simp [lines]

/-- A value with a text in front of it stands on at least one line. -/
theorem openedWith_ne_nil (start : String) (value : Json) : openedWith start value.lines ≠ [] := by
  obtain ⟨first, rest, split⟩ := List.exists_cons_of_ne_nil value.lines_ne_nil
  simp [openedWith, split]

/-- A text in front of the first line is one in front of the joined lines. -/
theorem intercalate_openedWith (separator start : String) (value : Json) :
    separator.intercalate (openedWith start value.lines) =
      start ++ separator.intercalate value.lines := by
  obtain ⟨first, rest, split⟩ := List.exists_cons_of_ne_nil value.lines_ne_nil
  rw [split, openedWith, List.modifyHead_cons, String.intercalate_cons_append]

/-- The lines of values, each of them with a text in front of it. -/
def entryLines (entries : List (String × Json)) : List (List String) :=
  entries.map fun entry => openedWith entry.1 entry.2.lines

private theorem entryLines_ne_nil (entries : List (String × Json)) :
    ∀ entry ∈ entryLines entries, entry ≠ [] := by
  intro entry member
  obtain ⟨⟨start, value⟩, _, rfl⟩ := List.mem_map.mp member
  exact openedWith_ne_nil start value

private theorem itemLines_eq (items : List Json) :
    itemLines items = entryLines (items.map ("", ·)) := by
  induction items with
  | nil => rfl
  | cons item items ih =>
      obtain ⟨first, rest, split⟩ := List.exists_cons_of_ne_nil item.lines_ne_nil
      rw [itemLines, ih]
      simp [entryLines, openedWith, split]

private theorem memberLines_eq (members : List (String × Json)) :
    memberLines members = entryLines (members.map fun m => (quote m.1 ++ ": ", m.2)) := by
  induction members with
  | nil => rfl
  | cons member members ih =>
      rw [memberLines, ih]
      rfl

/-- Every item of an array stands on lines of its own. -/
theorem itemLines_ne_nil (items : List Json) : ∀ entry ∈ itemLines items, entry ≠ [] :=
  itemLines_eq items ▸ entryLines_ne_nil _

/-- Every member of an object stands on lines of its own. -/
theorem memberLines_ne_nil (members : List (String × Json)) :
    ∀ entry ∈ memberLines members, entry ≠ [] :=
  memberLines_eq members ▸ entryLines_ne_nil _

end Lines

section Layout

variable {level : Nat} {start finish : String} {value : Json} {lines : List Line}

private theorem margin_succ (level : Nat) : margin (level + 1) = margin level ++ "  " := by
  apply String.toList_injective
  rw [margin, margin, String.toList_append, String.toList_ofList, String.toList_ofList]
  exact List.replicate_append_replicate.symm

private theorem LaidOut.ne_nil (laidOut : LaidOut level start finish value lines) : lines ≠ [] := by
  cases laidOut <;> simp

private theorem EntriesLaidOut.ne_nil {entries : List (String × Json)}
    (laidOut : EntriesLaidOut level entries lines) : lines ≠ [] := by
  cases laidOut with
  | last alone => exact alone.ne_nil
  | more first _ => exact List.append_ne_nil_of_left_ne_nil first.ne_nil _

/-- Some lines on which a value is laid out are those of its indented form, moved to a level. -/
def Stands (value : Json) : Prop :=
  ∀ level start finish, ∃ lines, LaidOut level start finish value lines ∧
    "\n".intercalate (lines.map Line.text) =
      margin level ++ start ++ ("\n" ++ margin level).intercalate value.lines ++ finish

/-- A value on one line. -/
theorem Stands.of_single {content : String} (single : value.lines = [content])
    (laidOut : ∀ level start finish,
      LaidOut level start finish value [⟨level, start ++ content ++ finish⟩]) : Stands value := by
  intro level start finish
  refine ⟨_, laidOut level start finish, ?_⟩
  rw [single, List.map_singleton, String.intercalate_singleton, String.intercalate_singleton,
    Line.text]
  simp only [String.append_assoc]

/-- Entries are laid out one behind the other, with commas between them. -/
theorem exists_entriesLaidOut {entries : List (String × Json)} (several : entries ≠ [])
    (stand : ∀ entry ∈ entries, Stands entry.2) (level : Nat) :
    ∃ lines, EntriesLaidOut level entries lines ∧ "\n".intercalate (lines.map Line.text) =
      ",\n".intercalate (((entryLines entries).map ("\n" ++ margin level).intercalate).map
        (margin level ++ ·)) := by
  obtain ⟨⟨start, value⟩, rest, rfl⟩ := List.exists_cons_of_ne_nil several
  induction rest generalizing start value with
  | nil =>
      obtain ⟨lines, laidOut, text⟩ := stand _ List.mem_cons_self level start ""
      refine ⟨lines, .last laidOut, ?_⟩
      rw [text]
      simp [entryLines, intercalate_openedWith, String.append_assoc]
  | cons second rest ih =>
      obtain ⟨standsHere, standBehind⟩ := List.forall_mem_cons.mp stand
      obtain ⟨lines, laidOut, text⟩ := standsHere level start ","
      obtain ⟨others, behind, further⟩ := ih second.1 second.2 (List.cons_ne_nil _ _) standBehind
      refine ⟨lines ++ others, .more laidOut behind, ?_⟩
      have comma : ",\n" = "," ++ "\n" := rfl
      have listed : entryLines ((start, value) :: second :: rest) =
          openedWith start value.lines :: entryLines (second :: rest) := rfl
      rw [List.map_append, String.intercalate_append_of_ne_nil (by simpa using laidOut.ne_nil)
        (by simpa using behind.ne_nil), text, further, listed, List.map_cons, List.map_cons,
        String.intercalate_cons_of_ne_nil (by simp [entryLines]), intercalate_openedWith, comma]
      simp only [String.append_assoc]

/-- Entries between brackets stand on the lines of the brackets and those of the entries. -/
theorem exists_bracketed (left right : String) {entries : List (String × Json)}
    (several : entries ≠ []) (stand : ∀ entry ∈ entries, Stands entry.2)
    (level : Nat) (start finish : String) : ∃ inner, EntriesLaidOut (level + 1) entries inner ∧
      "\n".intercalate ((⟨level, start ++ left⟩ ::
          (inner ++ [⟨level, right ++ finish⟩]) : List Line).map Line.text) =
        margin level ++ start ++
          ("\n" ++ margin level).intercalate (bracketed left right (entryLines entries)) ++
            finish := by
  obtain ⟨inner, laidOut, text⟩ := exists_entriesLaidOut several stand (level + 1)
  refine ⟨inner, laidOut, ?_⟩
  have listed : entryLines entries ≠ [] := by simpa [entryLines] using several
  rw [List.map_cons, List.map_append, String.intercalate_cons_of_ne_nil (by simp),
    String.intercalate_append_of_ne_nil (by simpa using laidOut.ne_nil) (by simp), text,
    intercalate_bracketed _ _ _ listed (entryLines_ne_nil entries), margin_succ,
    List.map_singleton, String.intercalate_singleton, Line.text, Line.text]
  simp only [String.append_assoc]

/-- Every value stands on the lines of its indented form. -/
theorem stands (value : Json) : Stands value := by
  induction value using parts_induction with
  | null => exact .of_single rfl fun _ _ _ => .null
  | bool b => exact .of_single rfl fun _ _ _ => .bool b
  | number n => exact .of_single rfl fun _ _ _ => .number n
  | string s => exact .of_single rfl fun _ _ _ => .string s
  | array items stand =>
      by_cases empty : items = []
      · subst empty
        exact .of_single rfl fun _ _ _ => .noItems
      · intro level start finish
        have standing : ∀ entry ∈ items.map fun item => ("", item), Stands entry.2 :=
          List.forall_mem_map.mpr stand
        obtain ⟨inner, laidOut, text⟩ :=
          exists_bracketed "[" "]" (by simpa using empty) standing level start finish
        refine ⟨_, .array laidOut, ?_⟩
        rw [text, lines, itemLines_eq]
  | object members stand =>
      by_cases empty : members = []
      · subst empty
        exact .of_single rfl fun _ _ _ => .noMembers
      · intro level start finish
        have standing : ∀ entry ∈ members.map fun m => (quote m.1 ++ ": ", m.2),
            Stands entry.2 := List.forall_mem_map.mpr stand
        obtain ⟨inner, laidOut, text⟩ :=
          exists_bracketed "\x7b" "\x7d" (by simpa using empty) standing level start finish
        refine ⟨_, .object laidOut, ?_⟩
        rw [text, lines, memberLines_eq]

/-- **The indented form has two blanks a level.** A value in its indented form stands on the lines
on which it is laid out. -/
theorem indented_laidOut (value : Json) : ∃ lines, LaidOut 0 "" "" value lines ∧
    value.indented = "\n".intercalate (lines.map Line.text) := by
  obtain ⟨lines, laidOut, text⟩ := value.stands 0 "" ""
  refine ⟨lines, laidOut, ?_⟩
  rw [text, indented]
  simp [margin]

end Layout

end Json

end RouteClient
