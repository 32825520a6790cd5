import Mathlib.Data.List.Nodup
import RouteClient.Proofs.Json.Decoding
import RouteClient.Proofs.Outcome

/-!
# Decoding records as they are spelled

A `Slot` is a field of a kind of records as documents know it: its key, the spellings of its part of
the record, and the part for which it may be left out. A record is spelled by an object whose
members are its fields in any order, with any members under other keys among them, or by an array of
its fields in their order (`SpellsRecord`). A schema that fits the slots decodes each record,
however it is spelled (`Fits.decodes`): what has been read so far is copied from the record, and the
rest is still as in the record that decoding starts with (`Copied`).
-/

namespace RouteClient

namespace Json

open Decoder (Schema)

variable {σ α : Type}

/-- A field of a kind of records: its key, its part of a record with the spellings of this part, and
the part that need not be written. -/
structure Slot (σ : Type) where
  key : String
  {Part : Type}
  part : σ → Part
  spells : Spelling → Part → Prop
  default? : Option Part := none

/-- The field may be left out when the record is written. -/
def Slot.Omissible (slot : Slot σ) (record : σ) : Prop := slot.default? = some (slot.part record)

/-- The values that the members of an object have under a key. -/
def valuesAt (key : String) : List (Quotation × Spelling) → List Spelling
  | [] => []
  | (q, value) :: members =>
    if q.text? = some key then value :: valuesAt key members else valuesAt key members

/-- The values under the key of a field spell its part of a record: there is one, or the field may
be left out. -/
inductive Slot.Spells (slot : Slot σ) (record : σ) : List Spelling → Prop where
  | omitted (omissible : slot.Omissible record) : slot.Spells record []
  | given {value : Spelling} (spelled : slot.spells value (slot.part record)) :
    slot.Spells record [value]

private theorem Slot.Spells.eq_nil_or {slot : Slot σ} {record : σ} {values : List Spelling}
    (spells : slot.Spells record values) : values = [] ∧ slot.Omissible record ∨
      ∃ value, values = [value] ∧ slot.spells value (slot.part record) := by
  cases spells with
  | omitted omissible => exact Or.inl ⟨rfl, omissible⟩
  | given spelled => exact Or.inr ⟨_, rfl, spelled⟩

/-- The items spell the fields of a record in their order; the fields behind the last item are left
out. -/
inductive SpellsFields (record : σ) : List (Slot σ) → List Spelling → Prop where
  | stop {slots : List (Slot σ)} (omissible : ∀ slot ∈ slots, slot.Omissible record) :
    SpellsFields record slots []
  | next {slot : Slot σ} {slots : List (Slot σ)} {item : Spelling} {items : List Spelling}
    (spelled : slot.spells item (slot.part record)) (behind : SpellsFields record slots items) :
    SpellsFields record (slot :: slots) (item :: items)

/-- The spellings of a record. Nothing is asked of the members of an object whose keys are not those
of its fields. -/
inductive SpellsRecord (slots : List (Slot σ)) : Spelling → σ → Prop where
  | object {members : List (Quotation × Spelling)} {record : σ}
    (keys : ∀ member ∈ members, ∃ key, member.1.text? = some key)
    (fields : ∀ slot ∈ slots, slot.Spells record (valuesAt slot.key members)) :
    SpellsRecord slots (.object members) record
  | array {items : List Spelling} {record : σ} (fields : SpellsFields record slots items) :
    SpellsRecord slots (.array items) record

/-- A member under a key has one of the values there. -/
theorem valuesAt_cons_of_eq {key : String} {q : Quotation} {value : Spelling}
    {members : List (Quotation × Spelling)} (same : q.text? = some key) :
    valuesAt key ((q, value) :: members) = value :: valuesAt key members := if_pos same

/-- A member under another key has none of the values there. -/
theorem valuesAt_cons_of_ne {key name : String} {q : Quotation} {value : Spelling}
    {members : List (Quotation × Spelling)} (text : q.text? = some name) (other : key ≠ name) :
    valuesAt key ((q, value) :: members) = valuesAt key members :=
  if_neg fun same => other (Option.some.inj (same.symm.trans text))

/-- The field of a schema reads the part of a slot and leaves the parts of the others as they
are. -/
structure Slot.ReadBy (slots : List (Slot σ)) (slot : Slot σ) (field : Decoder.Field σ) : Prop where
  key : field.key = slot.key
  required : field.required = slot.default?.isNone
  read : ∀ {draft s part}, Draft.Shows draft s → slot.spells s part → ∀ record, ∃ next,
    field.read draft record = .ok next ∧ slot.part next = part ∧
      ∀ other ∈ slots, other.key ≠ slot.key → other.part next = other.part record

/-- A field that decodes a value from which the part of a slot comes, and stores it. -/
theorem Slot.ReadBy.of {slots : List (Slot σ)} {slot : Slot σ} {decode : Decoder α}
    {spells : Spelling → α → Prop} {store : α → σ → σ} {required : Bool}
    (decodes : Decodes decode spells)
    (stored : ∀ {s part}, slot.spells s part →
      ∃ a, spells s a ∧ ∀ record, slot.part (store a record) = part)
    (kept : ∀ a record, ∀ other ∈ slots, other.key ≠ slot.key →
      other.part (store a record) = other.part record)
    (optional : required = slot.default?.isNone) :
    slot.ReadBy slots (Decoder.Field.of slot.key required decode store) where
  key := rfl
  required := optional
  read := by
    intro draft s part shows spelled record
    obtain ⟨a, spelled, same⟩ := stored spelled
    refine ⟨store a record, ?_, same record, kept a record⟩
    change (decode draft).map (store · record) = .ok (store a record)
    rw [decodes shows spelled]
    rfl

/-- A field that decodes the part of a slot itself, and stores it. -/
theorem Slot.ReadBy.direct {slots : List (Slot σ)} {slot : Slot σ} {decode : Decoder slot.Part}
    {store : slot.Part → σ → σ} {required : Bool} (decodes : Decodes decode slot.spells)
    (stored : ∀ part record, slot.part (store part record) = part)
    (kept : ∀ part record, ∀ other ∈ slots, other.key ≠ slot.key →
      other.part (store part record) = other.part record)
    (optional : required = slot.default?.isNone) :
    slot.ReadBy slots (Decoder.Field.of slot.key required decode store) :=
  .of decodes (fun {_ part} spelled => ⟨part, spelled, stored part⟩) kept optional

/-- The schema reads records with these slots, and `start` has the parts that are left out. -/
structure Fits (schema : Schema σ) (start : σ) (slots : List (Slot σ)) : Prop where
  lax : schema.strict = false
  fields : List.Forall₂ (Slot.ReadBy slots) slots schema.fields
  apart : (slots.map (·.key)).Nodup
  defaults : ∀ slot ∈ slots, ∀ part, slot.default? = some part → slot.part start = part
  complete : ∀ {first second : σ}, (∀ slot ∈ slots, slot.part first = slot.part second) →
    first = second

/-- The parts under these keys are those of `record`, and the others those of `start`. -/
def Copied (slots : List (Slot σ)) (start record : σ) (seen : List String) (copy : σ) : Prop :=
  ∀ slot ∈ slots, slot.part copy = if slot.key ∈ seen then slot.part record else slot.part start

variable {schema : Schema σ} {start record copy : σ} {slots : List (Slot σ)} {slot : Slot σ}
  {field : Decoder.Field σ} {seen : List String}

namespace Fits

private theorem eq_of_key (fits : Fits schema start slots) {first second : Slot σ}
    (mem : first ∈ slots)
    (mem' : second ∈ slots) (same : first.key = second.key) : first = second :=
  List.inj_on_of_nodup_map fits.apart mem mem' same

/-- Reading one field copies its part. -/
theorem step (fits : Fits schema start slots) (mem : slot ∈ slots)
    (readBy : slot.ReadBy slots field) (copied : Copied slots start record seen copy)
    {draft : Draft} {s : Spelling}
    (shows : draft.Shows s) (spelled : slot.spells s (slot.part record)) : ∃ next,
      field.read draft copy = .ok next ∧ Copied slots start record (slot.key :: seen) next := by
  obtain ⟨next, read, part, kept⟩ := readBy.read shows spelled copy
  refine ⟨next, read, ?_⟩
  intro other member
  by_cases same : other.key = slot.key
  · obtain rfl := fits.eq_of_key member mem same
    rw [part, if_pos List.mem_cons_self]
  · rw [kept other member same, copied other member]
    simp [same]

/-- When only omissible fields have not been read, the record is complete. -/
theorem eq_record (fits : Fits schema start slots) (copied : Copied slots start record seen copy)
    (omissible : ∀ slot ∈ slots, slot.key ∉ seen → slot.Omissible record) : copy = record := by
  refine fits.complete ?_
  intro slot member
  rw [copied slot member]
  by_cases read : slot.key ∈ seen
  · rw [if_pos read]
  · rw [if_neg read]
    exact fits.defaults slot member _ (omissible slot member read)

end Fits

private theorem find?_fields {front : List (Slot σ)} {fields : List (Decoder.Field σ)}
    (readBy : List.Forall₂ (Slot.ReadBy slots) front fields) (name : String) :
    (fields.find? (·.key = name) = none ∧ ∀ slot ∈ front, slot.key ≠ name) ∨
      ∃ slot ∈ front, ∃ field, fields.find? (·.key = name) = some field ∧
        slot.ReadBy slots field ∧ slot.key = name := by
  induction readBy with
  | nil => exact Or.inl ⟨rfl, by simp⟩
  | @cons slot field front fields first _ ih =>
      by_cases same : slot.key = name
      · refine Or.inr ⟨slot, List.mem_cons_self, field, ?_, first, same⟩
        rw [List.find?_cons_of_pos (by simp [first.key, same])]
      · rw [List.find?_cons_of_neg (by simp [first.key, same])]
        rcases ih with ⟨none, others⟩ | ⟨other, member, rest⟩
        · exact Or.inl ⟨none, List.forall_mem_cons.mpr ⟨same, others⟩⟩
        · exact Or.inr ⟨other, List.mem_cons_of_mem _ member, rest⟩

private theorem findIdx?_required {front : List (Slot σ)} {fields : List (Decoder.Field σ)}
    (readBy : List.Forall₂ (Slot.ReadBy slots) front fields)
    (omissible : ∀ slot ∈ front, slot.Omissible record) : fields.findIdx? (·.required) = none := by
  induction readBy with
  | nil => rfl
  | @cons slot field front fields first _ ih =>
      obtain ⟨here, behind⟩ := List.forall_mem_cons.mp omissible
      have notRequired : field.required = false := by rw [first.required, here]; rfl
      rw [List.findIdx?_cons, notRequired, ih behind]
      rfl

private theorem exists_slot {front : List (Slot σ)} {fields : List (Decoder.Field σ)}
    (readBy : List.Forall₂ (Slot.ReadBy slots) front fields) (member : field ∈ fields) :
    ∃ slot ∈ front, slot.ReadBy slots field := by
  induction readBy with
  | nil => cases member
  | @cons slot other front fields first _ ih =>
      rcases List.mem_cons.mp member with rfl | member
      · exact ⟨slot, List.mem_cons_self, first⟩
      · obtain ⟨slot, mem, readBy⟩ := ih member
        exact ⟨slot, List.mem_cons_of_mem _ mem, readBy⟩

/-- What members have to say about the fields of a record that have not been read: at most one value
under each key, which spells the part of the record. -/
structure Pending (slots : List (Slot σ)) (record : σ) (seen : List String)
    (members : List (Quotation × Spelling)) : Prop where
  keys : ∀ member ∈ members, ∃ key, member.1.text? = some key
  single : ∀ slot ∈ slots, valuesAt slot.key members = [] ∨
    ∃ value, valuesAt slot.key members = [value] ∧ slot.spells value (slot.part record)
  unread : ∀ slot ∈ slots, slot.key ∈ seen → valuesAt slot.key members = []

namespace Pending

variable {q : Quotation} {name : String} {value : Spelling} {members : List (Quotation × Spelling)}

/-- A member under a key of no field may be passed over. -/
theorem pass (pending : Pending slots record seen ((q, value) :: members))
    (text : q.text? = some name) (unknown : ∀ slot ∈ slots, slot.key ≠ name) :
    Pending slots record seen members where
  keys := (List.forall_mem_cons.mp pending.keys).2
  single slot mem := valuesAt_cons_of_ne text (unknown slot mem) ▸ pending.single slot mem
  unread slot mem read :=
    valuesAt_cons_of_ne text (unknown slot mem) ▸ pending.unread slot mem read

private theorem head (pending : Pending slots record seen ((q, value) :: members))
    (text : q.text? = some slot.key) (mem : slot ∈ slots) :
    slot.key ∉ seen ∧ slot.spells value (slot.part record) ∧ valuesAt slot.key members = [] := by
  have here : valuesAt slot.key ((q, value) :: members) = value :: valuesAt slot.key members :=
    valuesAt_cons_of_eq text
  refine ⟨fun read => ?_, ?_⟩
  · have none := pending.unread slot mem read
    rw [here] at none
    cases none
  · rcases pending.single slot mem with none | ⟨only, values, spelled⟩
    · rw [here] at none
      cases none
    · rw [here] at values
      obtain ⟨rfl, behind⟩ := List.cons.inj values
      exact ⟨spelled, behind⟩

/-- Behind a member under the key of a field, this field has been read. -/
theorem read (pending : Pending slots record seen ((q, value) :: members))
    (text : q.text? = some slot.key) (mem : slot ∈ slots) :
    Pending slots record (slot.key :: seen) members := by
  have behind := (pending.head text mem).2.2
  refine ⟨(List.forall_mem_cons.mp pending.keys).2, ?_, ?_⟩
  · intro other member
    by_cases same : other.key = slot.key
    · exact Or.inl (same ▸ behind)
    · exact valuesAt_cons_of_ne text same ▸ pending.single other member
  · intro other member read
    by_cases same : other.key = slot.key
    · exact same ▸ behind
    · exact valuesAt_cons_of_ne text same ▸
        pending.unread other member ((List.mem_cons.mp read).resolve_left same)

end Pending

namespace Fits

/-- Reading a member copies the part under its key, or passes over it. -/
theorem exists_member (fits : Fits schema start slots) {members : List (Quotation × Spelling)}
    {q : Quotation} {value : Spelling} {key : Key} {draft : Draft}
    (same : key.text.toOption = q.text?) (colon : key.colon = none) (shows : draft.Shows value)
    (pending : Pending slots record seen ((q, value) :: members))
    (copied : Copied slots start record seen copy) : ∃ seen' next,
      schema.member seen copy key draft = .ok (seen', next) ∧
        Pending slots record seen' members ∧ Copied slots start record seen' next ∧
          ∀ slot ∈ slots, slot.key ∉ seen' → slot.key ∉ seen ∧
            valuesAt slot.key ((q, value) :: members) = valuesAt slot.key members := by
  obtain ⟨name, text⟩ := pending.keys (q, value) List.mem_cons_self
  have known := eq_ok_of_toOption same text
  rw [Schema.member, known]
  rcases find?_fields fits.fields name with
    ⟨none, unknown⟩ | ⟨slot, mem, field, found, readBy, rfl⟩
  · refine ⟨seen, copy, ?_, pending.pass text unknown, copied, fun slot mem unread =>
      ⟨unread, valuesAt_cons_of_ne text (unknown slot mem)⟩⟩
    simp only [none, Schema.unknownMember, fits.lax, colon, shows.skipFault?_eq_none]
    rfl
  · obtain ⟨unread, spelled, _⟩ := pending.head text mem
    obtain ⟨next, readField, copied⟩ := fits.step mem readBy copied shows spelled
    refine ⟨slot.key :: seen, next, ?_, pending.read text mem, copied, fun other _ notRead => ?_⟩
    · simp only [found, List.contains_eq_mem, unread, decide_false, Bool.false_eq_true, if_false,
        colon, readField]
      rfl
    · rw [List.mem_cons, not_or] at notRead
      exact ⟨notRead.2, valuesAt_cons_of_ne text notRead.1⟩

/-- Reading the members of an object copies the parts whose keys stand among them. -/
theorem exists_members (fits : Fits schema start slots) {members : List (Quotation × Spelling)}
    {drafts : List (Key × Draft)} (shows : Draft.ShowMembers drafts members)
    (pending : Pending slots record seen members)
    (copied : Copied slots start record seen copy) : ∃ seen' copy',
      schema.members seen copy drafts = .ok (seen', copy') ∧
        Copied slots start record seen' copy' ∧
          ∀ slot ∈ slots, slot.key ∉ seen' →
            slot.key ∉ seen ∧ valuesAt slot.key members = [] := by
  induction members generalizing drafts seen copy with
  | nil =>
      cases shows
      exact ⟨seen, copy, rfl, copied, fun slot _ unread => ⟨unread, rfl⟩⟩
  | cons member members ih =>
      cases shows with
      | cons same colon shows behind =>
          obtain ⟨seen₁, next, first, pending, copied, passed⟩ :=
            fits.exists_member same colon shows pending copied
          obtain ⟨seen', copy', read, copied, rest⟩ := ih behind pending copied
          refine ⟨seen', copy', ?_, copied, fun slot mem unread => ?_⟩
          · rw [Schema.members, first]
            exact read
          · obtain ⟨notRead, noValue⟩ := rest slot mem unread
            obtain ⟨unreadBefore, sameValues⟩ := passed slot mem notRead
            exact ⟨unreadBefore, sameValues.trans noValue⟩

/-- Reading the items of an array copies the parts of the fields in their order. -/
theorem items_eq_ok (fits : Fits schema start slots) {stop : List Char} {front : List (Slot σ)}
    {fields : List (Decoder.Field σ)} (readBy : List.Forall₂ (Slot.ReadBy slots) front fields)
    (within : ∀ slot ∈ front, slot ∈ slots) {items : List Spelling} {drafts : List Draft}
    (shows : Draft.ShowItems drafts items) (spelled : SpellsFields record front items)
    (copied : Copied slots start record seen copy)
    (passed : ∀ slot ∈ slots, slot.key ∉ seen → slot ∈ front) (index : Nat) :
    schema.items stop none index copy fields drafts = .ok record := by
  induction readBy generalizing items drafts seen copy index with
  | nil =>
      cases spelled
      cases shows
      have same := fits.eq_record copied fun slot mem unread =>
        absurd (passed slot mem unread) List.not_mem_nil
      rw [same]
      rfl
  | @cons slot field front fields first others ih =>
      cases spelled with
      | stop omissible =>
          cases shows
          have same := fits.eq_record copied fun slot mem unread =>
            omissible slot (passed slot mem unread)
          have noneRequired := findIdx?_required (.cons first others) omissible
          rw [Schema.items, Schema.atEnd, noneRequired, same]
          rfl
      | next spelled behind =>
          cases shows with
          | cons shows showItems =>
              obtain ⟨mem, within⟩ := List.forall_mem_cons.mp within
              obtain ⟨next, read, copied⟩ := fits.step mem first copied shows spelled
              have passed : ∀ other ∈ slots, other.key ∉ slot.key :: seen → other ∈ front := by
                intro other member unread
                have differ : other ≠ slot := fun same => unread (same ▸ List.mem_cons_self)
                have notRead := fun read => unread (List.mem_cons_of_mem _ read)
                exact (List.mem_cons.mp (passed other member notRead)).resolve_left differ
              rw [Schema.items, read]
              exact ih within showItems behind copied passed (index + 1)

/-- No field is missing when those that are not read may be left out. -/
theorem missing?_eq_none (fits : Fits schema start slots)
    (omissible : ∀ slot ∈ slots, slot.key ∉ seen → slot.Omissible record) :
    schema.missing? seen = none := by
  rw [Schema.missing?, List.find?_eq_none]
  intro field member
  obtain ⟨slot, mem, readBy⟩ := exists_slot fits.fields member
  by_cases read : slot.key ∈ seen
  · simp [readBy.key, read]
  · have notRequired : field.required = false := by
      rw [readBy.required, omissible slot mem read]
      rfl
    simp [notRequired]

/-- **Decoding records.** A schema that fits gives each record, however it is spelled. -/
theorem decodes (fits : Fits schema start slots) :
    Decodes (schema.decode start) (SpellsRecord slots) := by
  intro draft s record shows spelled
  have initially : Copied slots start record [] start := fun slot _ => rfl
  cases spelled with
  | @object members _ keys fields =>
      cases shows with
      | @object span drafts _ shows =>
          have pending : Pending slots record [] members := by
            refine ⟨keys, fun slot mem => ?_, by simp⟩
            exact (fields slot mem).eq_nil_or.imp_left And.left
          obtain ⟨seen, copy, read, copied, rest⟩ := fits.exists_members shows pending initially
          have omissible : ∀ slot ∈ slots, slot.key ∉ seen → slot.Omissible record := by
            intro slot mem unread
            have noValue := (rest slot mem unread).2
            rcases (fields slot mem).eq_nil_or with ⟨_, omissible⟩ | ⟨value, values, _⟩
            · exact omissible
            · rw [noValue] at values
              cases values
          rw [Schema.decode, read]
          simp only [bind, Except.bind]
          rw [fits.missing?_eq_none omissible, fits.eq_record copied omissible]
          rfl
  | array fields =>
      cases shows with
      | array shows =>
          exact fits.items_eq_ok fits.fields (fun _ mem => mem) shows fields initially
            (fun _ mem _ => mem) 0

end Fits

end Json

end RouteClient
