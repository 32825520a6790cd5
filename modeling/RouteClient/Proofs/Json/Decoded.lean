import RouteClient.Json.Decoder
import RouteClient.Proofs.Outcome

/-!
# What decoded values have

A property of records that decoding starts with, and that the reading of each field keeps, is one of
every record that is decoded (`Keeps.decode`), in whatever order its fields are read.
-/

namespace RouteClient

namespace Json

namespace Decoder

variable {α σ : Type} {schema : Schema σ} {start record : σ} {P : σ → Prop}

/-- What is read from a text is decoded from a draft. -/
theorem exists_draft {decode : Decoder α} {text : List Char} {value : α}
    (read : Decoder.run decode text = .ok value) : ∃ draft, decode draft = .ok value := by
  unfold Decoder.run at read
  generalize Draft.read text = reading at read
  obtain ⟨result, decoded, read⟩ := Outcome.bind_eq_ok.mp read
  split at read
  · cases read
    exact ⟨reading.1, decoded⟩
  · cases read

/-- Each value of a decoded list is decoded from an item. -/
theorem exists_item {decode : Decoder α} {draft : Draft} {values : List α}
    (read : Decoder.list decode draft = .ok values) {value : α} (mem : value ∈ values) :
    ∃ item, decode item = .ok value := by
  unfold Decoder.list at read
  split at read
  · obtain ⟨results, decoded, read⟩ := Outcome.bind_eq_ok.mp read
    obtain ⟨_, _, same⟩ := Outcome.bind_eq_ok.mp read
    cases same
    have listed : (.ok value : Except Fault α) ∈ values.map .ok := List.mem_map_of_mem mem
    rw [← Outcome.mapM_eq_ok.mp decoded] at listed
    obtain ⟨item, _, decoded⟩ := List.mem_map.mp listed
    exact ⟨item, decoded⟩
  · cases read

/-- A field keeps what holds of a record when storing its value does. -/
theorem Field.of_keeps {key : String} {required : Bool} {decode : Decoder α} {store : α → σ → σ}
    (kept : ∀ a record, P record → P (store a record)) (draft : Draft) (record next : σ)
    (holds : P record) (read : (Field.of key required decode store).read draft record = .ok next) :
    P next := by
  obtain ⟨a, _, rfl⟩ := Outcome.map_eq_ok.mp read
  exact kept a record holds

namespace Schema

/-- What holds of a record and is kept by the reading of each field. -/
def Keeps (schema : Schema σ) (P : σ → Prop) : Prop :=
  ∀ field ∈ schema.fields, ∀ draft record next,
    P record → field.read draft record = .ok next → P next

private theorem Keeps.members (keeps : schema.Keeps P) {entries : List (Key × Draft)}
    {seen seen' : List String} (holds : P start)
    (read : schema.members seen start entries = .ok (seen', record)) : P record := by
  induction entries generalizing seen start with
  | nil =>
      obtain ⟨rfl, rfl⟩ := Prod.mk.inj (Except.ok.inj read)
      exact holds
  | cons entry entries ih =>
      obtain ⟨key, value⟩ := entry
      rw [members, Outcome.bind_eq_ok] at read
      obtain ⟨⟨seen, next⟩, first, read⟩ := read
      -- Only the member of a known field changes the record. It comes last, behind unknown keys and
      -- failures.
      refine ih ?_ read
      unfold member at first
      split at first
      · cases first
      · split at first
        · obtain ⟨_, _, same⟩ := Outcome.bind_eq_ok.mp first
          cases same
          exact holds
        · split at first
          · cases first
          · obtain ⟨_, _, first⟩ := Outcome.bind_eq_ok.mp first
            obtain ⟨next, readField, same⟩ := Outcome.bind_eq_ok.mp first
            cases same
            exact keeps _ (List.mem_of_find?_eq_some ‹_›) _ _ _ holds readField

private theorem Keeps.items (keeps : schema.Keeps P) {stop : List Char} {fault : Option Break}
    {fields : List (Field σ)} (within : ∀ field ∈ fields, field ∈ schema.fields) {index : Nat}
    {entries : List Draft} (holds : P start)
    (read : schema.items stop fault index start fields entries = .ok record) : P record := by
  induction fields generalizing start index entries with
  | nil =>
      obtain ⟨_, _, same⟩ := Outcome.bind_eq_ok.mp read
      cases same
      exact holds
  | cons field fields ih =>
      obtain ⟨mem, within⟩ := List.forall_mem_cons.mp within
      cases entries with
      | nil =>
          obtain ⟨_, _, read⟩ := Outcome.bind_eq_ok.mp read
          obtain ⟨_, _, same⟩ := Outcome.bind_eq_ok.mp read
          cases same
          exact holds
      | cons item entries =>
          obtain ⟨next, readField, read⟩ := Outcome.bind_eq_ok.mp read
          exact ih within (keeps field mem _ _ _ holds readField) read

/-- A decoded record has what the reading of each field keeps. -/
theorem Keeps.decode (keeps : schema.Keeps P) (holds : P start) {draft : Draft}
    (read : schema.decode start draft = .ok record) : P record := by
  unfold Schema.decode at read
  split at read
  · obtain ⟨⟨seen, copy⟩, readMembers, read⟩ := Outcome.bind_eq_ok.mp read
    obtain ⟨_, _, read⟩ := Outcome.bind_eq_ok.mp read
    have kept := keeps.members holds readMembers
    split at read
    · cases read
    · cases read
      exact kept
  · exact keeps.items (fun _ mem => mem) holds read
  · cases read

end Schema

end Decoder

end Json

end RouteClient
