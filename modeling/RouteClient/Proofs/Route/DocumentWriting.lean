import RouteClient.Proofs.Json.Decoded
import RouteClient.Proofs.Json.Writing
import RouteClient.Proofs.Route.DocumentReading

/-!
# Writing route documents and reading them back

The value that a list of routes is written as is one of the spellings of the list, as long as no
output is a type with the name that stands for no value. No list that is read has such an output, so
that a list that has been read is read again from its written form (`parseRoutes_written`).
-/

namespace RouteClient

open Json

/-- The output is not the type whose name stands for no value. -/
def Output.Writable (output : Output) : Prop := output ≠ .type "void"

/-- An output that can be written is read back. -/
theorem Output.ofText_text {output : Output} (writable : output.Writable) :
    ofText output.text = output := by
  cases output with
  | void => rfl
  | type name =>
      have other : name ≠ "void" := fun same => writable (congrArg type same)
      exact if_neg other

private theorem Output.writable_ofText (text : String) : (ofText text).Writable := by
  unfold ofText Writable
  split
  · exact Output.noConfusion
  · rename_i other
    exact fun same => other (Output.type.inj same)

namespace Json

variable {σ : Type} {record : σ} {slots : List (Slot σ)} {members : List (String × Json)}

/-- The members are the fields of a record in their order, without some that may be left out. -/
inductive WritesFields (record : σ) : List (Slot σ) → List (String × Json) → Prop where
  | nil : WritesFields record [] []
  | written {slot : Slot σ} {slots : List (Slot σ)} {value : Json} {members : List (String × Json)}
    (spelled : slot.spells value.spelling (slot.part record))
    (behind : WritesFields record slots members) :
    WritesFields record (slot :: slots) ((slot.key, value) :: members)
  | omitted {slot : Slot σ} {slots : List (Slot σ)} {members : List (String × Json)}
    (omissible : slot.Omissible record) (behind : WritesFields record slots members) :
    WritesFields record (slot :: slots) members

private theorem WritesFields.valuesAt_eq_nil (writes : WritesFields record slots members)
    {key : String}
    (other : ∀ slot ∈ slots, key ≠ slot.key) : valuesAt key (memberSpellings members) = [] := by
  induction writes with
  | nil => rfl
  | written _ _ ih =>
      obtain ⟨differs, others⟩ := List.forall_mem_cons.mp other
      rw [memberSpellings, valuesAt_cons_of_ne (Quotation.text?_of _) differs]
      exact ih others
  | omitted _ _ ih => exact ih (List.forall_mem_cons.mp other).2

private theorem WritesFields.spells (writes : WritesFields record slots members)
    (apart : (slots.map (·.key)).Nodup) :
    ∀ slot ∈ slots, slot.Spells record (valuesAt slot.key (memberSpellings members)) := by
  induction writes with
  | nil => simp
  | @written slot slots value members spelled behind ih =>
      rw [List.map_cons, List.nodup_cons] at apart
      have differs : ∀ other ∈ slots, other.key ≠ slot.key := fun other mem same =>
        apart.1 (same ▸ List.mem_map_of_mem mem)
      have here := behind.valuesAt_eq_nil fun other mem => (differs other mem).symm
      rw [memberSpellings]
      refine List.forall_mem_cons.mpr ⟨?_, fun other mem => ?_⟩
      · rw [valuesAt_cons_of_eq (Quotation.text?_of _), here]
        exact .given spelled
      · rw [valuesAt_cons_of_ne (Quotation.text?_of _) (differs other mem)]
        exact ih apart.2 other mem
  | @omitted slot slots members omissible behind ih =>
      rw [List.map_cons, List.nodup_cons] at apart
      have differs : ∀ other ∈ slots, slot.key ≠ other.key := fun other mem same =>
        apart.1 (same ▸ List.mem_map_of_mem mem)
      refine List.forall_mem_cons.mpr ⟨?_, ih apart.2⟩
      rw [behind.valuesAt_eq_nil differs]
      exact .omitted omissible

/-- An object that is written with the fields of a record spells the record. -/
theorem WritesFields.spellsRecord (writes : WritesFields record slots members)
    (apart : (slots.map (·.key)).Nodup) :
    SpellsRecord slots (Json.object members).spelling record := by
  rw [Json.spelling]
  refine .object ?_ (writes.spells apart)
  clear writes
  induction members with
  | nil => simp [memberSpellings]
  | cons member members ih =>
      rw [memberSpellings, List.forall_mem_cons]
      exact ⟨⟨member.1, Quotation.text?_of member.1⟩, ih⟩

/-- A text is spelled as it is written. -/
theorem spellsString_written (text : String) : SpellsString (Json.string text).spelling text :=
  .quoted (Quotation.text?_of text)

/-- A truth value is spelled as it is written. -/
theorem spellsBool_written (b : Bool) : SpellsBool (Json.bool b).spelling b := .word b

/-- A word of a fixed choice is spelled as its name is written. -/
theorem spellsWord_written {α : Type} {find : String → Option α} {name : String} {a : α}
    (known : find name = some a) : SpellsWord find (Json.string name).spelling a :=
  .quoted (Quotation.text?_of name) known

/-- A list is spelled as its items are written. -/
theorem spellsList_written {α : Type} {spells : Spelling → α → Prop} {toJson : α → Json}
    {values : List α} (each : ∀ value ∈ values, spells (toJson value).spelling value) :
    SpellsList spells (Json.array (values.map toJson)).spelling values := by
  refine .items ?_
  induction values with
  | nil => exact .nil
  | cons value values ih =>
      obtain ⟨first, others⟩ := List.forall_mem_cons.mp each
      exact .cons first (ih others)

end Json

/-- A category is known by its name. -/
theorem Category.ofName?_name (category : Category) : ofName? category.name = some category := by
  cases category <;> rfl

/-- A method is known by its name. -/
theorem Method.ofName?_name (method : Method) : ofName? method.name = some method := by
  cases method <;> rfl

/-- A kind of fragments is known by its name. -/
theorem FragmentKind.ofName_name (kind : FragmentKind) : ofName kind.name = kind := by
  cases kind <;> rfl

/-- A parameter is spelled as it is written. -/
theorem Parameter.spelled (p : Parameter) : SpellsRecord slots p.toJson.spelling p := by
  have behind : WritesFields p (slots.drop 2) [("category", .string p.category.name),
      ("type", .string p.type), ("encrypted", .bool p.encrypted)] :=
    .written (spellsWord_written (Category.ofName?_name p.category)) <|
    .written (spellsString_written p.type) <|
    .written (spellsBool_written p.encrypted) .nil
  unfold toJson
  refine WritesFields.spellsRecord (.written (spellsString_written p.name) ?_) fits.apart
  cases field : p.field with
  | none => exact .omitted (congrArg some field.symm) behind
  | some name =>
      refine .written ?_ behind
      change SpellsOption SpellsString _ p.field
      rw [field]
      exact .present (spellsString_written name)

/-- A fragment is spelled as it is written. -/
theorem Fragment.spelled (f : Fragment) : SpellsRecord slots f.toJson.spelling f := by
  have kind : some (FragmentKind.ofName f.kind.name) = some f.kind :=
    congrArg some (FragmentKind.ofName_name f.kind)
  refine WritesFields.spellsRecord ?_ fits.apart
  exact .written (spellsWord_written kind) (.written (spellsString_written f.text) .nil)

/-- A tag is spelled as it is written. -/
theorem Tag.spelled (t : Tag) : SpellsRecord slots t.toJson.spelling t := by
  refine WritesFields.spellsRecord (.written (spellsString_written t.name) ?_) fits.apart
  refine .written ?_ .nil
  change SpellsOption (SpellsList (SpellsRecord Fragment.slots)) _ t.text
  cases t.text with
  | none => exact .absent
  | some fragments => exact .present (spellsList_written fun fragment _ => fragment.spelled)

/-- A route is spelled as it is written. -/
theorem Route.spelled {r : Route} (writable : r.output.Writable) :
    SpellsRecord slots r.toJson.spelling r := by
  refine WritesFields.spellsRecord ?_ fits.apart
  exact
    .written (spellsString_written r.name) <|
    .written (spellsWord_written (Method.ofName?_name r.method)) <|
    .written (spellsString_written r.path) <|
    .written (spellsString_written r.symbol) <|
    .written (spellsList_written fun p _ => p.spelled) <|
    .written ⟨_, spellsString_written r.output.text, Output.ofText_text writable⟩ <|
    .written (spellsBool_written r.encrypted) <|
    .written (spellsList_written fun fragment _ => fragment.spelled) <|
    .written (spellsList_written fun tag _ => tag.spelled) .nil

/-- The two forms in which a list of routes can be written as a document. -/
def routesDocuments (routes : List Route) : List Json :=
  [routesJson routes, .object [("routes", routesJson routes)]]

/-- Routes are spelled by both documents that they are written as. -/
theorem spellsRoutes_written {routes : List Route} (writable : ∀ r ∈ routes, r.output.Writable) :
    ∀ document ∈ routesDocuments routes, SpellsRoutes document.spelling routes := by
  have bare : SpellsList (SpellsRecord Route.slots) (routesJson routes).spelling routes :=
    spellsList_written fun r mem => Route.spelled (writable r mem)
  have keyed : WritesFields routes routesSlots [("routes", routesJson routes)] := .written bare .nil
  rw [routesDocuments, List.forall_mem_cons, List.forall_mem_singleton]
  exact ⟨.bare bare, .keyed (keyed.spellsRecord routesFits.apart)⟩

private theorem Route.keeps_writable : schema.Keeps fun r => r.output.Writable := by
  intro field mem
  simp only [schema, List.mem_cons, List.not_mem_nil, or_false] at mem
  rcases mem with rfl | rfl | rfl | rfl | rfl | rfl | rfl | rfl | rfl
  case inr.inr.inr.inr.inr.inl =>
    exact Decoder.Field.of_keeps fun text _ _ => Output.writable_ofText text
  all_goals exact Decoder.Field.of_keeps fun _ _ writable => writable

/-- Outputs that have been read can be written. -/
theorem writable_of_list {draft : Draft} {routes : List Route}
    (read : Decoder.list Route.decode draft = .ok routes) : ∀ r ∈ routes, r.output.Writable := by
  intro r mem
  obtain ⟨item, decoded⟩ := Decoder.exists_item read mem
  exact Route.keeps_writable.decode Output.noConfusion decoded

private theorem routesSchema_keeps :
    routesSchema.Keeps fun routes => ∀ r ∈ routes, r.output.Writable := by
  intro field mem draft routes next _ read
  obtain rfl := List.mem_singleton.mp mem
  obtain ⟨value, decoded, rfl⟩ := Outcome.map_eq_ok.mp read
  exact writable_of_list decoded

/-- No list that is read has an output whose written form stands for something else. -/
theorem writable_of_parseRoutes {text : String} {routes : List Route}
    (read : parseRoutes text = .ok routes) : ∀ r ∈ routes, r.output.Writable := by
  unfold parseRoutes at read
  split at read
  · rename_i run
    cases read
    obtain ⟨draft, decoded⟩ := Decoder.exists_draft run
    unfold decodeRoutes at decoded
    split at decoded
    · exact routesSchema_keeps.decode (by simp) decoded
    · exact writable_of_list decoded
  · cases read

/-- **Writing and reading back.** A list of routes without outputs of the type `void` is read from
its written form, bare or under its key, with any blanks between the tokens. Lists that are read
have no such outputs, so that each of them is read again from its written form. -/
theorem parseRoutes_written (routes : List Route) :
    ((∀ r ∈ routes, r.output ≠ .type "void") → ∀ document ∈ routesDocuments routes,
      document.compact.toList = document.spelling.tokens.flatten ∧
        ∀ text, document.spelling.Text text → parseRoutes text = .ok routes) ∧
      ∀ text, parseRoutes text = .ok routes → (∀ r ∈ routes, r.output ≠ .type "void") ∧
        ∀ document ∈ routesDocuments routes, parseRoutes document.compact = .ok routes := by
  have readBack (writable : ∀ r ∈ routes, r.output ≠ .type "void") (document : Json)
      (mem : document ∈ routesDocuments routes) (text : String)
      (spaced : document.spelling.Text text) : parseRoutes text = .ok routes :=
    parseRoutes_spelled (spellsRoutes_written writable document mem) spaced
  constructor
  · intro writable document mem
    exact ⟨toList_compact document, readBack writable document mem⟩
  · intro text read
    have writable := writable_of_parseRoutes read
    refine ⟨writable, fun document mem => ?_⟩
    exact readBack writable document mem document.compact (compact_spelled document)

/-- A route with texts that are escaped, without field and tag text. -/
def Route.escaped : List Route :=
  [{ name := "say \"hi\"", method := .post, path := "/a\\b", symbol := "\t\x01"
     parameters := [.query "first\n" "number"]
     output := .type "Greeting"
     tags := [{ name := "see" }] }]

/-- Routes with texts that need escapes are read back. -/
theorem parseRoutes_escaped : (∀ r ∈ Route.escaped, r.output ≠ .type "void") ∧
    ∀ document ∈ routesDocuments Route.escaped,
      parseRoutes document.compact = .ok Route.escaped := by
  have writable : ∀ r ∈ Route.escaped, r.output ≠ .type "void" := by decide
  refine ⟨writable, fun document mem => ?_⟩
  exact ((parseRoutes_written Route.escaped).1 writable document mem).2 _ (compact_spelled document)

end RouteClient
