import RouteClient.Proofs.Json.Records
import RouteClient.Proofs.Json.Writing
import RouteClient.Route.Document

/-!
# How route documents are spelled

The fields of parameters, fragments, tags and routes as documents know them, and the two forms of a
document. A document may be written in many ways: the members of each object come in any order and
with others among them, fields may be left out for their defaults, absent values may be null,
records may be arrays, words may have second names, and strings any escapes. All spellings of a list
of routes are read alike (`parseRoutes_spelled`).
-/

namespace RouteClient

open Json

/-- The fields of a parameter. -/
def Parameter.slots : List (Slot Parameter) :=
  [{ key := "name", part := Parameter.name, spells := SpellsString },
   { key := "field", part := Parameter.field, spells := SpellsOption SpellsString,
     default? := some none },
   { key := "category", part := Parameter.category, spells := SpellsWord Category.ofName? },
   { key := "type", part := Parameter.type, spells := SpellsString },
   { key := "encrypted", part := Parameter.encrypted, spells := SpellsBool,
     default? := some false }]

/-- The fields of a fragment. -/
def Fragment.slots : List (Slot Fragment) :=
  [{ key := "kind", part := Fragment.kind,
     spells := SpellsWord fun name => some (FragmentKind.ofName name), default? := some .text },
   { key := "text", part := Fragment.text, spells := SpellsString }]

/-- The fields of a tag. -/
def Tag.slots : List (Slot Tag) :=
  [{ key := "name", part := Tag.name, spells := SpellsString },
   { key := "text", part := Tag.text,
     spells := SpellsOption (SpellsList (SpellsRecord Fragment.slots)), default? := some none }]

/-- A string spells the output that it is the written form of. -/
def SpellsOutput (s : Spelling) (output : Output) : Prop :=
  ∃ text, SpellsString s text ∧ Output.ofText text = output

/-- The fields of a route. -/
def Route.slots : List (Slot Route) :=
  [{ key := "name", part := Route.name, spells := SpellsString },
   { key := "method", part := Route.method, spells := SpellsWord Method.ofName? },
   { key := "path", part := Route.path, spells := SpellsString },
   { key := "symbol", part := Route.symbol, spells := SpellsString, default? := some "" },
   { key := "parameters", part := Route.parameters,
     spells := SpellsList (SpellsRecord Parameter.slots), default? := some [] },
   { key := "output", part := Route.output, spells := SpellsOutput, default? := some .void },
   { key := "encrypted", part := Route.encrypted, spells := SpellsBool, default? := some false },
   { key := "comments", part := Route.comments,
     spells := SpellsList (SpellsRecord Fragment.slots), default? := some [] },
   { key := "tags", part := Route.tags, spells := SpellsList (SpellsRecord Tag.slots),
     default? := some [] }]

/-- The one field of the object form of a document. -/
def routesSlots : List (Slot (List Route)) :=
  [{ key := "routes", part := id, spells := SpellsList (SpellsRecord Route.slots) }]

/-- The spellings of a document: an array of routes, or an object that has one under its key. -/
inductive SpellsRoutes : Spelling → List Route → Prop where
  | bare {s : Spelling} {routes : List Route}
    (spelled : SpellsList (SpellsRecord Route.slots) s routes) :
    SpellsRoutes s routes
  | keyed {members : List (Quotation × Spelling)} {routes : List Route}
    (spelled : SpellsRecord routesSlots (.object members) routes) :
    SpellsRoutes (.object members) routes

/-- The schema of parameters reads their fields. -/
theorem Parameter.fits :
    Fits schema { name := "", category := .pathSegment, type := "" } Parameter.slots where
  lax := rfl
  fields :=
    .cons (.direct decodes_string (fun _ _ => rfl) (by simp [slots]) rfl) <|
    .cons (.direct (decodes_string.nullable nofun) (fun _ _ => rfl) (by simp [slots]) rfl) <|
    .cons (.direct (decodes_word _ _) (fun _ _ => rfl) (by simp [slots]) rfl) <|
    .cons (.direct decodes_string (fun _ _ => rfl) (by simp [slots]) rfl) <|
    .cons (.direct decodes_bool (fun _ _ => rfl) (by simp [slots]) rfl) .nil
  apart := by decide
  defaults := by simp [slots]
  complete := by
    rintro ⟨⟩ ⟨⟩ same
    simpa [slots] using same

/-- The schema of fragments reads their fields. -/
theorem Fragment.fits : Fits schema { text := "" } Fragment.slots where
  lax := rfl
  fields :=
    .cons (.direct (decodes_word _ _) (fun _ _ => rfl) (by simp [slots]) rfl) <|
    .cons (.direct decodes_string (fun _ _ => rfl) (by simp [slots]) rfl) .nil
  apart := by decide
  defaults := by simp [slots]
  complete := by
    rintro ⟨⟩ ⟨⟩ same
    simpa [slots] using same

/-- The schema of tags reads their fields. -/
theorem Tag.fits : Fits schema { name := "" } Tag.slots where
  lax := rfl
  fields :=
    .cons (.direct decodes_string (fun _ _ => rfl) (by simp [slots]) rfl) <|
    .cons (.direct (Fragment.fits.decodes.list.nullable nofun) (fun _ _ => rfl) (by simp [slots])
      rfl) .nil
  apart := by decide
  defaults := by simp [slots]
  complete := by
    rintro ⟨⟩ ⟨⟩ same
    simpa [slots] using same

/-- The schema of routes reads their fields. -/
theorem Route.fits : Fits schema (bare "" .get "") Route.slots where
  lax := rfl
  fields :=
    .cons (.direct decodes_string (fun _ _ => rfl) (by simp [slots]) rfl) <|
    .cons (.direct (decodes_word _ _) (fun _ _ => rfl) (by simp [slots]) rfl) <|
    .cons (.direct decodes_string (fun _ _ => rfl) (by simp [slots]) rfl) <|
    .cons (.direct decodes_string (fun _ _ => rfl) (by simp [slots]) rfl) <|
    .cons (.direct Parameter.fits.decodes.list (fun _ _ => rfl) (by simp [slots]) rfl) <|
    .cons (.of decodes_string (fun ⟨text, spelled, same⟩ => ⟨text, spelled, fun _ => same⟩)
      (by simp [slots]) rfl) <|
    .cons (.direct decodes_bool (fun _ _ => rfl) (by simp [slots]) rfl) <|
    .cons (.direct Fragment.fits.decodes.list (fun _ _ => rfl) (by simp [slots]) rfl) <|
    .cons (.direct Tag.fits.decodes.list (fun _ _ => rfl) (by simp [slots]) rfl) .nil
  apart := by decide
  defaults := by simp [slots, bare]
  complete := by
    rintro ⟨⟩ ⟨⟩ same
    simpa [slots] using same

/-- The schema of documents reads their one field. -/
theorem routesFits : Fits routesSchema [] routesSlots where
  lax := rfl
  fields :=
    .cons (.direct Route.fits.decodes.list (fun _ _ => rfl) (by simp [routesSlots]) rfl) .nil
  apart := by decide
  defaults := by simp [routesSlots]
  complete := by simp [routesSlots]

/-- Documents are decoded to the routes that they spell. -/
theorem decodes_routes : Decodes decodeRoutes SpellsRoutes := by
  intro draft s routes shows spelled
  cases spelled with
  | bare spelled =>
      have read := Route.fits.decodes.list shows spelled
      cases spelled
      cases shows
      exact read
  | keyed spelled =>
      have read := routesFits.decodes shows spelled
      cases shows
      exact read

/-- **Equivalent spellings.** Every spelling of a list of routes is read as this list. -/
theorem parseRoutes_spelled {s : Spelling} {routes : List Route} {text : String}
    (spelled : SpellsRoutes s routes) (spaced : s.Text text) : parseRoutes text = .ok routes := by
  rw [parseRoutes, decodes_routes.run spaced spelled]

/-- A document with other members among its own, keys in another order, second names, fields that
are left out or null, a kind that is not known, and records that are arrays. -/
def Route.oddSpelling : Spelling :=
  .object
    [(.of "version", .array [.number (.of 2), .object []]),
     (.of "routes", .array
      [.array [.string (.of "ping"), .string (.of "GET"),
        .string (.letter '/' '/' rfl :: Quotation.of "ping")],
       .object
        [(.of "path", .string (.of "/items/:id")), (.of "owner", .null),
         (.of "method", .string (.of "GET")),
         (.of "parameters", .array
          [.object
            [(.of "type", .string (.of "string")), (.of "category", .string (.of "param")),
             (.of "field", .null), (.of "name", .string (.of "id"))]]),
         (.of "comments", .array [.array [.string (.of "mark"), .string (.of "Finds")]]),
         (.of "name", .string (.of "find"))]])]

/-- Two routes that can be spelled oddly. -/
def Route.pingAndFind : List Route :=
  [.bare "ping" .get "/ping",
   { Route.bare "find" .get "/items/:id" with
     parameters := [{ name := "id", category := .pathSegment, type := "string" }]
     comments := [{ kind := .other, text := "Finds" }] }]

/-- Two routes in an unusual spelling: fields as arrays, out of order, left out or unknown. -/
theorem parseRoutes_oddSpelling :
    SpellsRoutes Route.oddSpelling Route.pingAndFind ∧
      parseRoutes (String.ofList Route.oddSpelling.tokens.flatten) = .ok Route.pingAndFind := by
  have string (text : String) : SpellsString (.string (.of text)) text :=
    .quoted (Quotation.text?_of text)
  have word {α : Type} {find : String → Option α} (name : String) {a : α}
      (known : find name = some a) : SpellsWord find (.string (.of name)) a :=
    .quoted (Quotation.text?_of name) known
  have spelled : SpellsRoutes Route.oddSpelling Route.pingAndFind := by
    refine .keyed (.object (by simp [Quotation.text?_of]) ?_)
    simp only [routesSlots, List.forall_mem_singleton]
    refine .given (.items (.cons ?ping (.cons ?find .nil)))
    case ping =>
      exact .array <| .next (string "ping") <| .next (word "GET" rfl) <|
        .next (.quoted (by decide)) <| .stop (by simp [Slot.Omissible, Route.bare])
    case find =>
      refine .object (by simp [Quotation.text?_of]) ?_
      simp only [Route.slots, List.forall_mem_cons]
      refine ⟨.given (string "find"), .given (word "GET" rfl), .given (string "/items/:id"),
        .omitted rfl, .given (.items (.cons ?parameter .nil)), .omitted rfl, .omitted rfl,
        .given (.items (.cons ?comment .nil)), .omitted rfl, by simp⟩
      case parameter =>
        refine .object (by simp [Quotation.text?_of]) ?_
        simp only [Parameter.slots, List.forall_mem_cons]
        exact ⟨.given (string "id"), .given .absent, .given (word "param" rfl),
          .given (string "string"), .omitted rfl, by simp⟩
      case comment =>
        exact .array <| .next (word "mark" rfl) <| .next (string "Finds") <| .stop (by simp)
  refine ⟨spelled, parseRoutes_spelled spelled ?_⟩
  rw [Spelling.Text, String.toList_ofList]
  exact Spaced.flatten _

end RouteClient
