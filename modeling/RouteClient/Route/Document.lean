import RouteClient.Failure
import RouteClient.Json.Decoder
import RouteClient.Json.Writer
import RouteClient.Route.Basic

/-!
# Route documents

Routes are exchanged as JSON: a document is an array of routes, or an object that has such an array
under the key `routes`. `parseRoutes` reads a document, and `Route.toJson` gives the value under
which a route is written.
-/

namespace RouteClient

open Json (Decoder)

open Json.Decoder (Field Schema)

/-- Decodes the verb of a route. -/
def Method.decode : Decoder Method :=
  Decoder.word Method.ofName? (Method.all.map Method.name)

/-- Decodes the category of a parameter. -/
def Category.decode : Decoder Category :=
  Decoder.word Category.ofName? ["param", "path-segment", "query", "body", "payload"]

/-- Decodes the kind of a documentation fragment. -/
def FragmentKind.decode : Decoder FragmentKind :=
  Decoder.word (fun name => some (FragmentKind.ofName name)) []

/-- Parameters in a document. -/
def Parameter.schema : Schema Parameter where
  name := "Parameter"
  strict := false
  fields :=
    [Field.of "name" true Decoder.string fun v p => { p with name := v },
     Field.of "field" false (Decoder.nullable Decoder.string) fun v p => { p with field := v },
     Field.of "category" true Category.decode fun v p => { p with category := v },
     Field.of "type" true Decoder.string fun v p => { p with type := v },
     Field.of "encrypted" false Decoder.bool fun v p => { p with encrypted := v }]

/-- Decodes a parameter. -/
def Parameter.decode : Decoder Parameter :=
  Parameter.schema.decode { name := "", category := .pathSegment, type := "" }

/-- Documentation fragments in a document. -/
def Fragment.schema : Schema Fragment where
  name := "DisplayPart"
  strict := false
  fields :=
    [Field.of "kind" false FragmentKind.decode fun v f => { f with kind := v },
     Field.of "text" true Decoder.string fun v f => { f with text := v }]

/-- Decodes a documentation fragment. -/
def Fragment.decode : Decoder Fragment :=
  Fragment.schema.decode { text := "" }

/-- Documentation tags in a document. -/
def Tag.schema : Schema Tag where
  name := "Tag"
  strict := false
  fields :=
    [Field.of "name" true Decoder.string fun v t => { t with name := v },
     Field.of "text" false (Decoder.nullable (Decoder.list Fragment.decode))
       fun v t => { t with text := v }]

/-- Decodes a documentation tag. -/
def Tag.decode : Decoder Tag :=
  Tag.schema.decode { name := "" }

/-- Routes in a document. -/
def Route.schema : Schema Route where
  name := "Route"
  strict := false
  fields :=
    [Field.of "name" true Decoder.string fun v r => { r with name := v },
     Field.of "method" true Method.decode fun v r => { r with method := v },
     Field.of "path" true Decoder.string fun v r => { r with path := v },
     Field.of "symbol" false Decoder.string fun v r => { r with symbol := v },
     Field.of "parameters" false (Decoder.list Parameter.decode)
       fun v r => { r with parameters := v },
     Field.of "output" false Decoder.string fun v r => { r with output := Output.ofText v },
     Field.of "encrypted" false Decoder.bool fun v r => { r with encrypted := v },
     Field.of "comments" false (Decoder.list Fragment.decode) fun v r => { r with comments := v },
     Field.of "tags" false (Decoder.list Tag.decode) fun v r => { r with tags := v }]

/-- Decodes a route. -/
def Route.decode : Decoder Route :=
  Route.schema.decode (Route.bare "" .get "")

/-- Documents in their object form. -/
def routesSchema : Schema (List Route) where
  name := "RouteDocument"
  strict := false
  fields := [Field.of "routes" true (Decoder.list Route.decode) fun v _ => v]

/-- Decodes a document in either form. -/
def decodeRoutes : Decoder (List Route)
  | .object span members fault => routesSchema.decode [] (.object span members fault)
  | draft => Decoder.list Route.decode draft

/-- Reads the routes of a document. -/
def parseRoutes (text : String) : Except Failure (List Route) :=
  match decodeRoutes.run text.toList with
  | .ok routes => .ok routes
  | .error fault =>
    let cause := fault.message text
    .error (.serialization ("invalid route document: " ++ cause) (some cause))

/-- A parameter as it is written; its field is left out when it has none. -/
def Parameter.toJson (p : Parameter) : Json :=
  .object ([("name", .string p.name)] ++
    (p.field.map fun field => ("field", Json.string field)).toList ++
    [("category", .string p.category.name), ("type", .string p.type),
     ("encrypted", .bool p.encrypted)])

/-- A documentation fragment as it is written. -/
def Fragment.toJson (f : Fragment) : Json :=
  .object [("kind", .string f.kind.name), ("text", .string f.text)]

/-- A documentation tag as it is written. -/
def Tag.toJson (t : Tag) : Json :=
  .object [("name", .string t.name),
    ("text", match t.text with
      | none => .null
      | some fragments => .array (fragments.map Fragment.toJson))]

/-- A route as it is written. -/
def Route.toJson (r : Route) : Json :=
  .object [("name", .string r.name), ("method", .string r.method.name), ("path", .string r.path),
    ("symbol", .string r.symbol), ("parameters", .array (r.parameters.map Parameter.toJson)),
    ("output", .string r.output.text), ("encrypted", .bool r.encrypted),
    ("comments", .array (r.comments.map Fragment.toJson)),
    ("tags", .array (r.tags.map Tag.toJson))]

/-- A list of routes as it is written. -/
def routesJson (routes : List Route) : Json :=
  .array (routes.map Route.toJson)

end RouteClient
