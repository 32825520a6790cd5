import RouteClient.Client.Documentation
import RouteClient.Route.PathLiteral

/-!
# Generated functions

The code generated for one route has three sections: the signature of a function with its
documentation, a body that hands the call to the fetch helper, and a namespace of the same name with
type aliases, the facts of the route and its path builder. `ClientFunction` holds them as data;
`Route.clientFunction` makes them from a route, and is where routes are refused.
-/

namespace RouteClient

/-- The type aliases of a companion namespace. -/
inductive Alias where
  | query
  | input
  | output
  deriving DecidableEq

/-- The name of an alias. -/
def Alias.name : Alias → String
  | .query => "Query"
  | .input => "Input"
  | .output => "Output"

/-- A type as the signature refers to it. -/
inductive TypeReference where
  /-- No value. -/
  | void
  /-- A type written as the route gives it. -/
  | verbatim (type : String)
  /-- The projection of an alias in a companion namespace. -/
  | projected (primitive companion : String) (typeAlias : Alias)
  deriving DecidableEq

/-- A formal parameter. -/
structure Formal where
  name : String
  type : TypeReference
  deriving DecidableEq

/-- The signature of a generated function with its documentation. -/
structure Signature where
  documentation : String
  name : String
  formals : List Formal
  result : TypeReference
  deriving DecidableEq

/-- The call in the body of a generated function: the helper, the companion whose facts it is given,
the arguments of the path builder, and the payload. -/
structure FetchCall where
  fetcher : String
  connection : String
  companion : String
  pathArguments : List String
  payload : Option String
  deriving DecidableEq

/-- The declaration of an alias as the projection of a type. -/
structure AliasDeclaration where
  typeAlias : Alias
  primitive : String
  type : String
  deriving DecidableEq

/-- The companion namespace of a generated function. -/
structure Companion where
  name : String
  aliases : List AliasDeclaration
  method : Method
  path : String
  inputEncrypted : Bool
  outputEncrypted : Bool
  pathFormals : List Formal
  pathLiteral : PathLiteral
  deriving DecidableEq

/-- The code generated for one route. -/
structure ClientFunction where
  signature : Signature
  body : FetchCall
  companion : Companion
  deriving DecidableEq

/-- The type of a parameter in the signature of the function `function`. -/
def Parameter.reference (p : Parameter) (primitive function : String) : TypeReference :=
  match p.category with
  | .pathSegment => .verbatim p.type
  | .query => .projected primitive function .query
  | .payload => .projected primitive function .input

namespace Route

/-- The signature of a route's function. -/
def signature (r : Route) (s : Settings) : Signature :=
  { documentation := r.documentation s
    name := r.name
    formals := ⟨connectionName, .verbatim s.connectionType⟩ ::
      r.parameters.map fun p => ⟨p.name, p.reference s.primitive r.name⟩
    result :=
      match r.output with
      | .void => .void
      | .type _ => .projected s.primitive r.name .output }

/-- The body of a route's function. -/
def body (r : Route) (s : Settings) (roles : Roles) : FetchCall :=
  { fetcher := s.fetcher
    connection := connectionName
    companion := r.name
    pathArguments := roles.callOrder.map (·.name)
    payload := roles.payload.map (·.name) }

/-- The aliases that a route needs: one for its query, its payload and its output. -/
def aliases (r : Route) (s : Settings) (roles : Roles) : List AliasDeclaration :=
  (roles.query.map fun p => ⟨.query, s.primitive, p.type⟩).toList ++
    (roles.payload.map fun p => ⟨.input, s.primitive, p.type⟩).toList ++
    (r.output.type?.map fun type => ⟨.output, s.primitive, type⟩).toList

/-- The companion namespace of a route's function. -/
def companion (r : Route) (s : Settings) (roles : Roles) (literal : PathLiteral) : Companion :=
  { name := r.name
    aliases := r.aliases s roles
    method := r.method
    path := r.path
    inputEncrypted := roles.payload.any (·.encrypted)
    outputEncrypted := r.encrypted
    pathFormals := roles.callOrder.map fun p => ⟨p.name, .verbatim p.type⟩
    pathLiteral := literal }

/-- The roles and the path literal of a route whose names can be used. Names are checked first, then
roles, then placeholders. -/
def prepared (r : Route) : Except Failure (Roles × PathLiteral) := do
  r.checkNames
  let roles ← r.roles
  let literal ← r.literalOf roles
  return (roles, literal)

/-- The code generated for a route. -/
def clientFunction (s : Settings) (r : Route) : Except Failure ClientFunction := do
  let (roles, literal) ← r.prepared
  return {
    signature := r.signature s
    body := r.body s roles
    companion := r.companion s roles literal }

end Route

end RouteClient
