/-!
# Routes

A route describes one remote procedure: its transport verb, its path with `:field` placeholders,
its parameters, the type it returns and the fragments of its documentation. The functions here
build routes step by step, beginning with `Route.bare`.
-/

namespace RouteClient

/-- Transport verb of a route. -/
inductive Method where
  | get
  | post
  | put
  | patch
  | delete
  | head
  | options
  deriving DecidableEq

namespace Method

/-- All verbs, in their customary order. -/
def all : List Method :=
  [.get, .post, .put, .patch, .delete, .head, .options]

/-- The verb as it is written on the wire. -/
def name : Method → String
  | .get => "GET"
  | .post => "POST"
  | .put => "PUT"
  | .patch => "PATCH"
  | .delete => "DELETE"
  | .head => "HEAD"
  | .options => "OPTIONS"

/-- The verb with a given written form. -/
def ofName? (name : String) : Option Method :=
  all.find? (·.name = name)

end Method

/-- How a parameter reaches the server: substituted into the path, serialised into the query
string, or sent as the body of the request. -/
inductive Category where
  | pathSegment
  | query
  | payload
  deriving DecidableEq

namespace Category

/-- The category as it is written in descriptors and messages. -/
def name : Category → String
  | .pathSegment => "path-segment"
  | .query => "query"
  | .payload => "payload"

/-- The category with a given written form; `param` and `body` are accepted as second names. -/
def ofName? (name : String) : Option Category :=
  if name = "path-segment" || name = "param" then some .pathSegment
  else if name = "query" then some .query
  else if name = "payload" || name = "body" then some .payload
  else none

end Category

/-- One parameter of a route. -/
structure Parameter where
  /-- The identifier at the call site. -/
  name : String
  /-- The placeholder a path-segment parameter fills, when it is not called like the parameter. -/
  field : Option String := none
  category : Category
  /-- The type, written as it is into the generated code. -/
  type : String
  /-- Whether a payload travels encrypted. -/
  encrypted : Bool := false
  deriving DecidableEq

namespace Parameter

/-- The placeholder a parameter fills: its field, or its name when it has none. -/
def placeholder (p : Parameter) : String :=
  p.field.getD p.name

/-- A path-segment parameter that fills the placeholder `field`. -/
def path (name field type : String) : Parameter :=
  { name, field := some field, category := .pathSegment, type }

/-- A query parameter. -/
def query (name type : String) : Parameter :=
  { name, category := .query, type }

/-- A payload parameter. -/
def payload (name type : String) (encrypted : Bool) : Parameter :=
  { name, category := .payload, type, encrypted }

end Parameter

/-- What a route returns. -/
inductive Output where
  | void
  | type (name : String)
  deriving DecidableEq

namespace Output

/-- The output with a given written form: `void` stands for no value. -/
def ofText (text : String) : Output :=
  if text = "void" then .void else .type text

/-- The written form of an output. -/
def text : Output → String
  | .void => "void"
  | .type name => name

/-- The type of the returned value, if there is one. -/
def type? : Output → Option String
  | .void => none
  | .type name => some name

end Output

/-- Kind of a documentation fragment. -/
inductive FragmentKind where
  | text
  | link
  | linkName
  | linkText
  | parameterName
  | space
  | other
  deriving DecidableEq

namespace FragmentKind

/-- The kind as it is written in descriptors. -/
def name : FragmentKind → String
  | .text => "text"
  | .link => "link"
  | .linkName => "linkName"
  | .linkText => "linkText"
  | .parameterName => "parameterName"
  | .space => "space"
  | .other => "other"

/-- The kind with a given written form; every unknown word is an `other` kind. -/
def ofName (name : String) : FragmentKind :=
  ([.text, .link, .linkName, .linkText, .parameterName, .space].find?
    (fun kind : FragmentKind => kind.name = name)).getD .other

end FragmentKind

/-- One fragment of documentation text. -/
structure Fragment where
  kind : FragmentKind := .text
  text : String
  deriving DecidableEq

/-- A documentation tag. A tag without text does not appear in generated documentation. -/
structure Tag where
  /-- The name without the leading `@`. -/
  name : String
  text : Option (List Fragment) := none
  deriving DecidableEq

namespace Tag

/-- A tag with one plain fragment. -/
def plain (name text : String) : Tag :=
  { name, text := some [{ text }] }

/-- A `@param` tag: the name of the parameter, a space, and its description. -/
def param (parameter description : String) : Tag :=
  { name := "param"
    text := some
      [{ kind := .parameterName, text := parameter },
       { kind := .space, text := " " },
       { text := description }] }

end Tag

/-- The description of one remote procedure. -/
structure Route where
  /-- The name of the generated function. -/
  name : String
  method : Method
  /-- The path, with `:field` placeholders. -/
  path : String
  /-- Where the route is defined, written as it is into the documentation. -/
  symbol : String := ""
  parameters : List Parameter := []
  output : Output := .void
  /-- Whether the output travels encrypted. -/
  encrypted : Bool := false
  comments : List Fragment := []
  tags : List Tag := []
  deriving DecidableEq

namespace Route

/-- A route without parameters, output and documentation. -/
def bare (name : String) (method : Method) (path : String) : Route :=
  { name, method, path }

/-- The route with one more parameter at the end. -/
def addParameter (r : Route) (p : Parameter) : Route :=
  { r with parameters := r.parameters ++ [p] }

/-- The route with one more fragment at the end of its description. -/
def addComment (r : Route) (fragment : Fragment) : Route :=
  { r with comments := r.comments ++ [fragment] }

/-- The route with one more documentation tag at the end. -/
def addTag (r : Route) (tag : Tag) : Route :=
  { r with tags := r.tags ++ [tag] }

end Route

end RouteClient
