import RouteClient.Code.TemplateText
import RouteClient.Route.Placeholder
import RouteClient.Route.Roles

/-!
# Path literals

The path builder of a route returns a template literal. Each path-segment parameter is substituted
for the one placeholder it fills, every other character of the path stands for itself, and a query
parameter is appended behind a question mark. `Route.pathLiteral` builds the literal as data and
`PathLiteral.text` writes it.
-/

namespace RouteClient

/-- A template literal for a route path: the text in front, then each substituted name with the text
behind it, and the name of the query parameter. Texts are not yet escaped. -/
structure PathLiteral where
  front : List Char
  parts : List (String × List Char)
  query : Option String
  deriving DecidableEq

namespace PathLiteral

/-- One substitution with the text behind it, as it is written. -/
def partText (part : String × List Char) : String :=
  "$\x7b" ++ part.1 ++ "\x7d" ++ String.ofList (Code.escapeTemplate part.2)

/-- The query suffix as it is written. -/
def queryText (name : String) : String :=
  "?$\x7bnew URLSearchParams(" ++ name ++ " as any).toString()\x7d"

/-- The literal as it is written, with its backticks. -/
def text (l : PathLiteral) : String :=
  "\x60" ++ String.ofList (Code.escapeTemplate l.front) ++ String.join (l.parts.map partText) ++
    (l.query.map queryText).getD "" ++ "\x60"

/-- Cuts the tokens of a path at the placeholders that `bound` gives a name for: the text in front
of the first one, and each name with the text behind it. -/
def cut (bound : String → Option String) : List PathToken → List Char × List (String × List Char)
  | [] => ([], [])
  | .char c :: ts => ((c :: (cut bound ts).1), (cut bound ts).2)
  | .slot name :: ts =>
    match bound (String.ofList name) with
    | some parameter => ([], (parameter, (cut bound ts).1) :: (cut bound ts).2)
    | none => (':' :: name ++ (cut bound ts).1, (cut bound ts).2)

end PathLiteral

namespace Route

/-- Checks that each of the remaining path-segment parameters fills a placeholder that occurs once
and that no parameter before it fills. -/
def checkBindings (route : String) (names : List String) :
    (before rest : List Parameter) → Except Failure Unit
  | _, [] => .ok ()
  | before, p :: rest =>
    if names.count p.placeholder = 1 then
      match before.find? (·.placeholder = p.placeholder) with
      | some first =>
        .error (.invalidRoute route (.sharedPlaceholder first.name p.name p.placeholder))
      | none => checkBindings route names (before ++ [p]) rest
    else
      .error (.missingPlaceholder route p.name p.placeholder)

/-- The name substituted for a placeholder: that of the path-segment parameter that fills it. -/
def substitute (roles : Roles) (field : String) : Option String :=
  (roles.pathSegments.find? (·.placeholder = field)).map (·.name)

/-- The path literal of a route whose parameters have their roles. -/
def literalOf (r : Route) (roles : Roles) : Except Failure PathLiteral := do
  checkBindings r.name ((placeholders r.path).map (·.name)) [] roles.pathSegments
  let pieces := PathLiteral.cut (substitute roles) (PathToken.scan r.path.toList)
  return { front := pieces.1, parts := pieces.2, query := roles.query.map (·.name) }

/-- The path literal of a route. -/
def pathLiteral (r : Route) : Except Failure PathLiteral := do
  r.literalOf (← r.roles)

end Route

end RouteClient
