import RouteClient.Route.Names
import RouteClient.Settings

/-!
# Documentation of a generated function

The documentation of a function is its description, its tags, and a trailer that names the route it
was generated from. When a parameter is documented, the connection handle is documented before the
first one.
-/

namespace RouteClient

/-- A fragment as it is written. The text of a link is set off by a space. -/
def Fragment.rendered (fragment : Fragment) : String :=
  if fragment.kind = .linkText then " " ++ fragment.text else fragment.text

/-- Fragments in a row. -/
def Fragment.concat (fragments : List Fragment) : String :=
  String.join (fragments.map Fragment.rendered)

namespace Tag

/-- Puts a tag before the first `@param` tag; without one nothing is added. -/
def insertBeforeParam (tag : Tag) : List Tag → List Tag
  | [] => []
  | t :: ts => if t.name = "param" then tag :: t :: ts else t :: insertBeforeParam tag ts

/-- A tag as a line of documentation. -/
def line (tag : Tag) : String :=
  "@" ++ tag.name ++ " " ++ (tag.text.map Fragment.concat).getD ""

end Tag

namespace Route

/-- The tags that the documentation shows: those with text, and that of the connection handle. -/
def documentedTags (r : Route) (s : Settings) : List Tag :=
  Tag.insertBeforeParam (Tag.param connectionName s.connectionDescription)
    (r.tags.filter (·.text.isSome))

/-- The description of a route, with the blank line that sets it off. -/
def describedText (r : Route) : String :=
  let description := Fragment.concat r.comments
  if description = "" then "" else description ++ "\n\n"

/-- The tags of a route, one a line, with the blank line that sets them off. -/
def taggedText (r : Route) (s : Settings) : String :=
  match r.documentedTags s with
  | [] => ""
  | tags => String.join (tags.map fun tag => tag.line ++ "\n") ++ "\n"

/-- The trailer of the documentation. -/
def trailerText (r : Route) (s : Settings) : String :=
  s.attribution ++ "\n@controller " ++ r.symbol ++ "\n@path " ++ r.method.name ++ " " ++ r.path

/-- The documentation of a route, before it is made a comment. -/
def documentation (r : Route) (s : Settings) : String :=
  r.describedText ++ r.taggedText s ++ r.trailerText s

end Route

end RouteClient
