/-!
# Text inside template literals

A template literal reads a backslash as the start of an escape, a backtick as its end and `${` as
the start of a substitution. `escapeTemplateText` puts a backslash before each of the three, so
that the text between two backticks stands for itself.
-/

namespace RouteClient

namespace Code

/-- The characters of a text, escaped for the inside of a template literal. -/
def escapeTemplate : List Char → List Char
  | [] => []
  | '$' :: '{' :: cs => '\\' :: '$' :: '{' :: escapeTemplate cs
  | c :: cs =>
    if c = '\\' || c = '\x60' then '\\' :: c :: escapeTemplate cs
    else c :: escapeTemplate cs

/-- A text escaped for the inside of a template literal. -/
def escapeTemplateText (text : String) : String :=
  String.ofList (escapeTemplate text.toList)

end Code

end RouteClient
