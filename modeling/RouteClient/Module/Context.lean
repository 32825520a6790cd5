import RouteClient.Failure
import RouteClient.Json.Basic
import RouteClient.Module.Template

/-!
# Filling a template from a context

A context is a JSON object whose members are the texts of a template. Values that are no texts are
shown in a plain form. A template is asked for by name, and each of its places must be a member of
the context.
-/

namespace RouteClient

namespace Json

mutual

/-- A value as a template shows it: texts as they are, arrays between brackets, and nothing in place
of null. The members of objects are not shown. -/
def plainText : Json → String
  | .null => ""
  | .bool b => if b then "true" else "false"
  | .number n => toString n
  | .string s => s
  | .array items => "[" ++ ", ".intercalate (plainTexts items) ++ "]"
  | .object _ => "[object]"

/-- Items as a template shows them. -/
def plainTexts : List Json → List String
  | [] => []
  | item :: items => item.plainText :: plainTexts items

end

end Json

namespace Template

/-- The templates by name. -/
def named : List (String × List (List TemplatePart)) :=
  [("sdk/module", moduleTemplate)]

/-- The failure of filling a template. -/
def failed (reason : String) : Failure :=
  .serialization ("Template rendering failed: " ++ reason) none

/-- A place without a text, in words. -/
def messageFor (template : String) (missing : MissingText) : String :=
  "Error rendering \x22" ++ template ++ "\x22 line " ++ toString missing.line ++ ", col " ++
    toString missing.column ++ ": Failed to access variable in strict mode Some(\x22" ++
    missing.slot.name ++ "\x22)"

/-- The template with a given name, filled from a context. -/
def renderNamed (name : String) (context : Json) : Except Failure String :=
  match named.find? (·.1 = name) with
  | none => .error (failed ("Template not found " ++ name))
  | some (_, template) =>
    (render template fun v => (context.get? v.name).map Json.plainText).mapError
      fun missing => failed (messageFor name missing)

end Template

end RouteClient
