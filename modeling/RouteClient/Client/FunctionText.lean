import RouteClient.Client.Function
import RouteClient.Code.DocComment
import RouteClient.Json.Quoted

/-!
# Generated functions as text

The layout of the three sections of a generated function. Sections stand apart by a blank line.
-/

namespace RouteClient

namespace Code

/-- The projection of a type. -/
def projection (primitive type : String) : String :=
  primitive ++ "<" ++ type ++ ">"

end Code

/-- The blank line between sections. -/
def sectionBreak : String := "\n\n"

/-- A truth value as it is written. -/
def boolText (b : Bool) : String :=
  if b then "true" else "false"

/-- A type reference as it is written. -/
def TypeReference.text : TypeReference → String
  | .void => "void"
  | .verbatim type => type
  | .projected primitive companion typeAlias =>
    Code.projection primitive (companion ++ "." ++ typeAlias.name)

/-- A formal parameter as it is written. -/
def Formal.text (formal : Formal) : String :=
  formal.name ++ ": " ++ formal.type.text

/-- Entries of a list that stands on lines of its own, one a line. -/
def entryLines (entries : List String) : String :=
  ",\n".intercalate (entries.map ("        " ++ ·))

/-- A signature as it is written, with its documentation. -/
def Signature.text (s : Signature) : String :=
  Code.docComment s.documentation ++ "\nexport function " ++ s.name ++ "\n    (\n" ++
    entryLines (s.formals.map Formal.text) ++ "\n    ): Promise<" ++ s.result.text ++ ">"

/-- The arguments of a call as they are written. -/
def FetchCall.arguments (c : FetchCall) : List String :=
  [c.connection, c.companion ++ ".CONFIG", c.companion ++ ".METHOD",
   c.companion ++ ".path(" ++ ", ".intercalate c.pathArguments ++ ")"] ++ c.payload.toList

/-- A body as it is written. -/
def FetchCall.text (c : FetchCall) : String :=
  "\x7b\n    return " ++ c.fetcher ++ ".fetch\n    (\n" ++ entryLines c.arguments ++
    "\n    );\n\x7d"

/-- The declaration of an alias as it is written. -/
def AliasDeclaration.text (a : AliasDeclaration) : String :=
  "    export type " ++ a.typeAlias.name ++ " = " ++ Code.projection a.primitive a.type ++ ";\n"

/-- The aliases of a companion, set off by a blank line. -/
def Companion.aliasText (c : Companion) : String :=
  match c.aliases with
  | [] => ""
  | aliases => String.join (aliases.map AliasDeclaration.text) ++ "\n"

/-- The facts of the route in a companion. -/
def Companion.factText (c : Companion) : String :=
  "    export const METHOD = " ++ Json.quote c.method.name ++ ";\n" ++
    "    export const PATH = " ++ Json.quote c.path ++ ";\n" ++
    "    export const CONFIG = \x7b\n" ++
    "        input_encrypted: " ++ boolText c.inputEncrypted ++ ",\n" ++
    "        output_encrypted: " ++ boolText c.outputEncrypted ++ ",\n" ++
    "    \x7d;\n\n"

/-- The path builder of a companion. -/
def Companion.builderText (c : Companion) : String :=
  "    export function path(" ++ ", ".intercalate (c.pathFormals.map Formal.text) ++
    "): string\n    \x7b\n        return " ++ c.pathLiteral.text ++ ";\n    \x7d\n"

/-- A companion as it is written. -/
def Companion.text (c : Companion) : String :=
  "export namespace " ++ c.name ++ "\n\x7b\n" ++ c.aliasText ++ c.factText ++ c.builderText ++
    "\x7d"

/-- The code of a route as it is written. -/
def ClientFunction.text (f : ClientFunction) : String :=
  sectionBreak.intercalate [f.signature.text, f.body.text, f.companion.text]

/-- The text generated for a route. -/
def Route.unitText (s : Settings) (r : Route) : Except Failure String :=
  (r.clientFunction s).map ClientFunction.text

end RouteClient
