import RouteClient.Proofs.Client.DocumentationLayout
import RouteClient.Proofs.Module.Assembly
import RouteClient.Proofs.Route.Contract

/-!
# Lines of a generated function

What stands on the lines of the three sections that are generated for a route, in terms of the route
alone: its parameters as they are declared in the signature, those of the path and the query in the
call of the path builder and in its formals, the payload behind the call, and one line for each
alias and for each fact of the route. The texts that are made from the roles of the parameters have
these lines (`Route.signature_text`, `Route.body_text`, `Route.companion_text`).
-/

namespace RouteClient

/-- Entries of a list that stands on lines of its own, with commas between them. -/
def listed : List String → List String
  | [] => []
  | [entry] => ["        " ++ entry]
  | entry :: entries => ("        " ++ entry ++ ",") :: listed entries

namespace Route

/-- The parameters of the path builder: those of the path as they are declared, and then the
query. -/
def pathParameters (r : Route) : List Parameter :=
  r.parametersOf .pathSegment ++ r.parametersOf .query

/-- The type of a parameter in the signature. A path segment has the type that it is declared with;
the query and the payload have the projected alias of the companion. -/
def formalType (r : Route) (s : Settings) (p : Parameter) : String :=
  match p.category with
  | .pathSegment => p.type
  | .query => s.primitive ++ "<" ++ r.name ++ ".Query>"
  | .payload => s.primitive ++ "<" ++ r.name ++ ".Input>"

/-- The type of the result in the signature. -/
def resultType (r : Route) (s : Settings) : String :=
  match r.output with
  | .void => "void"
  | .type _ => s.primitive ++ "<" ++ r.name ++ ".Output>"

/-- The lines of a signature behind its documentation. -/
def signatureLines (r : Route) (s : Settings) : List String :=
  ["export function " ++ r.name, "    ("] ++
    listed (("connection: " ++ s.connectionType) ::
      r.parameters.map fun p => p.name ++ ": " ++ r.formalType s p) ++
    ["    ): Promise<" ++ r.resultType s ++ ">"]

/-- The lines of a body. -/
def bodyLines (r : Route) (s : Settings) : List String :=
  ["\x7b", "    return " ++ s.fetcher ++ ".fetch", "    ("] ++
    listed (["connection", r.name ++ ".CONFIG", r.name ++ ".METHOD",
      r.name ++ ".path(" ++ ", ".intercalate (r.pathParameters.map (·.name)) ++ ")"] ++
        (r.parametersOf .payload).map (·.name)) ++
    ["    );", "\x7d"]

/-- The line on which an alias is declared as the projection of a type. -/
def aliasLine (s : Settings) (name type : String) : String :=
  "    export type " ++ name ++ " = " ++ s.primitive ++ "<" ++ type ++ ">;"

/-- The lines of the aliases of a companion. -/
def aliasLines (r : Route) (s : Settings) : List String :=
  (r.parametersOf .query).map (aliasLine s "Query" ·.type) ++
    (r.parametersOf .payload).map (aliasLine s "Input" ·.type) ++
      r.output.type?.toList.map (aliasLine s "Output")

/-- The lines of a companion whose path builder returns a given literal. -/
def companionLines (r : Route) (s : Settings) (literal : String) : List String :=
  ["export namespace " ++ r.name, "\x7b"] ++ setOff (r.aliasLines s) ++
    ["    export const METHOD = " ++ Json.quote r.method.name ++ ";",
      "    export const PATH = " ++ Json.quote r.path ++ ";",
      "    export const CONFIG = \x7b",
      "        input_encrypted: " ++ toString ((r.parametersOf .payload).any (·.encrypted)) ++ ",",
      "        output_encrypted: " ++ toString r.encrypted ++ ",",
      "    \x7d;",
      ""] ++
    ["    export function path(" ++
        ", ".intercalate (r.pathParameters.map fun p => p.name ++ ": " ++ p.type) ++ "): string",
      "    \x7b",
      "        return " ++ literal ++ ";",
      "    \x7d"] ++
    ["\x7d"]

end Route

/-- Entries on lines of their own are joined by a comma and a line feed. -/
theorem fileLines_listed {entries : List String} (several : entries ≠ []) :
    fileLines (listed entries) = entryLines entries ++ "\n" := by
  fun_induction listed entries with
  | case1 => exact absurd rfl several
  | case2 entry => simp [fileLines, entryLines]
  | case3 entry entries further ih =>
      have others : entries ≠ [] := fun none => further none
      have comma : ",\n" = "," ++ "\n" := rfl
      rw [fileLines_cons, ih others, entryLines, entryLines, List.map_cons,
        String.intercalate_cons_of_ne_nil (by simpa using others), comma]
      simp only [String.append_assoc]

/-- The types that a signature refers to are written as they are shown. -/
theorem Parameter.text_reference (p : Parameter) (r : Route) (s : Settings) :
    (p.reference s.primitive r.name).text = r.formalType s p := by
  unfold Parameter.reference Route.formalType
  cases p.category
  all_goals rw [← String.toList_inj]
  all_goals simp [TypeReference.text, Code.projection, Alias.name]

/-- An alias is declared on a line of its own. -/
theorem AliasDeclaration.text_eq (s : Settings) (typeAlias : Alias) (type : String) :
    AliasDeclaration.text ⟨typeAlias, s.primitive, type⟩ =
      Route.aliasLine s typeAlias.name type ++ "\n" := by
  have ending : ">;" ++ "\n" = ">" ++ ";\n" := rfl
  unfold AliasDeclaration.text Route.aliasLine Code.projection
  simp only [String.append_assoc, ending]

private theorem boolText_eq (b : Bool) : boolText b = toString b := by
  cases b <;> rfl

/-- The facts of a route stand on lines of their own. -/
theorem Companion.factText_eq (c : Companion) : c.factText =
    fileLines ["    export const METHOD = " ++ Json.quote c.method.name ++ ";",
      "    export const PATH = " ++ Json.quote c.path ++ ";",
      "    export const CONFIG = \x7b",
      "        input_encrypted: " ++ toString c.inputEncrypted ++ ",",
      "        output_encrypted: " ++ toString c.outputEncrypted ++ ",",
      "    \x7d;", ""] := by
  have ended : ";\n" = ";" ++ "\n" := rfl
  have config : "    export const CONFIG = \x7b\n" = "    export const CONFIG = \x7b" ++ "\n" :=
    rfl
  have comma : ",\n" = "," ++ "\n" := rfl
  have closed : "    \x7d;\n\n" = "    \x7d;" ++ ("\n" ++ "\n") := rfl
  unfold Companion.factText
  simp only [boolText_eq, fileLines_cons, fileLines_nil, ended, config, comma, closed,
    String.append_assoc, String.empty_append, String.append_empty]

/-- The path builder of a companion stands on lines of its own. -/
theorem Companion.builderText_eq (c : Companion) : c.builderText =
    fileLines ["    export function path(" ++ ", ".intercalate (c.pathFormals.map Formal.text) ++
        "): string",
      "    \x7b",
      "        return " ++ c.pathLiteral.text ++ ";",
      "    \x7d"] := by
  have builder : "): string\n    \x7b\n        return " =
      "): string" ++ ("\n" ++ ("    \x7b" ++ ("\n" ++ "        return "))) := rfl
  have finished : ";\n    \x7d\n" = ";" ++ ("\n" ++ ("    \x7d" ++ "\n")) := rfl
  unfold Companion.builderText
  simp only [fileLines_cons, fileLines_nil, builder, finished, String.append_assoc,
    String.append_empty]

/-- A companion has its sections between the lines of its name and its end. -/
theorem Companion.text_eq (c : Companion) : c.text ++ "\n" =
    fileLines ["export namespace " ++ c.name, "\x7b"] ++ c.aliasText ++ c.factText ++
      c.builderText ++ fileLines ["\x7d"] := by
  have opened : "\n\x7b\n" = "\n" ++ ("\x7b" ++ "\n") := rfl
  unfold Companion.text
  simp only [fileLines_cons, fileLines_nil, opened, String.append_assoc, String.append_empty]

/-- A function is its three sections with blank lines between them. -/
theorem ClientFunction.text_eq (f : ClientFunction) :
    f.text = f.signature.text ++ "\n\n" ++ f.body.text ++ "\n\n" ++ f.companion.text := by
  have break_eq : sectionBreak = "\n\n" := rfl
  rw [ClientFunction.text, break_eq, ← String.toList_inj]
  simp

namespace Route

variable {r : Route} {s : Settings} {roles : Roles} {literal : PathLiteral}

/-- The parameter in the role of the query is the only one of its category. -/
theorem parametersOf_query (holds : Roles.Of r.parameters roles) :
    r.parametersOf .query = roles.query.toList := holds.query.symm

/-- The parameter in the role of the payload is the only one of its category. -/
theorem parametersOf_payload (holds : Roles.Of r.parameters roles) :
    r.parametersOf .payload = roles.payload.toList := holds.payload.symm

/-- The order of the call is that of the parameters of the path builder. -/
theorem callOrder_eq (holds : Roles.Of r.parameters roles) :
    roles.callOrder = r.pathParameters := by
  rw [Roles.callOrder, holds.pathSegments, holds.query]
  rfl

/-- The aliases of a companion project the types of the parameters in their roles and of the
output. -/
theorem aliases_eq (holds : Roles.Of r.parameters roles) :
    r.aliases s roles =
      (r.parametersOf .query).map (⟨.query, s.primitive, ·.type⟩) ++
        (r.parametersOf .payload).map (⟨.input, s.primitive, ·.type⟩) ++
          r.output.type?.toList.map (⟨.output, s.primitive, ·⟩) := by
  rw [parametersOf_query holds, parametersOf_payload holds, aliases]
  cases roles.query <;> cases roles.payload <;> cases r.output <;> rfl

/-- A signature has its documentation and a line for each of its formals. -/
theorem signature_text (r : Route) (s : Settings) : (r.signature s).text ++ "\n" =
    fileLines (Code.docComment (r.documentation s) :: r.signatureLines s) := by
  have formals : (r.signature s).formals.map Formal.text = ("connection: " ++ s.connectionType) ::
      r.parameters.map fun p => p.name ++ ": " ++ r.formalType s p := by
    simp only [signature, List.map_cons, List.map_map, Function.comp_def, Formal.text,
      Parameter.text_reference]
    rfl
  have result : (r.signature s).result.text = r.resultType s := by
    unfold signature resultType
    cases r.output
    all_goals rw [← String.toList_inj]
    all_goals simp [TypeReference.text, Code.projection, Alias.name]
  unfold Signature.text
  rw [formals, result, signatureLines, fileLines_cons, fileLines_append, fileLines_append,
    fileLines_listed (List.cons_ne_nil _ _)]
  rw [← String.toList_inj]
  simp [fileLines, signature]

/-- The path builder is called with the names of its parameters. -/
theorem pathArguments_body (holds : Roles.Of r.parameters roles) :
    (r.body s roles).pathArguments = r.pathParameters.map (·.name) :=
  congrArg _ (callOrder_eq holds)

/-- The payload of a body is the parameter of that category, if there is one. -/
theorem payload_body (holds : Roles.Of r.parameters roles) :
    (r.body s roles).payload.toList = (r.parametersOf .payload).map (·.name) := by
  rw [parametersOf_payload holds, body]
  cases roles.payload <;> rfl

/-- A body has a line for each of its arguments. -/
theorem body_text (holds : Roles.Of r.parameters roles) :
    (r.body s roles).text ++ "\n" = fileLines (r.bodyLines s) := by
  unfold FetchCall.text FetchCall.arguments
  rw [payload_body holds, pathArguments_body holds, bodyLines, fileLines_append, fileLines_append,
    fileLines_listed (by simp)]
  rw [← String.toList_inj]
  simp [fileLines, body, connectionName]

/-- The aliases of a companion are written on their lines, with an empty line behind them. -/
theorem aliasText_companion (holds : Roles.Of r.parameters roles) :
    (r.companion s roles literal).aliasText = fileLines (setOff (r.aliasLines s)) := by
  have written : (r.companion s roles literal).aliases.map AliasDeclaration.text =
      (r.aliasLines s).map (· ++ "\n") := by
    simp only [companion, aliases_eq holds, aliasLines, List.map_append, List.map_map,
      Function.comp_def, AliasDeclaration.text_eq]
    rfl
  rw [Companion.aliasText]
  split
  next empty =>
    rw [empty, List.map_nil, eq_comm, List.map_eq_nil_iff] at written
    rw [written]
    rfl
  next several =>
    have some : r.aliasLines s ≠ [] := by
      intro none
      rw [none, List.map_nil, List.map_eq_nil_iff] at written
      exact several written
    rw [written, setOff, if_neg some, fileLines_append]
    rfl

/-- A companion has a line for each of its aliases and for each fact of the route. -/
theorem companion_text (holds : Roles.Of r.parameters roles) :
    (r.companion s roles literal).text ++ "\n" = fileLines (r.companionLines s literal.text) := by
  have encrypted : (r.companion s roles literal).inputEncrypted =
      (r.parametersOf .payload).any (·.encrypted) := by
    rw [parametersOf_payload holds, companion]
    cases roles.payload <;> simp
  have formals : (r.companion s roles literal).pathFormals.map Formal.text =
      r.pathParameters.map fun p => p.name ++ ": " ++ p.type := by
    simp only [companion, callOrder_eq holds, List.map_map, Function.comp_def]
    rfl
  rw [Companion.text_eq, aliasText_companion holds, Companion.factText_eq, encrypted,
    Companion.builderText_eq, formals, companionLines]
  simp only [fileLines_append]
  rfl

end Route

end RouteClient
