import Mathlib.Data.List.Perm.Basic
import RouteClient.Proofs.Client.Capture
import RouteClient.Proofs.Client.SectionLines
import RouteClient.Proofs.Route.Acceptance

/-!
# Agreement of signature, body and companion

The three sections of a generated function are made from different views of the parameters of its
route: the signature takes them as they are declared, the body and the path builder in the order of
the call, and the aliases of the companion by role. `ClientFunction.Agrees` says in which ways these
views fit together and which lines the sections therefore have as text, and `Route.unitText_agrees`
that this holds of every text that is made.
-/

namespace RouteClient

open Outcome (map_eq_ok)

/-- The alias that a type refers to, with the companion in which it is declared. A type that stands
as the route gives it refers to none. -/
def TypeReference.alias? : TypeReference → Option (String × Alias)
  | .void => none
  | .verbatim _ => none
  | .projected _ companion typeAlias => some (companion, typeAlias)

/-- The aliases that a signature refers to, in the types of its formals and of its result. -/
def Signature.references (g : Signature) : List (String × Alias) :=
  (g.formals.map (·.type) ++ [g.result]).filterMap TypeReference.alias?

/-- The aliases that a companion declares. -/
def Companion.declared (c : Companion) : List (String × Alias) :=
  c.aliases.map fun declaration => (c.name, declaration.typeAlias)

/-- The arguments that a call passes behind the connection handle, the facts of the route and its
path. -/
def FetchCall.furtherArguments (c : FetchCall) : List String := c.arguments.drop 4

/-- The sections of a function generated for a route fit together, and their text has the lines that
the route determines. -/
structure ClientFunction.Agrees (s : Settings) (r : Route) (f : ClientFunction) : Prop where
  named : f.signature.name = r.name ∧ f.body.companion = r.name ∧ f.companion.name = r.name
  /-- The formals are the connection handle and every parameter as it is declared. -/
  formals : f.signature.formals.map (·.name) = connectionName :: r.parameters.map (·.name)
  distinct : (f.signature.formals.map (·.name)).Nodup
  /-- The path builder is called with the names of its own formals. -/
  passed : f.body.pathArguments = f.companion.pathFormals.map (·.name)
  callOrder : f.companion.pathFormals.map (·.name) =
    (r.parametersOf .pathSegment ++ r.parametersOf .query).map (·.name)
  /-- There is a fifth argument exactly for a payload parameter. -/
  payload : f.body.furtherArguments = (r.parametersOf .payload).map (·.name) ∧
    f.body.furtherArguments.length ≤ 1
  /-- The body consumes every formal of the signature once. -/
  consumed : (f.body.connection :: (f.body.pathArguments ++ f.body.furtherArguments)).Perm
    (f.signature.formals.map (·.name))
  /-- The signature refers to each declared alias once, and to no other. -/
  referenced : f.signature.references.Perm f.companion.declared
  undoubled : f.companion.declared.Nodup
  /-- Each alias is the projection of a type that the route declares. -/
  projections : f.companion.aliases =
    (r.parametersOf .query).map (⟨.query, s.primitive, ·.type⟩) ++
      (r.parametersOf .payload).map (⟨.input, s.primitive, ·.type⟩) ++
        r.output.type?.toList.map (⟨.output, s.primitive, ·⟩)
  /-- A function without the alias of an output returns nothing. -/
  result : f.signature.result.text = "void" ↔ (r.name, Alias.output) ∉ f.companion.declared
  encrypted : f.companion.inputEncrypted = (r.parametersOf .payload).any (·.encrypted) ∧
    f.companion.outputEncrypted = r.encrypted
  /-- Blank lines stand between the sections, and nothing else. -/
  sections : f.text = f.signature.text ++ "\n\n" ++ f.body.text ++ "\n\n" ++ f.companion.text
  /-- Behind its documentation the signature shows a formal on each line, and then its result. -/
  signatureText : f.signature.text ++ "\n" =
    fileLines (Code.docComment (r.documentation s) :: r.signatureLines s)
  /-- The body shows an argument on each line. -/
  bodyText : f.body.text ++ "\n" = fileLines (r.bodyLines s)
  /-- The companion shows an alias on each line, then the facts of the route and the path
  builder. -/
  companionText : f.companion.text ++ "\n" =
    fileLines (r.companionLines s f.companion.pathLiteral.text)

/-- The alias by which a signature refers to the type of a parameter of a category. -/
def Category.alias? : Category → Option Alias
  | .pathSegment => none
  | .query => some .query
  | .payload => some .input

private theorem Parameter.alias?_reference (p : Parameter) (primitive function : String) :
    (p.reference primitive function).alias? = p.category.alias?.map (function, ·) := by
  unfold Parameter.reference
  cases p.category <;> rfl

private theorem TypeReference.text_projected_ne_void (primitive companion : String)
    (typeAlias : Alias) :
    (TypeReference.projected primitive companion typeAlias).text ≠ "void" := by
  intro same
  have closes : '>' ∈ (TypeReference.projected primitive companion typeAlias).text.toList := by
    simp [TypeReference.text, Code.projection]
  rw [same] at closes
  exact absurd closes (by decide)

namespace Route

variable {s : Settings} {r : Route} {f : ClientFunction} {roles : Roles} {literal : PathLiteral}

/-- Every parameter is in one category. -/
theorem parametersOf_perm (r : Route) :
    (r.parametersOf .pathSegment ++ r.parametersOf .query ++ r.parametersOf .payload).Perm
      r.parameters := by
  simp only [parametersOf]
  induction r.parameters with
  | nil => exact List.Perm.nil
  | cons p ps ih =>
      cases category : p.category with
      | pathSegment => simpa [category] using ih
      | query =>
          rw [List.append_assoc] at ih
          have moved := List.perm_middle.trans (ih.cons p)
          simpa [category] using moved
      | payload =>
          have moved := List.perm_middle.trans (ih.cons p)
          simpa [category] using moved

/-- The argument behind the path is the payload parameter, if there is one. -/
theorem furtherArguments_body (holds : Roles.Of r.parameters roles) :
    (r.body s roles).furtherArguments = (r.parametersOf .payload).map (·.name) :=
  payload_body holds

/-- The parameters of a category refer to the alias of the category. -/
theorem filterMap_alias?_parametersOf (r : Route) (category : Category) :
    (r.parametersOf category).filterMap (·.category.alias?.map (r.name, ·)) =
      (r.parametersOf category).filterMap fun _ => category.alias?.map (r.name, ·) := by
  refine List.filterMap_congr fun p member => ?_
  rw [(mem_parametersOf.mp member).2]

/-- A signature refers to one alias for each parameter that has one, and to that of its output. -/
theorem references_signature :
    (r.signature s).references =
      r.parameters.filterMap (·.category.alias?.map (r.name, ·)) ++
        r.output.type?.toList.map fun _ => (r.name, .output) := by
  have ofParameters :
      ((r.signature s).formals.map (·.type)).filterMap TypeReference.alias? =
        r.parameters.filterMap (·.category.alias?.map (r.name, ·)) := by
    simp only [signature, List.map_cons, List.map_map, Function.comp_def]
    rw [List.filterMap_cons_none rfl, List.filterMap_map]
    refine List.filterMap_congr fun p _ => ?_
    exact p.alias?_reference s.primitive r.name
  rw [Signature.references, List.filterMap_append, ofParameters]
  congr 1
  rw [signature]
  cases r.output <;> rfl

/-- A companion declares one alias for each parameter of the query and of the payload, and one for
its output. -/
theorem declared_companion (holds : Roles.Of r.parameters roles) :
    (r.companion s roles literal).declared =
      ((r.parametersOf .query).map fun _ => (r.name, Alias.query)) ++
        ((r.parametersOf .payload).map fun _ => (r.name, Alias.input)) ++
          r.output.type?.toList.map fun _ => (r.name, Alias.output) := by
  simp only [Companion.declared, companion, aliases_eq holds, List.map_append, List.map_map]
  rfl

/-- The aliases that a signature refers to are those that the companion declares. -/
theorem references_perm (holds : Roles.Of r.parameters roles) :
    (r.signature s).references.Perm (r.companion s roles literal).declared := by
  rw [references_signature, declared_companion holds]
  refine List.Perm.append_right _ ?_
  -- Parameters are taken in the order of their roles; path segments refer to no alias.
  have moved := (r.parametersOf_perm.filterMap (·.category.alias?.map (r.name, ·))).symm
  simp only [List.filterMap_append, filterMap_alias?_parametersOf] at moved
  simpa [Category.alias?] using moved

/-- No alias is declared twice. -/
theorem declared_nodup (holds : Roles.Of r.parameters roles) :
    (r.companion s roles literal).declared.Nodup := by
  rw [declared_companion holds, parametersOf_query holds, parametersOf_payload holds]
  cases roles.query <;> cases roles.payload <;> cases r.output <;> simp [Output.type?]

/-- A function returns nothing exactly when its companion declares no alias for an output. -/
theorem result_text_eq_void (holds : Roles.Of r.parameters roles) :
    (r.signature s).result.text = "void" ↔
      (r.name, Alias.output) ∉ (r.companion s roles literal).declared := by
  rw [declared_companion holds]
  cases output : r.output with
  | void => simp [signature, output, TypeReference.text, Output.type?]
  | type name =>
      have projected : (r.signature s).result = .projected s.primitive r.name .output := by
        simp only [signature, output]
      rw [projected]
      constructor
      · intro written
        exact absurd written (TypeReference.text_projected_ne_void _ _ _)
      · intro absent
        exact absurd (List.mem_append_right _ (List.mem_singleton_self _)) absent

/-- The formals of a signature are the connection handle and the parameters as they are declared. -/
theorem formals_signature : (r.signature s).formals.map (·.name) =
    connectionName :: r.parameters.map (·.name) := by
  simp [signature, Function.comp_def]

/-- The arguments of a body are the formals of its signature. -/
theorem consumed_perm (holds : Roles.Of r.parameters roles) :
    ((r.body s roles).connection ::
        ((r.body s roles).pathArguments ++ (r.body s roles).furtherArguments)).Perm
      ((r.signature s).formals.map (·.name)) := by
  rw [formals_signature, pathArguments_body holds, furtherArguments_body holds, ← List.map_append]
  exact (r.parametersOf_perm.map (·.name)).cons connectionName

/-- The sections made for a route whose names and roles are accepted fit together. -/
theorem agrees (named : r.NamesUsable) (holds : Roles.Of r.parameters roles) :
    ClientFunction.Agrees s r ⟨r.signature s, r.body s roles, r.companion s roles literal⟩ := by
  have further := furtherArguments_body (s := s) holds
  have taken : (r.companion s roles literal).pathFormals.map (·.name) =
      roles.callOrder.map (·.name) := by
    simp [companion, Function.comp_def]
  refine
    { named := ⟨rfl, rfl, rfl⟩
      formals := formals_signature
      distinct := ?_
      passed := taken.symm
      callOrder := taken.trans (congrArg _ (callOrder_eq holds))
      payload := ⟨further, ?_⟩
      consumed := consumed_perm holds
      referenced := references_perm holds
      undoubled := declared_nodup holds
      projections := aliases_eq holds
      result := result_text_eq_void holds
      encrypted := ⟨?_, rfl⟩
      sections := ?_
      signatureText := r.signature_text s
      bodyText := body_text holds
      companionText := companion_text holds }
  · rw [formals_signature, List.nodup_cons]
    refine ⟨?_, named.distinct⟩
    intro connection
    obtain ⟨p, declared, same⟩ := List.mem_map.mp connection
    exact (named.parameters p declared).2 same
  · rw [further, parametersOf_payload holds]
    cases roles.payload <;> simp
  · rw [parametersOf_payload holds, companion]
    cases roles.payload <;> simp
  · exact ClientFunction.text_eq _

/-- **Signature, body and companion agree.** In the text of a route, the body and the path builder
take exactly what the signature offers, each parameter once, and the signature refers to exactly
those aliases that the companion declares. Its lines show these formals, arguments, aliases and
facts. -/
theorem unitText_agrees {text : String} (accepted : r.unitText s = .ok text) :
    ∃ f, r.clientFunction s = .ok f ∧ f.text = text ∧ f.Agrees s r := by
  obtain ⟨f, made, written⟩ := map_eq_ok.mp accepted
  refine ⟨f, made, written, ?_⟩
  obtain ⟨roles, literal, prepared, rfl⟩ := clientFunction_eq_ok.mp made
  obtain ⟨named, classified, _⟩ := prepared_eq_ok.mp prepared
  exact agrees (checkNames_eq_ok_iff.mp named) (roles_of classified)

/-- A route with parameters in all roles, which are not declared in the order of the call. -/
def saleUpdate : Route :=
  { name := "update", method := .put, path := "/sales/:id/items/:no"
    parameters :=
      [.payload "input" "ISale.IUpdate" true, .path "no" "no" "number", .query "page" "IPage",
        .path "id" "id" "string"]
    output := .type "ISale" }

/-- The sections of a route with all roles, line by line. -/
theorem unitText_agrees_saleUpdate : ∃ (text : String) (f : ClientFunction),
    saleUpdate.unitText {} = .ok text ∧ f.text = text ∧
      f.companion.pathFormals.map (·.name) = ["no", "id", "page"] ∧
      f.body.pathArguments = ["no", "id", "page"] ∧ f.body.furtherArguments = ["input"] ∧
        f.signature.references.Perm [("update", .query), ("update", .input), ("update", .output)] ∧
          f.companion.inputEncrypted = true ∧
      text = f.signature.text ++ "\n\n" ++ f.body.text ++ "\n\n" ++ f.companion.text ∧
      f.signature.text ++ "\n" = fileLines
        [Code.docComment (saleUpdate.documentation {}),
          "export function update",
          "    (",
          "        connection: IConnection,",
          "        input: Primitive<update.Input>,",
          "        no: number,",
          "        page: Primitive<update.Query>,",
          "        id: string",
          "    ): Promise<Primitive<update.Output>>"] ∧
      f.body.text ++ "\n" = fileLines
        ["\x7b",
          "    return Fetcher.fetch",
          "    (",
          "        connection,",
          "        update.CONFIG,",
          "        update.METHOD,",
          "        update.path(no, id, page),",
          "        input",
          "    );",
          "\x7d"] ∧
      f.companion.text ++ "\n" = fileLines
        ["export namespace update",
          "\x7b",
          "    export type Query = Primitive<IPage>;",
          "    export type Input = Primitive<ISale.IUpdate>;",
          "    export type Output = Primitive<ISale>;",
          "",
          "    export const METHOD = \"PUT\";",
          "    export const PATH = \"/sales/:id/items/:no\";",
          "    export const CONFIG = \x7b",
          "        input_encrypted: true,",
          "        output_encrypted: false,",
          "    \x7d;",
          "",
          "    export function path(no: number, id: string, page: IPage): string",
          "    \x7b",
          "        return " ++ f.companion.pathLiteral.text ++ ";",
          "    \x7d",
          "\x7d"] := by
  obtain ⟨text, accepted⟩ : ∃ text, saleUpdate.unitText {} = .ok text := ⟨_, by rfl⟩
  obtain ⟨f, _, written, agrees⟩ := unitText_agrees accepted
  have callOrder : f.companion.pathFormals.map (·.name) = ["no", "id", "page"] := agrees.callOrder
  have declared : f.companion.declared =
      [("update", .query), ("update", .input), ("update", .output)] := by
    rw [Companion.declared, agrees.projections, agrees.named.2.2]
    rfl
  refine ⟨text, f, accepted, written, callOrder, agrees.passed.trans callOrder, agrees.payload.1,
    declared ▸ agrees.referenced, agrees.encrypted.1, written ▸ agrees.sections,
    agrees.signatureText, agrees.bodyText, agrees.companionText⟩

end Route

end RouteClient
