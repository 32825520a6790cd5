import Mathlib.Data.List.Nodup
import RouteClient.Proofs.Module.Assembly
import RouteClient.Proofs.Route.Contract

/-!
# Captured names

The body of a generated function refers to names from outside of the function, and a path builder
with a query refers to the class that encodes it. A parameter of the same name captures such a
reference. Routes are accepted without a check against this, so `ClientFunction.CaptureFree` is not
a property of all generated functions: `captureFree_iff_namesApart` says of which it is one.
-/

namespace RouteClient

open Outcome (bind_eq_ok)

/-- The names from outside of a function that its body refers to: the helper that sends the request
and the companion whose facts it is given. -/
def FetchCall.outerNames (c : FetchCall) : List String := [c.companion, c.fetcher]

/-- The class by which a path builder encodes a query. -/
def queryEncoder : String := "URLSearchParams"

/-- The names that a module file imports. -/
def Settings.imports (s : Settings) : List String :=
  [s.encryptor, s.fetcher, s.primitive, s.connectionType]

/-- A generated function in which every name means what it stands for. -/
structure ClientFunction.CaptureFree (s : Settings) (f : ClientFunction) : Prop where
  /-- No formal parameter is called like a name that the body takes from outside. -/
  body : ∀ formal ∈ f.signature.formals, formal.name ∉ f.body.outerNames
  /-- Where a query is encoded, no other parameter of the path builder is called like the
  encoder. -/
  builder : ∀ query, f.companion.pathLiteral.query = some query →
    ∀ formal ∈ f.companion.pathFormals, formal.name ≠ query → formal.name ≠ queryEncoder
  /-- The function is not called like an import of its file. -/
  file : f.signature.name ∉ s.imports

/-- The generated file of a module holds the function of a route: the route belongs to the module,
and the text of the function stands in the file. -/
structure SourceFile.Holds (s : Settings) (routes : List Route) (file : SourceFile) (r : Route)
    (f : ClientFunction) : Prop where
  route : r ∈ routes
  path : file.path = r.home.filePath s
  accepted : r.clientFunction s = .ok f
  text : file.Contains f.text

namespace Route

/-- The names of a route, of its parameters and of the settings do not meet. -/
structure NamesApart (s : Settings) (r : Route) : Prop where
  parameters : ∀ p ∈ r.parameters, p.name ≠ r.name ∧ p.name ≠ s.fetcher
  connection : r.name ≠ connectionName ∧ s.fetcher ≠ connectionName
  encoder : r.parametersOf .query ≠ [] →
    ∀ p ∈ r.parametersOf .pathSegment, p.name ≠ queryEncoder
  imports : r.name ∉ s.imports

variable {s : Settings} {r : Route} {f : ClientFunction}

/-- The code of a route is made from its roles and its path literal. -/
theorem clientFunction_eq_ok : r.clientFunction s = .ok f ↔
    ∃ roles literal, r.prepared = .ok (roles, literal) ∧
      f = ⟨r.signature s, r.body s roles, r.companion s roles literal⟩ := by
  unfold clientFunction
  simp only [bind_eq_ok, pure, Except.pure, Except.ok.injEq, Prod.exists]
  exact exists_congr fun roles => exists_congr fun literal => and_congr_right fun _ => eq_comm

/-- The body of a function is free of captures when the names that it takes from outside are neither
that of the connection handle nor those of parameters. -/
theorem body_captureFree_iff {roles : Roles} :
    (∀ formal ∈ (r.signature s).formals, formal.name ∉ (r.body s roles).outerNames) ↔
      (r.name ≠ connectionName ∧ s.fetcher ≠ connectionName) ∧
        ∀ p ∈ r.parameters, p.name ≠ r.name ∧ p.name ≠ s.fetcher := by
  have outer (name : String) :
      name ∉ (r.body s roles).outerNames ↔ name ≠ r.name ∧ name ≠ s.fetcher := by
    simp [body, FetchCall.outerNames]
  simp only [outer]
  rw [signature, List.forall_mem_cons, List.forall_mem_map]
  exact and_congr_left' (and_congr ne_comm ne_comm)

/-- The path builder of an accepted route is free of captures when it encodes no query, or no
path-segment parameter is called like the encoder. -/
theorem builder_captureFree_iff {roles : Roles} {literal : PathLiteral}
    (accepted : r.prepared = .ok (roles, literal)) :
    (∀ query, literal.query = some query → ∀ formal ∈ (r.companion s roles literal).pathFormals,
      formal.name ≠ query → formal.name ≠ queryEncoder) ↔
    (r.parametersOf .query ≠ [] → ∀ p ∈ r.parametersOf .pathSegment, p.name ≠ queryEncoder) := by
  obtain ⟨named, classified, made⟩ := prepared_eq_ok.mp accepted
  obtain ⟨_, rfl⟩ := literalOf_eq_ok.mp made
  obtain ⟨_, _, distinct⟩ := checkNames_eq_ok.mp named
  obtain ⟨inPath, inQuery, _⟩ := roles_of classified
  change _ ↔ (r.parameters.filter (·.category = .query) ≠ [] →
    ∀ p ∈ r.parameters.filter (·.category = .pathSegment), p.name ≠ queryEncoder)
  rw [← inPath, ← inQuery, companion, Roles.callOrder]
  cases asked : roles.query with
  | none => simp
  | some q =>
      have isQuery : q ∈ r.parameters ∧ q.category = .query := by
        have listed : q ∈ roles.query.toList := by rw [asked]; exact List.mem_singleton_self q
        rw [inQuery, List.mem_filter] at listed
        exact ⟨listed.1, of_decide_eq_true listed.2⟩
      -- Names are distinct, so that only the query parameter itself has its name.
      have differs : ∀ p ∈ roles.pathSegments, p.name ≠ q.name := by
        intro p member same
        rw [inPath, List.mem_filter] at member
        have equal := List.inj_on_of_nodup_map distinct member.1 isQuery.1 same
        have category : p.category = .pathSegment := of_decide_eq_true member.2
        rw [equal, isQuery.2] at category
        cases category
      simp only [Option.map_some, Option.some.injEq, forall_eq', Option.toList_some,
        List.forall_mem_map, List.forall_mem_append, List.forall_mem_singleton, ne_eq,
        not_true_eq_false, false_implies, and_true, List.cons_ne_nil, not_false_eq_true,
        true_implies]
      exact forall₂_congr fun p member => imp_iff_right (differs p member)

/-- The function of an accepted route is free of captures exactly when the names of the route are
apart. -/
theorem captureFree_iff (accepted : r.clientFunction s = .ok f) :
    f.CaptureFree s ↔ r.NamesApart s := by
  obtain ⟨roles, literal, prepared, rfl⟩ := clientFunction_eq_ok.mp accepted
  have builder := builder_captureFree_iff (s := s) prepared
  constructor
  · rintro ⟨body, encoded, file⟩
    obtain ⟨connection, parameters⟩ := body_captureFree_iff.mp body
    exact ⟨parameters, connection, builder.mp encoded, file⟩
  · rintro ⟨parameters, connection, encoder, imports⟩
    exact ⟨body_captureFree_iff.mpr ⟨connection, parameters⟩, builder.mpr encoder, imports⟩

end Route

section Files

variable {s : Settings} {routes : List Route} {files : SourceFiles}

/-- Each route has its function in a generated file. -/
theorem exists_holds (made : generate s routes = .ok files) {r : Route} (member : r ∈ routes) :
    ∃ file ∈ files.files, ∃ f, file.Holds s routes r f := by
  obtain ⟨plan, planned, text, written, rfl⟩ := eq_assembled_of_generate made
  have tree := ModulePlan.treeOf_ofRoutes planned
  obtain ⟨u, present, same⟩ := List.mem_map.mp (tree.home_mem member)
  have inUnit : r ∈ u.routes := (tree.mem_routes present).mpr ⟨member, same.symm⟩
  have generated : u.assembled s text ∈ plan.map (·.assembled s text) := List.mem_map_of_mem present
  obtain ⟨f, accepted, isText⟩ := Outcome.map_eq_ok.mp (written r member)
  refine ⟨_, (SourceFiles.sort_perm _).mem_iff.mpr generated, f, member, ?_, accepted, ?_⟩
  · rw [← same]
    rfl
  · rw [isText]
    exact ModuleUnit.assembled_contains inUnit

/-- **Which generated functions are free of captures.** All functions of the generated files are
free of captures exactly when the names of each route are apart. -/
theorem captureFree_iff_namesApart (made : generate s routes = .ok files) :
    (∀ file ∈ files.files, ∀ r f, file.Holds s routes r f → f.CaptureFree s) ↔
      ∀ r ∈ routes, r.NamesApart s := by
  constructor
  · intro free r member
    obtain ⟨file, generated, f, holds⟩ := exists_holds made member
    exact (Route.captureFree_iff holds.accepted).mp (free file generated r f holds)
  · intro apart file _ r f holds
    exact (Route.captureFree_iff holds.accepted).mpr (apart r holds.route)

end Files

/-- A route whose parameter is called like the route itself. -/
def Route.selfNamed : Route :=
  { name := "id", method := .get, path := "/:id", parameters := [.path "id" "id" "string"] }

/-- A route whose names are apart. -/
def Route.saleById : Route :=
  { name := "at", method := .get, path := "/sales/:id"
    parameters := [.path "id" "id" "string", .query "page" "IPage"] }

/-- A route with a path parameter and a query, in whose code nothing is captured. -/
theorem captureFree_saleById : ∃ files, Settings.validate {} = .ok () ∧
    generate {} [.saleById] = .ok files ∧
      ∀ file ∈ files.files, ∀ r f, file.Holds {} [.saleById] r f → f.CaptureFree {} := by
  have planned : ModulePlan.ofRoutes [.saleById] =
      .ok [⟨⟨[]⟩, [], ["sales"]⟩, ⟨⟨["sales"]⟩, [.saleById], []⟩] := by rfl
  have accepted : ∃ text, Route.saleById.unitText {} = .ok text := ⟨_, by rfl⟩
  obtain ⟨files, made⟩ : ∃ files, generate {} [.saleById] = .ok files := by
    refine exists_generate.mpr ⟨_, planned, ?_⟩
    simpa [ModuleUnit.Ready, ModuleUnit.Separate] using accepted
  refine ⟨files, by rfl, made, (captureFree_iff_namesApart made).mpr ?_⟩
  rw [List.forall_mem_singleton]
  exact ⟨by decide, by decide, by decide, by decide⟩

/-- A parameter may hide the function, from which the body takes the facts of the route. -/
theorem captured_selfNamed : ∃ files, Settings.validate {} = .ok () ∧
    generate {} [.selfNamed] = .ok files ∧ ∃ file ∈ files.files, ∃ f,
      file.Holds {} [.selfNamed] .selfNamed f ∧
        ⟨"id", .verbatim "string"⟩ ∈ f.signature.formals ∧ "id" ∈ f.body.outerNames := by
  have planned : ModulePlan.ofRoutes [.selfNamed] = .ok [⟨⟨[]⟩, [.selfNamed], []⟩] := by rfl
  have accepted : ∃ text, Route.selfNamed.unitText {} = .ok text := ⟨_, by rfl⟩
  obtain ⟨files, made⟩ : ∃ files, generate {} [.selfNamed] = .ok files := by
    refine exists_generate.mpr ⟨_, planned, ?_⟩
    simpa [ModuleUnit.Ready, ModuleUnit.Separate] using accepted
  obtain ⟨file, generated, f, holds⟩ := exists_holds made (List.mem_singleton_self _)
  refine ⟨files, by rfl, made, file, generated, f, holds, ?_⟩
  obtain ⟨_, _, _, rfl⟩ := Route.clientFunction_eq_ok.mp holds.accepted
  exact ⟨List.mem_cons_of_mem _ List.mem_cons_self, List.mem_cons_self⟩

end RouteClient
