import RouteClient.Client.Function
import RouteClient.Proofs.Outcome

/-!
# What an accepted route satisfies

Each check that a route passes before its code is made is put into words about the route itself: its
names (`checkNames_eq_ok`), the roles of its parameters (`Roles.Of`), and the placeholders that its
path-segment parameters fill (`checkBindings_eq_ok`).
-/

namespace RouteClient

open Outcome (bind_eq_ok)

/-- The parameters of a category in the order of their declaration. -/
def Route.parametersOf (r : Route) (category : Category) : List Parameter :=
  r.parameters.filter (·.category = category)

namespace Roles

/-- Roles that hold exactly the given parameters: the path-segment parameters in their order, and no
more than one query and one payload parameter. -/
structure Of (parameters : List Parameter) (roles : Roles) : Prop where
  pathSegments : roles.pathSegments = parameters.filter (·.category = .pathSegment)
  query : roles.query.toList = parameters.filter (·.category = .query)
  payload : roles.payload.toList = parameters.filter (·.category = .payload)

private theorem Of.nil : Of [] {} := ⟨rfl, rfl, rfl⟩

/-- A parameter that is added takes the role of its category. -/
theorem Of.add {route : String} {parameters : List Parameter} {roles next : Roles} {p : Parameter}
    (holds : Of parameters roles) (added : roles.add route p = .ok next) :
    Of (parameters ++ [p]) next := by
  obtain ⟨pathSegments, query, payload⟩ := holds
  unfold Roles.add at added
  cases category : p.category with
  | pathSegment =>
      simp only [category] at added
      cases added
      exact ⟨by simp [pathSegments, category], by simp [query, category],
        by simp [payload, category]⟩
  | query =>
      cases taken : roles.query with
      | some first => simp [category, taken] at added
      | none =>
          simp only [category, taken, Option.isSome_none, Bool.false_eq_true, ↓reduceIte] at added
          cases added
          rw [taken] at query
          exact ⟨by simp [pathSegments, category], by simp [← query, category],
            by simp [payload, category]⟩
  | payload =>
      cases taken : roles.payload with
      | some first => simp [category, taken] at added
      | none =>
          simp only [category, taken, Option.isSome_none, Bool.false_eq_true, ↓reduceIte] at added
          cases added
          rw [taken] at payload
          exact ⟨by simp [pathSegments, category], by simp [query, category],
            by simp [← payload, category]⟩

end Roles

namespace Route

/-- The roles of a route hold exactly its parameters. -/
theorem roles_of {r : Route} {roles : Roles} (accepted : r.roles = .ok roles) :
    Roles.Of r.parameters roles :=
  Outcome.foldlM_invariant Roles.Of Roles.Of.nil (fun _ _ _ _ holds added => holds.add added)
    accepted

/-- No parameter behind those named `before` is at fault exactly when all their names are usable,
none is that of the connection handle, and none is used twice. -/
theorem parametersFault?_eq_none {before : List String} {parameters : List Parameter} :
    parametersFault? before parameters = none ↔
      (∀ p ∈ parameters, Code.isUsableName p.name = true ∧ p.name ≠ connectionName) ∧
        (parameters.map (·.name)).Nodup ∧ ∀ p ∈ parameters, p.name ∉ before := by
  induction parameters generalizing before with
  | nil => simp [parametersFault?]
  | cons p ps ih =>
      have head : parameterFault? before p.name = none ↔
          (Code.isUsableName p.name = true ∧ p.name ≠ connectionName) ∧ p.name ∉ before := by
        unfold parameterFault?
        cases usable : Code.isUsableName p.name <;> by_cases handle : p.name = connectionName <;>
          simp [handle]
      have step : parametersFault? before (p :: ps) = none ↔
          parameterFault? before p.name = none ∧
            parametersFault? (before ++ [p.name]) ps = none := by
        rw [parametersFault?]
        cases parameterFault? before p.name <;> simp
      rw [step, head, ih]
      simp only [List.forall_mem_cons, List.map_cons, List.nodup_cons, List.mem_append,
        List.mem_singleton, not_or, List.mem_map, not_exists, not_and]
      grind

/-- A route is accepted on account of its names exactly when its own name is usable and so are those
of its parameters, which differ from each other and from that of the connection handle. -/
theorem checkNames_eq_ok {r : Route} :
    r.checkNames = .ok () ↔
      Code.isUsableName r.name = true ∧
        (∀ p ∈ r.parameters, Code.isUsableName p.name = true ∧ p.name ≠ connectionName) ∧
          (r.parameters.map (·.name)).Nodup := by
  have faultless : r.checkNames = .ok () ↔ r.namesFault? = none := by
    unfold checkNames
    cases r.namesFault? <;> simp
  rw [faultless, namesFault?]
  cases usable : Code.isUsableName r.name with
  | false => simp
  | true => simp [parametersFault?_eq_none]

/-- Parameters are bound exactly when each fills a placeholder that occurs once, and no two of them
fill the same one. -/
theorem checkBindings_eq_ok {route : String} {names : List String} {before rest : List Parameter} :
    checkBindings route names before rest = .ok () ↔
      (∀ p ∈ rest, names.count p.placeholder = 1) ∧
        (rest.map (·.placeholder)).Nodup ∧
          ∀ p ∈ rest, p.placeholder ∉ before.map (·.placeholder) := by
  induction rest generalizing before with
  | nil => simp [checkBindings]
  | cons p ps ih =>
      rw [checkBindings]
      by_cases once : names.count p.placeholder = 1
      · rw [if_pos once]
        cases shared : before.find? (·.placeholder = p.placeholder) with
        | some first =>
            have taken : p.placeholder ∈ before.map (·.placeholder) := by
              have same := List.find?_some shared
              rw [decide_eq_true_eq] at same
              exact List.mem_map.mpr ⟨first, List.mem_of_find?_eq_some shared, same⟩
            constructor
            · intro accepted
              cases accepted
            · rintro ⟨_, _, fresh⟩
              exact absurd taken (fresh p List.mem_cons_self)
        | none =>
            have free : p.placeholder ∉ before.map (·.placeholder) := by
              intro taken
              obtain ⟨first, member, same⟩ := List.mem_map.mp taken
              have differs := List.find?_eq_none.mp shared first member
              exact differs (decide_eq_true same)
            simp only [ih, List.forall_mem_cons, List.map_cons, List.nodup_cons, List.map_append,
              List.mem_append, List.mem_singleton, once, not_or, List.mem_map, true_and,
              List.map_nil, not_exists, not_and]
            grind
      · rw [if_neg once]
        simp [once]

/-- A route is prepared exactly when its names are accepted, its parameters have their roles, and
its literal can be made. -/
theorem prepared_eq_ok {r : Route} {roles : Roles} {literal : PathLiteral} :
    r.prepared = .ok (roles, literal) ↔
      r.checkNames = .ok () ∧ r.roles = .ok roles ∧ r.literalOf roles = .ok literal := by
  unfold prepared
  simp only [bind_eq_ok, pure, Except.pure, Except.ok.injEq, Prod.mk.injEq]
  constructor
  · rintro ⟨_, named, _, classified, _, made, rfl, rfl⟩
    exact ⟨named, classified, made⟩
  · rintro ⟨named, classified, made⟩
    exact ⟨(), named, roles, classified, literal, made, rfl, rfl⟩

/-- The literal of a route is cut from the tokens of its path, provided that its parameters can be
bound. -/
theorem literalOf_eq_ok {r : Route} {roles : Roles} {literal : PathLiteral} :
    r.literalOf roles = .ok literal ↔
      checkBindings r.name ((placeholders r.path).map (·.name)) [] roles.pathSegments = .ok () ∧
        literal =
          { front := (PathLiteral.cut (substitute roles) (PathToken.scan r.path.toList)).1
            parts := (PathLiteral.cut (substitute roles) (PathToken.scan r.path.toList)).2
            query := roles.query.map (·.name) } := by
  unfold literalOf
  simp only [bind_eq_ok, pure, Except.pure, Except.ok.injEq]
  constructor
  · rintro ⟨_, bound, rfl⟩
    exact ⟨bound, rfl⟩
  · rintro ⟨bound, rfl⟩
    exact ⟨(), bound, rfl⟩

end Route

end RouteClient
