import RouteClient.Client.FunctionText
import RouteClient.Proofs.Route.PathBuilding

/-!
# Which routes are accepted

A route has a text exactly when it keeps the contract of descriptors: its names can be used
(`Route.NamesUsable`), no role is taken twice (`Route.RolesSingle`), and each path-segment parameter
fills a placeholder of its own (`Route.Bound`). `Route.Refusal` is the failure of any other route.
It is that of the first of these three stages that the route fails, and there that of the first
parameter at fault: the route up to this parameter passes the stage.
-/

namespace RouteClient

open Outcome (bind_eq_ok bind_eq_error map_eq_ok map_eq_error)

/-- The route that a failure names, if it is the failure of a route. -/
def Failure.route? : Failure → Option String
  | .invalidRoute route _ => some route
  | .missingPlaceholder route _ _ => some route
  | .duplicateRole route _ _ => some route
  | _ => none

namespace Route

/-- The route with none of its parameters but the given ones. -/
def upTo (r : Route) (before : List Parameter) : Route := { r with parameters := before }

/-- The names of a route and its parameters can be used, and name different things. -/
structure NamesUsable (r : Route) : Prop where
  route : Code.isUsableName r.name = true
  parameters : ∀ p ∈ r.parameters, Code.isUsableName p.name = true ∧ p.name ≠ connectionName
  distinct : (r.parameters.map (·.name)).Nodup

/-- There are no two parameters in one role. -/
structure RolesSingle (r : Route) : Prop where
  query : (r.parametersOf .query).length ≤ 1
  payload : (r.parametersOf .payload).length ≤ 1

/-- What is wrong with the name of a parameter behind those declared before it. -/
inductive NameFault (before : List Parameter) (p : Parameter) : RouteFault → Prop
  | unusable : Code.isUsableName p.name = false → NameFault before p (.unusableParameter p.name)
  | connection : p.name = connectionName → NameFault before p (.connectionParameter p.name)
  | repeated : p.name ∈ before.map (·.name) → NameFault before p (.repeatedParameter p.name)

/-- The failure of a route that does not keep the contract. -/
inductive Refusal (r : Route) : Failure → Prop
  | name (unusable : Code.isUsableName r.name = false) :
      Refusal r (.invalidRoute r.name (.unusableName r.name))
  | parameter {before after : List Parameter} {p : Parameter} {fault : RouteFault}
      (split : r.parameters = before ++ p :: after) (named : (r.upTo before).NamesUsable)
      (atFault : NameFault before p fault) : Refusal r (.invalidRoute r.name fault)
  | role {before after : List Parameter} {p first : Parameter} (named : r.NamesUsable)
      (split : r.parameters = before ++ p :: after) (single : (r.upTo before).RolesSingle)
      (takes : p.category ≠ .pathSegment) (earlier : first ∈ before)
      (taken : first.category = p.category) :
      Refusal r (.duplicateRole r.name p.category.name p.name)
  | placeholder {before after : List Parameter} {p : Parameter} (named : r.NamesUsable)
      (single : r.RolesSingle) (split : r.parameters = before ++ p :: after)
      (bound : (r.upTo before).Bound) (segment : p.category = .pathSegment)
      (notOnce : ((placeholders r.path).map (·.name)).count p.placeholder ≠ 1) :
      Refusal r (.missingPlaceholder r.name p.name p.placeholder)
  | shared {before after : List Parameter} {p first : Parameter} (named : r.NamesUsable)
      (single : r.RolesSingle) (split : r.parameters = before ++ p :: after)
      (bound : (r.upTo before).Bound) (segment : p.category = .pathSegment)
      (once : ((placeholders r.path).map (·.name)).count p.placeholder = 1)
      (earlier : first ∈ before) (segmentToo : first.category = .pathSegment)
      (taken : first.placeholder = p.placeholder) :
      Refusal r (.invalidRoute r.name (.sharedPlaceholder first.name p.name p.placeholder))

/-- A refusal is a violation of the contract by the route that it names. -/
theorem Refusal.names_route {r : Route} {failure : Failure} (refused : r.Refusal failure) :
    failure.isContractViolation = true ∧ failure.route? = some r.name := by
  cases refused <;> exact ⟨rfl, rfl⟩

section Names

variable {r : Route} {parameters : List Parameter} {p : Parameter} {fault : RouteFault}

/-- The check of names passes when all names can be used and no parameter is named twice. -/
theorem checkNames_eq_ok_iff : r.checkNames = .ok () ↔ r.NamesUsable := by
  rw [checkNames_eq_ok]
  constructor
  · rintro ⟨route, parameters, distinct⟩
    exact ⟨route, parameters, distinct⟩
  · rintro ⟨route, parameters, distinct⟩
    exact ⟨route, parameters, distinct⟩

private theorem parametersFault?_cons (names : List String) (p : Parameter) (ps : List Parameter) :
    parametersFault? names (p :: ps) =
      (parameterFault? names p.name).or (parametersFault? (names ++ [p.name]) ps) := by
  rw [parametersFault?]
  cases parameterFault? names p.name <;> rfl

/-- The fault that is found is that of the first parameter with one. -/
theorem parametersFault?_eq_some {names : List String} :
    parametersFault? names parameters = some fault ↔ ∃ before p after,
      parameters = before ++ p :: after ∧ parametersFault? names before = none ∧
        parameterFault? (names ++ before.map (·.name)) p.name = some fault := by
  induction parameters generalizing names with
  | nil => simp [parametersFault?]
  | cons head tail ih =>
      rw [parametersFault?_cons, Option.or_eq_some_iff]
      constructor
      · rintro (atHead | ⟨passes, later⟩)
        · refine ⟨[], head, tail, rfl, rfl, ?_⟩
          rwa [List.map_nil, List.append_nil]
        · obtain ⟨before, p, after, rfl, passesBefore, fails⟩ := ih.mp later
          refine ⟨head :: before, p, after, rfl, ?_, ?_⟩
          · rw [parametersFault?_cons, passes, passesBefore]
            rfl
          · rwa [List.append_assoc, List.singleton_append] at fails
      · rintro ⟨before, p, after, split, passes, fails⟩
        cases before with
        | nil =>
            obtain ⟨rfl, rfl⟩ := List.cons.inj split
            rw [List.map_nil, List.append_nil] at fails
            exact Or.inl fails
        | cons q rest =>
            obtain ⟨rfl, rfl⟩ := List.cons.inj split
            rw [parametersFault?_cons, Option.or_eq_none_iff] at passes
            refine Or.inr ⟨passes.1, ih.mpr ⟨rest, p, after, rfl, passes.2, ?_⟩⟩
            rwa [List.append_assoc, List.singleton_append]

private theorem namesUsable_upTo (usable : Code.isUsableName r.name = true)
    {before : List Parameter} :
    (r.upTo before).NamesUsable ↔ parametersFault? [] before = none := by
  rw [parametersFault?_eq_none]
  constructor
  · rintro ⟨_, parameters, distinct⟩
    exact ⟨parameters, distinct, fun _ _ => List.not_mem_nil⟩
  · rintro ⟨parameters, distinct, _⟩
    exact ⟨usable, parameters, distinct⟩

/-- The fault that is found behind names that can be used is what is wrong with the name. -/
theorem parameterFault?_eq_some {before : List Parameter} (named : (r.upTo before).NamesUsable) :
    parameterFault? (before.map (·.name)) p.name = some fault ↔ NameFault before p fault := by
  have earlierUsable : ∀ name ∈ before.map (·.name),
      Code.isUsableName name = true ∧ name ≠ connectionName := by
    intro name member
    obtain ⟨q, listed, rfl⟩ := List.mem_map.mp member
    exact named.parameters q listed
  unfold parameterFault?
  constructor
  · intro found
    split at found
    next unusable =>
      cases found
      exact .unusable (by simpa using unusable)
    next =>
      split at found
      next handle =>
        cases found
        exact .connection handle
      next =>
        split at found
        next repeats =>
          cases found
          exact .repeated (List.contains_iff_mem.mp repeats)
        next => cases found
  · intro wrong
    cases wrong with
    | unusable unusable => rw [unusable, Bool.not_false, if_pos rfl]
    | connection handle =>
        -- The name of the handle is itself usable, so that the first test lets it pass.
        have usable : Code.isUsableName p.name = true := by rw [handle]; decide
        rw [usable, Bool.not_true, if_neg Bool.false_ne_true, if_pos handle]
    | repeated taken =>
        obtain ⟨usable, differs⟩ := earlierUsable p.name taken
        rw [usable, Bool.not_true, if_neg Bool.false_ne_true, if_neg differs,
          if_pos (List.contains_iff_mem.mpr taken)]

/-- The names of a route are refused for the name of the route, or for that of the first parameter
whose name is at fault. -/
theorem checkNames_eq_error {failure : Failure} :
    r.checkNames = .error failure ↔
      Code.isUsableName r.name = false ∧ failure = .invalidRoute r.name (.unusableName r.name) ∨
        ∃ before p after fault, r.parameters = before ++ p :: after ∧
          (r.upTo before).NamesUsable ∧ NameFault before p fault ∧
            failure = .invalidRoute r.name fault := by
  have refused : r.checkNames = .error failure ↔
      ∃ fault, r.namesFault? = some fault ∧ failure = .invalidRoute r.name fault := by
    rw [checkNames]
    cases r.namesFault? <;> simp [eq_comm]
  rw [refused, namesFault?]
  cases usable : Code.isUsableName r.name with
  | false =>
      constructor
      · rintro ⟨fault, found, same⟩
        cases found
        exact Or.inl ⟨rfl, same⟩
      · rintro (⟨_, same⟩ | ⟨before, p, after, fault, _, named, _⟩)
        · exact ⟨_, rfl, same⟩
        · exact absurd named.route (by simp [upTo, usable])
  | true =>
      rw [if_pos rfl]
      constructor
      · rintro ⟨fault, found, same⟩
        obtain ⟨before, p, after, split, passes, fails⟩ := parametersFault?_eq_some.mp found
        have named := (namesUsable_upTo usable).mpr passes
        exact Or.inr ⟨before, p, after, fault, split, named,
          (parameterFault?_eq_some named).mp fails, same⟩
      · rintro (⟨unusable, _⟩ | ⟨before, p, after, fault, split, named, wrong, same⟩)
        · cases unusable
        · refine ⟨fault, parametersFault?_eq_some.mpr ⟨before, p, after, split, ?_, ?_⟩, same⟩
          · exact (namesUsable_upTo usable).mp named
          · exact (parameterFault?_eq_some named).mpr wrong

end Names

section SingleRoles

variable {r : Route} {before : List Parameter} {roles : Roles} {p : Parameter}

/-- A parameter is refused a role exactly when a parameter before it has the role. -/
theorem add_eq_error {route : String} {failure : Failure} (holds : Roles.Of before roles) :
    roles.add route p = .error failure ↔
      p.category ≠ .pathSegment ∧ (∃ first ∈ before, first.category = p.category) ∧
        failure = Roles.taken route p := by
  have occupied {slot : Option Parameter} {category : Category}
      (slots : slot.toList = before.filter (·.category = category)) :
      slot.isSome = true ↔ ∃ first ∈ before, first.category = category := by
    have listed : slot.isSome = true ↔ slot.toList ≠ [] := by cases slot <;> simp
    rw [listed, slots, ne_eq, List.filter_eq_nil_iff]
    simp
  unfold Roles.add
  cases category : p.category with
  | pathSegment => simp
  | query =>
      rw [← occupied holds.query]
      cases roles.query <;> simp [eq_comm]
  | payload =>
      rw [← occupied holds.payload]
      cases roles.payload <;> simp [eq_comm]

private theorem RolesSingle.not_taken (single : r.RolesSingle) {after : List Parameter}
    (split : r.parameters = before ++ p :: after) (takes : p.category ≠ .pathSegment) :
    ¬ ∃ first ∈ before, first.category = p.category := by
  rintro ⟨first, earlier, same⟩
  have atMost : (r.parametersOf p.category).length ≤ 1 := by
    cases category : p.category with
    | pathSegment => exact absurd category takes
    | query => exact single.query
    | payload => exact single.payload
  have inBefore : first ∈ before.filter (·.category = p.category) :=
    List.mem_filter.mpr ⟨earlier, decide_eq_true same⟩
  have positive := List.length_pos_of_mem inBefore
  have more : r.parametersOf p.category =
      before.filter (·.category = p.category) ++ p :: after.filter (·.category = p.category) := by
    rw [parametersOf, split, List.filter_append, List.filter_cons, if_pos (decide_eq_true rfl)]
  rw [more, List.length_append, List.length_cons] at atMost
  omega

/-- Parameters have roles when there is one query and one payload at most. -/
theorem exists_roles : (∃ roles, r.roles = .ok roles) ↔ r.RolesSingle := by
  constructor
  · rintro ⟨roles, classified⟩
    obtain ⟨_, query, payload⟩ := roles_of classified
    have atMost (slot : Option Parameter) : slot.toList.length ≤ 1 := by cases slot <;> simp
    constructor
    · exact le_of_eq_of_le (congrArg List.length query.symm) (atMost roles.query)
    · exact le_of_eq_of_le (congrArg List.length payload.symm) (atMost roles.payload)
  · intro single
    cases classified : r.roles with
    | ok roles => exact ⟨roles, rfl⟩
    | error failure =>
        obtain ⟨before, p, after, state, split, reached, fails⟩ :=
          Outcome.foldlM_eq_error.mp classified
        have holds := roles_of (r := r.upTo before) reached
        obtain ⟨takes, taken, _⟩ := (add_eq_error holds).mp fails
        exact absurd taken (single.not_taken split takes)

/-- The roles of a route are refused for the first parameter whose role is taken. -/
theorem roles_eq_error {failure : Failure} :
    r.roles = .error failure ↔ ∃ before p after, r.parameters = before ++ p :: after ∧
      (r.upTo before).RolesSingle ∧ p.category ≠ .pathSegment ∧
        (∃ first ∈ before, first.category = p.category) ∧ failure = Roles.taken r.name p := by
  rw [roles, Outcome.foldlM_eq_error]
  constructor
  · rintro ⟨before, p, after, state, split, reached, fails⟩
    have holds := roles_of (r := r.upTo before) reached
    exact ⟨before, p, after, split, exists_roles.mp ⟨state, reached⟩, (add_eq_error holds).mp fails⟩
  · rintro ⟨before, p, after, split, single, fails⟩
    obtain ⟨state, reached⟩ := exists_roles.mpr single
    have holds := roles_of (r := r.upTo before) reached
    exact ⟨before, p, after, state, split, reached, (add_eq_error holds).mpr fails⟩

end SingleRoles

section Binding

variable {r : Route} {names : List String} {route : String}

/-- Parameters fail to be bound with the first one that fills no placeholder of its own. -/
theorem checkBindings_eq_error {failure : Failure} {before rest : List Parameter} :
    checkBindings route names before rest = .error failure ↔ ∃ passed p after,
      rest = passed ++ p :: after ∧ checkBindings route names before passed = .ok () ∧
        checkBindings route names (before ++ passed) [p] = .error failure := by
  induction rest generalizing before with
  | nil => simp [checkBindings]
  | cons head tail ih =>
      -- The check of the head alone, then that of the others behind it.
      have step (more : List Parameter) : checkBindings route names before (head :: more) =
          checkBindings route names before [head] >>= fun _ =>
            checkBindings route names (before ++ [head]) more := by
        simp only [checkBindings]
        split
        · cases before.find? (·.placeholder = head.placeholder) <;> rfl
        · rfl
      rw [step, bind_eq_error]
      constructor
      · rintro (fails | ⟨_, first, fails⟩)
        · refine ⟨[], head, tail, rfl, rfl, ?_⟩
          rwa [List.append_nil]
        · obtain ⟨passed, p, after, rfl, passes, fails⟩ := ih.mp fails
          refine ⟨head :: passed, p, after, rfl, ?_, ?_⟩
          · rw [step, bind_eq_ok]
            exact ⟨(), first, passes⟩
          · rwa [List.append_assoc, List.singleton_append] at fails
      · rintro ⟨passed, p, after, split, passes, fails⟩
        cases passed with
        | nil =>
            obtain ⟨rfl, rfl⟩ := List.cons.inj split
            rw [List.append_nil] at fails
            exact Or.inl fails
        | cons q others =>
            obtain ⟨rfl, rfl⟩ := List.cons.inj split
            rw [step, bind_eq_ok] at passes
            obtain ⟨_, first, passes⟩ := passes
            refine Or.inr ⟨(), first, ih.mpr ⟨others, p, after, rfl, passes, ?_⟩⟩
            rwa [List.append_assoc, List.singleton_append]

/-- A single parameter fails to be bound when its placeholder does not occur once, or is filled by a
parameter before it. -/
theorem checkBindings_singleton_eq_error {failure : Failure} {before : List Parameter}
    {p : Parameter} (distinct : (before.map (·.placeholder)).Nodup) :
    checkBindings route names before [p] = .error failure ↔
      names.count p.placeholder ≠ 1 ∧
          failure = .missingPlaceholder route p.name p.placeholder ∨
        names.count p.placeholder = 1 ∧ ∃ first ∈ before, first.placeholder = p.placeholder ∧
          failure = .invalidRoute route (.sharedPlaceholder first.name p.name p.placeholder) := by
  simp only [checkBindings]
  by_cases once : names.count p.placeholder = 1
  · rw [if_pos once]
    cases shared : before.find? (·.placeholder = p.placeholder) with
    | none =>
        have free := List.find?_eq_none.mp shared
        constructor
        · intro fails
          cases fails
        · rintro (⟨many, _⟩ | ⟨_, first, member, same, _⟩)
          · exact absurd once many
          · exact absurd (decide_eq_true same) (free first member)
    | some found =>
        have member := List.mem_of_find?_eq_some shared
        have same : found.placeholder = p.placeholder := by simpa using List.find?_some shared
        constructor
        · intro fails
          cases fails
          exact Or.inr ⟨once, found, member, same, rfl⟩
        · rintro (⟨many, _⟩ | ⟨_, first, memberToo, sameToo, rfl⟩)
          · exact absurd once many
          · -- The parameters before have different placeholders, so that only one of them is meant.
            have only : first = found :=
              List.inj_on_of_nodup_map distinct memberToo member (sameToo.trans same.symm)
            rw [only]
  · rw [if_neg once]
    constructor
    · intro fails
      cases fails
      exact Or.inl ⟨once, rfl⟩
    · rintro (⟨_, rfl⟩ | ⟨onlyOnce, _⟩)
      · rfl
      · exact absurd onlyOnce once

/-- The parameters of a category are those that are declared with it. -/
theorem mem_parametersOf {category : Category} {p : Parameter} :
    p ∈ r.parametersOf category ↔ p ∈ r.parameters ∧ p.category = category := by
  rw [parametersOf, List.mem_filter, decide_eq_true_eq]

/-- The check of bindings passes when every path parameter has one placeholder of its own. -/
theorem checkBindings_eq_ok_iff :
    checkBindings r.name ((placeholders r.path).map (·.name)) [] (r.parametersOf .pathSegment) =
      .ok () ↔ r.Bound := by
  rw [checkBindings_eq_ok]
  constructor
  · rintro ⟨once, distinct, _⟩
    exact ⟨once, distinct⟩
  · rintro ⟨once, distinct⟩
    exact ⟨once, distinct, fun _ _ => List.not_mem_nil⟩

/-- The path-segment parameters stand around one of them as the parameters of the route do. -/
theorem parametersOf_eq_append_cons {category : Category} {passed later : List Parameter}
    {p : Parameter} :
    r.parametersOf category = passed ++ p :: later ↔ ∃ before after,
      r.parameters = before ++ p :: after ∧ (r.upTo before).parametersOf category = passed ∧
        p.category = category ∧ (r.upTo after).parametersOf category = later := by
  simp only [parametersOf, upTo]
  rw [List.filter_eq_append_iff]
  constructor
  · rintro ⟨front, back, split, passes, rest⟩
    obtain ⟨between, after, rfl, skipped, taken, remains⟩ := List.filter_eq_cons_iff.mp rest
    refine ⟨front ++ between, after, ?_, ?_, of_decide_eq_true taken, remains⟩
    · rw [split, List.append_assoc]
    · have nothing : between.filter (·.category = category) = [] :=
        List.filter_eq_nil_iff.mpr skipped
      rw [List.filter_append, nothing, List.append_nil, passes]
  · rintro ⟨before, after, split, rfl, rfl, rfl⟩
    refine ⟨before, p :: after, split, rfl, ?_⟩
    rw [List.filter_cons, if_pos (decide_eq_true rfl)]

/-- The path-segment parameters of a route fail to be bound with the first one that cannot be. -/
theorem bindings_eq_error {failure : Failure} :
    checkBindings r.name ((placeholders r.path).map (·.name)) [] (r.parametersOf .pathSegment) =
        .error failure ↔
      ∃ before p after, r.parameters = before ++ p :: after ∧ (r.upTo before).Bound ∧
        p.category = .pathSegment ∧
          (((placeholders r.path).map (·.name)).count p.placeholder ≠ 1 ∧
              failure = .missingPlaceholder r.name p.name p.placeholder ∨
            ((placeholders r.path).map (·.name)).count p.placeholder = 1 ∧
              ∃ first ∈ (r.upTo before).parametersOf .pathSegment,
                first.placeholder = p.placeholder ∧
                  failure =
                    .invalidRoute r.name (.sharedPlaceholder first.name p.name p.placeholder)) := by
  rw [checkBindings_eq_error]
  constructor
  · rintro ⟨passed, p, later, segments, passes, fails⟩
    obtain ⟨before, after, split, rfl, segment, _⟩ := parametersOf_eq_append_cons.mp segments
    have bound : (r.upTo before).Bound := checkBindings_eq_ok_iff.mp passes
    exact ⟨before, p, after, split, bound, segment,
      (checkBindings_singleton_eq_error bound.distinct).mp fails⟩
  · rintro ⟨before, p, after, split, bound, segment, fails⟩
    have segments :=
      parametersOf_eq_append_cons.mpr ⟨before, after, split, rfl, segment, rfl⟩
    exact ⟨_, p, _, segments, checkBindings_eq_ok_iff.mpr bound,
      (checkBindings_singleton_eq_error bound.distinct).mpr fails⟩

end Binding

section Stages

variable {r : Route} {failure : Failure}

private theorem literalOf_eq_error {roles : Roles} (classified : r.roles = .ok roles) :
    r.literalOf roles = .error failure ↔
      checkBindings r.name ((placeholders r.path).map (·.name)) [] (r.parametersOf .pathSegment) =
        .error failure := by
  rw [literalOf, bind_eq_error, (roles_of classified).pathSegments]
  constructor
  · rintro (fails | ⟨_, _, fails⟩)
    · exact fails
    · cases fails
  · exact Or.inl

/-- A route is prepared when it passes the three checks. -/
theorem exists_prepared :
    (∃ prepared, r.prepared = .ok prepared) ↔ r.NamesUsable ∧ r.RolesSingle ∧ r.Bound := by
  constructor
  · rintro ⟨⟨roles, literal⟩, accepted⟩
    obtain ⟨named, classified, _⟩ := prepared_eq_ok.mp accepted
    exact ⟨checkNames_eq_ok_iff.mp named, exists_roles.mp ⟨roles, classified⟩,
      bound_of_prepared accepted⟩
  · rintro ⟨named, single, bound⟩
    obtain ⟨roles, classified⟩ := exists_roles.mpr single
    have checked := checkBindings_eq_ok_iff.mpr bound
    rw [parametersOf, ← (roles_of classified).pathSegments] at checked
    exact ⟨_, prepared_eq_ok.mpr
      ⟨checkNames_eq_ok_iff.mpr named, classified, literalOf_eq_ok.mpr ⟨checked, rfl⟩⟩⟩

/-- A route is refused by the first stage that it does not pass. -/
theorem prepared_eq_error : r.prepared = .error failure ↔
    r.checkNames = .error failure ∨
      r.NamesUsable ∧ (r.roles = .error failure ∨
        r.RolesSingle ∧
          checkBindings r.name ((placeholders r.path).map (·.name)) []
            (r.parametersOf .pathSegment) = .error failure) := by
  rw [prepared, bind_eq_error, ← checkNames_eq_ok_iff, ← exists_roles]
  constructor
  · rintro (fails | ⟨_, named, later⟩)
    · exact Or.inl fails
    · refine Or.inr ⟨named, ?_⟩
      rcases bind_eq_error.mp later with fails | ⟨roles, classified, later⟩
      · exact Or.inl fails
      · refine Or.inr ⟨⟨roles, classified⟩, ?_⟩
        rcases bind_eq_error.mp later with fails | ⟨_, _, fails⟩
        · exact (literalOf_eq_error classified).mp fails
        · cases fails
  · rintro (fails | ⟨named, fails | ⟨⟨roles, classified⟩, fails⟩⟩)
    · exact Or.inl fails
    · exact Or.inr ⟨(), named, bind_eq_error.mpr (Or.inl fails)⟩
    · have made := (literalOf_eq_error classified).mpr fails
      exact Or.inr ⟨(), named, bind_eq_error.mpr
        (Or.inr ⟨roles, classified, bind_eq_error.mpr (Or.inl made)⟩)⟩

/-- The refusals of a route are the failures with which its preparation can end. -/
theorem prepared_eq_error_iff_refusal : r.prepared = .error failure ↔ r.Refusal failure := by
  rw [prepared_eq_error, checkNames_eq_error, roles_eq_error, bindings_eq_error]
  constructor
  · rintro ((⟨unusable, rfl⟩ | ⟨before, p, after, fault, split, passes, wrong, rfl⟩) |
      ⟨named, ⟨before, p, after, split, single, takes, ⟨first, earlier, taken⟩, rfl⟩ |
        ⟨single, before, p, after, split, bound, segment,
          ⟨notOnce, rfl⟩ | ⟨once, first, earlier, taken, rfl⟩⟩⟩)
    · exact .name unusable
    · exact .parameter split passes wrong
    · exact .role named split single takes earlier taken
    · exact .placeholder named single split bound segment notOnce
    · obtain ⟨member, segmentToo⟩ := mem_parametersOf.mp earlier
      exact .shared named single split bound segment once member segmentToo taken
  · intro refused
    cases refused with
    | name unusable => exact Or.inl (Or.inl ⟨unusable, rfl⟩)
    | parameter split passes wrong => exact Or.inl (Or.inr ⟨_, _, _, _, split, passes, wrong, rfl⟩)
    | role named split single takes earlier taken =>
        exact Or.inr ⟨named, Or.inl ⟨_, _, _, split, single, takes, ⟨_, earlier, taken⟩, rfl⟩⟩
    | placeholder named single split bound segment notOnce =>
        exact Or.inr ⟨named, Or.inr
          ⟨single, _, _, _, split, bound, segment, Or.inl ⟨notOnce, rfl⟩⟩⟩
    | @shared before _ _ first named single split bound segment once earlier segmentToo taken =>
        have member : first ∈ (r.upTo before).parametersOf .pathSegment :=
          mem_parametersOf.mpr ⟨earlier, segmentToo⟩
        exact Or.inr ⟨named, Or.inr
          ⟨single, _, _, _, split, bound, segment, Or.inr ⟨once, _, member, taken, rfl⟩⟩⟩

/-- A text fails with what keeps its route from being prepared. -/
theorem unitText_eq_error {s : Settings} :
    r.unitText s = .error failure ↔ r.prepared = .error failure := by
  rw [unitText, map_eq_error, clientFunction, bind_eq_error]
  constructor
  · rintro (fails | ⟨_, _, fails⟩)
    · exact fails
    · cases fails
  · exact Or.inl

/-- A route has a text when it can be prepared. -/
theorem exists_unitText {s : Settings} :
    (∃ text, r.unitText s = .ok text) ↔ ∃ prepared, r.prepared = .ok prepared := by
  simp only [unitText, map_eq_ok, clientFunction, bind_eq_ok]
  constructor
  · rintro ⟨_, _, ⟨prepared, accepted, _⟩, _⟩
    exact ⟨prepared, accepted⟩
  · rintro ⟨prepared, accepted⟩
    exact ⟨_, _, ⟨prepared, accepted, rfl⟩, rfl⟩

end Stages

/-- **Which routes are accepted.** Under any settings, a route has a text exactly when its names can
be used, no role is taken twice, and its path-segment parameters are bound. Any other route is
refused with the failure of the first stage that it does not pass, which breaks the contract and
names the route. -/
theorem unitText_decides (s : Settings) (r : Route) :
    ((∃ text, r.unitText s = .ok text) ↔ r.NamesUsable ∧ r.RolesSingle ∧ r.Bound) ∧
      ∀ failure, (r.unitText s = .error failure ↔ r.Refusal failure) ∧
        (r.unitText s = .error failure →
          failure.isContractViolation = true ∧ failure.route? = some r.name) := by
  refine ⟨exists_unitText.trans exists_prepared, fun failure => ?_⟩
  have refuses : r.unitText s = .error failure ↔ r.Refusal failure :=
    unitText_eq_error.trans prepared_eq_error_iff_refusal
  exact ⟨refuses, fun fails => (refuses.mp fails).names_route⟩

end Route

end RouteClient
