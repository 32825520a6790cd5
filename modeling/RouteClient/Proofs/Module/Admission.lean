import RouteClient.Proofs.Module.Tree

/-!
# Lists of routes that have a plan

A route is refused when a segment of its path names no directory, and when a route of its module has
its name already. A list of routes that has a plan therefore holds no such route
(`ModulePlan.admitted_ofRoutes`), and a list that holds none has a plan (`Admitted.exists_plan`).
-/

namespace RouteClient

namespace ModulePlan

variable {plan next : ModulePlan} {routes : List Route} {r : Route} {u : ModuleUnit}

/-- Routes whose paths name directories, and whose names are distinct within each module. -/
structure Admitted (routes : List Route) : Prop where
  directories : ∀ r ∈ routes, ∀ segment ∈ r.home.segments,
    ModulePath.isDirectorySegment segment = true
  distinct : routes.Pairwise fun a b => a.home = b.home → a.name ≠ b.name

/-- The routes of a module are those of its unit. -/
theorem routesOf_eq (plan : ModulePlan) (path : ModulePath) :
    plan.routesOf path = (plan.unitOf path).routes := by
  unfold routesOf unitOf
  cases plan.find? (·.path = path) with
  | none => rfl
  | some u => rfl

/-- A route is not refused when its segments can name directories and its module has no route of its
name. -/
theorem refusal?_eq_none : plan.refusal? r = none ↔
    (∀ segment ∈ r.home.segments, ModulePath.isDirectorySegment segment = true) ∧
      ∀ other ∈ (plan.unitOf r.home).routes, other.name ≠ r.name := by
  have usable : r.home.invalidSegment? = none ↔
      ∀ segment ∈ r.home.segments, ModulePath.isDirectorySegment segment = true := by
    simp only [ModulePath.invalidSegment?, List.find?_eq_none, Bool.not_eq_true', Bool.not_eq_false]
  have home : ModulePath.ofRoutePath r.path = r.home := rfl
  simp only [refusal?, home, routesOf_eq]
  rw [← usable]
  cases r.home.invalidSegment? with
  | some segment => simp
  | none => simp

/-- A route can be added when it is not refused. -/
theorem add_eq_ok : plan.add r = .ok next ↔ plan.refusal? r = none ∧ next = plan.addRoute r := by
  unfold add
  cases plan.refusal? r with
  | some failure => simp
  | none => simp [eq_comm]

/-- Every route that is added keeps the list of routes admitted. -/
theorem Admitted.add (admitted : Admitted routes) (tree : TreeOf routes plan)
    (accepted : plan.add r = .ok next) : Admitted (routes ++ [r]) := by
  obtain ⟨directories, fresh⟩ := refusal?_eq_none.mp (add_eq_ok.mp accepted).1
  constructor
  case directories =>
    intro other member
    rcases List.mem_append.mp member with earlier | last
    · exact admitted.directories other earlier
    · rw [List.mem_singleton.mp last]
      exact directories
  case distinct =>
    apply List.pairwise_append.mpr
    refine ⟨admitted.distinct, List.pairwise_singleton _ r, ?_⟩
    intro earlier member last isLast home
    rw [List.mem_singleton.mp isLast] at home ⊢
    apply fresh
    rw [tree.grouped]
    exact List.mem_filter.mpr ⟨member, decide_eq_true home⟩

/-- Routes that have a plan are admitted. -/
theorem admitted_ofRoutes (planned : ofRoutes routes = .ok plan) : Admitted routes := by
  have both : TreeOf routes plan ∧ Admitted routes := by
    apply Outcome.foldlM_invariant (fun done state => TreeOf done state ∧ Admitted done) _ _ planned
    · refine ⟨TreeOf.nil, ⟨?_, List.Pairwise.nil⟩⟩
      intro r member
      exact absurd member List.not_mem_nil
    · rintro done state r next ⟨tree, admitted⟩ accepted
      exact ⟨tree.add accepted, admitted.add tree accepted⟩
  exact both.2

/-- Admitted routes have a plan. -/
theorem Admitted.exists_plan (admitted : Admitted routes) : ∃ plan, ofRoutes routes = .ok plan := by
  cases planned : ofRoutes routes with
  | ok plan => exact ⟨plan, rfl⟩
  | error failure =>
      obtain ⟨before, r, after, state, rfl, reached, fails⟩ := Outcome.foldlM_eq_error.mp planned
      have tree : TreeOf before state := treeOf_ofRoutes reached
      have usable : state.refusal? r = none := by
        apply refusal?_eq_none.mpr
        refine ⟨admitted.directories r List.mem_append_cons_self, ?_⟩
        intro other member
        rw [tree.grouped] at member
        obtain ⟨earlier, home⟩ := List.mem_filter.mp member
        have apart := (List.pairwise_append.mp admitted.distinct).2.2
        exact apart other earlier r List.mem_cons_self (of_decide_eq_true home)
      rw [ModulePlan.add, usable] at fails
      cases fails

/-- Routes remain admitted when some of them are left out. -/
theorem Admitted.sublist {others : List Route} (admitted : Admitted routes)
    (within : others.Sublist routes) : Admitted others where
  directories r member := admitted.directories r (within.subset member)
  distinct := admitted.distinct.sublist within

/-- Routes remain admitted in another order. -/
theorem Admitted.perm {others : List Route} (admitted : Admitted routes)
    (moved : routes.Perm others) : Admitted others where
  directories r member := admitted.directories r (moved.mem_iff.mpr member)
  distinct := by
    refine (moved.pairwise_iff ?_).mp admitted.distinct
    intro a b apart home same
    exact apart home.symm same.symm

/-- The segments of a planned module name directories. -/
theorem Admitted.directory_of_mem (admitted : Admitted routes) (tree : TreeOf routes plan)
    {m : ModulePath} (member : m ∈ plan.modules) {segment : String}
    (listed : segment ∈ m.segments) :
    ModulePath.isDirectorySegment segment = true := by
  obtain ⟨r, present, covers⟩ := (tree.covered m).mp member
  exact admitted.directories r present segment (covers.subset listed)

/-- The routes of a unit have distinct names. -/
theorem Admitted.nodup_names (admitted : Admitted routes) (tree : TreeOf routes plan)
    (member : u ∈ plan) : (u.routes.map (·.name)).Nodup := by
  rw [tree.unit_routes member]
  apply List.pairwise_map.mpr
  have within := admitted.distinct.filter (fun r => decide (r.home = u.path))
  refine within.imp_of_mem ?_
  intro a b first second apart
  have firstHome : a.home = u.path := of_decide_eq_true (List.mem_filter.mp first).2
  have secondHome : b.home = u.path := of_decide_eq_true (List.mem_filter.mp second).2
  exact apart (firstHome.trans secondHome.symm)

end ModulePlan

end RouteClient
