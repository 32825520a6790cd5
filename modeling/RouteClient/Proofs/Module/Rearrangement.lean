import RouteClient.Proofs.Module.Assembly
import RouteClient.Proofs.Module.Comparison

/-!
# Routes in another order

Routes are grouped by their modules before anything is written. The order in which routes of
different modules are given has therefore no influence on the plan
(`ModulePlan.ofRoutes_rearranged`), nor on the generated files (`generate_rearranged`).
-/

namespace RouteClient

/-- Two lists hold the same routes, and those of each module in the same order. -/
structure Rearranged (routes others : List Route) : Prop where
  perm : routes.Perm others
  order (m : ModulePath) : routes.filter (·.home = m) = others.filter (·.home = m)

variable {routes others : List Route}

/-- Rearranging can be undone. -/
theorem Rearranged.symm (same : Rearranged routes others) : Rearranged others routes :=
  ⟨same.perm.symm, fun m => (same.order m).symm⟩

/-- The order of the routes has to be compared in the modules that have a route, and in no
others. -/
theorem rearranged_iff : Rearranged routes others ↔ routes.Perm others ∧
    ∀ r ∈ routes, routes.filter (·.home = r.home) = others.filter (·.home = r.home) := by
  constructor
  · intro same
    exact ⟨same.perm, fun r _ => same.order r.home⟩
  · rintro ⟨perm, order⟩
    refine ⟨perm, fun m => ?_⟩
    by_cases known : ∃ r ∈ routes, r.home = m
    · obtain ⟨r, member, rfl⟩ := known
      exact order r member
    · have nothing {list : List Route} (within : list ⊆ routes) :
          list.filter (·.home = m) = [] := by
        apply List.filter_eq_nil_iff.mpr
        intro r member home
        exact known ⟨r, within member, of_decide_eq_true home⟩
      rw [nothing (List.Subset.refl routes), nothing perm.symm.subset]

/-- Whether routes are rearranged can be decided. -/
instance (routes others : List Route) : Decidable (Rearranged routes others) :=
  decidable_of_iff _ rearranged_iff.symm

/-- A module covers that of a route in one order of the routes when it does in the other. -/
theorem Rearranged.covers_iff (same : Rearranged routes others) (m : ModulePath) :
    (∃ r ∈ routes, m.Covers r.home) ↔ ∃ r ∈ others, m.Covers r.home :=
  exists_congr fun _ => and_congr_left' same.perm.mem_iff

/-- Rearranged routes have the same plan. -/
theorem ModulePlan.ofRoutes_rearranged {plan : ModulePlan} (same : Rearranged routes others)
    (planned : ofRoutes routes = .ok plan) : ofRoutes others = .ok plan := by
  have tree : TreeOf routes plan := treeOf_ofRoutes planned
  obtain ⟨other, plannedToo⟩ := ((admitted_ofRoutes planned).perm same.perm).exists_plan
  have treeToo : TreeOf others other := treeOf_ofRoutes plannedToo
  have equal : plan = other := by
    apply tree.ascending.ext treeToo.ascending
    · intro m
      rw [tree.covered, treeToo.covered, same.covers_iff]
    · intro m
      apply tree.unitOf_congr treeToo (same.order m)
      intro name
      exact same.covers_iff (m.child name)
  rw [equal, plannedToo]

/-- **The order across modules.** Routes that are given in another order, but in the same one within
each module, generate the same files, or none in both orders. -/
theorem generate_rearranged (s : Settings) (same : Rearranged routes others) (files : SourceFiles) :
    generate s routes = .ok files ↔ generate s others = .ok files := by
  have moved {a b : List Route} (same : Rearranged a b) (made : generate s a = .ok files) :
      generate s b = .ok files := by
    obtain ⟨plan, planned, written⟩ := Outcome.bind_eq_ok.mp made
    exact Outcome.bind_eq_ok.mpr ⟨plan, ModulePlan.ofRoutes_rearranged same planned, written⟩
  exact ⟨moved same, moved same.symm⟩

/-- Routes of three modules, of which one lies above another. -/
def Route.shopThenSales : List Route :=
  [.bare "open" .get "/shop/sales", .bare "list" .get "/shop", .bare "find" .get "/users",
   .bare "close" .put "/shop/sales"]

/-- The same routes with those of the other modules first. -/
def Route.usersThenShop : List Route :=
  [.bare "find" .get "/users", .bare "list" .get "/shop", .bare "open" .get "/shop/sales",
   .bare "close" .put "/shop/sales"]

/-- Routes of different modules in two orders, with the same files. -/
theorem generate_rearranged_shop : Rearranged Route.shopThenSales Route.usersThenShop ∧
    ∃ files, generate {} Route.shopThenSales = .ok files ∧
      generate {} Route.usersThenShop = .ok files := by
  have same : Rearranged Route.shopThenSales Route.usersThenShop := by decide
  have planned : ModulePlan.ofRoutes Route.shopThenSales =
      .ok [⟨.root, [], ["shop", "users"]⟩,
        ⟨⟨["shop"]⟩, [.bare "list" .get "/shop"], ["sales"]⟩,
        ⟨⟨["shop", "sales"]⟩,
          [.bare "open" .get "/shop/sales", .bare "close" .put "/shop/sales"], []⟩,
        ⟨⟨["users"]⟩, [.bare "find" .get "/users"], []⟩] := by rfl
  have texts : ∀ r ∈ Route.shopThenSales, ∃ text, r.unitText {} = .ok text := by
    simp only [Route.shopThenSales, List.forall_mem_cons]
    exact ⟨⟨_, by rfl⟩, ⟨_, by rfl⟩, ⟨_, by rfl⟩, ⟨_, by rfl⟩, by simp⟩
  obtain ⟨files, made⟩ := exists_generate_of_texts planned texts (by decide)
  exact ⟨same, files, made, (generate_rearranged {} same files).mp made⟩

end RouteClient
