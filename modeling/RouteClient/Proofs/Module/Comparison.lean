import Mathlib.Data.List.Sort
import RouteClient.Proofs.Module.Admission

/-!
# Comparing plans

A plan is determined by its modules and the unit of each of them (`ModulePlan.Ascending.ext`), and a
unit by the routes of its module and the submodules that hold a route (`TreeOf.unitOf_congr`). Two
lists of routes are thus compared module by module, however their plans were made.
-/

namespace RouteClient

namespace ModulePlan

variable {plan other : ModulePlan} {routes others : List Route} {m : ModulePath}

instance : Std.Irrefl (α := ModulePath) (· < ·) := ⟨ModulePath.lt_irrefl⟩

instance : Std.Antisymm (α := ModulePath) (· < ·) where
  antisymm a _ before after := absurd (ModulePath.lt_trans before after) (ModulePath.lt_irrefl a)

/-- Plans with the same modules and the same units for them are equal. -/
theorem Ascending.ext (ascending : plan.Ascending) (ascendingToo : other.Ascending)
    (sameModules : ∀ m, m ∈ plan.modules ↔ m ∈ other.modules)
    (sameUnits : ∀ m, plan.unitOf m = other.unitOf m) : plan = other := by
  have modules : plan.modules = other.modules :=
    (List.pairwise_map.mpr ascending).eq_of_mem_iff (List.pairwise_map.mpr ascendingToo) sameModules
  -- An ascending plan is read off its modules, unit by unit.
  have units {p : ModulePlan} (ascends : p.Ascending) : p.modules.map p.unitOf = p := by
    rw [ModulePlan.modules, List.map_map]
    exact (List.map_congr_left fun u member => ascends.unitOf_of_mem member).trans (List.map_id p)
  rw [← units ascending, ← units ascendingToo, modules]
  exact List.map_congr_left fun m _ => sameUnits m

private theorem path_unitOf (plan : ModulePlan) (m : ModulePath) : (plan.unitOf m).path = m := by
  cases found : plan.find? (·.path = m) with
  | none => rw [unitOf, found, Option.getD_none, ModuleUnit.bare]
  | some u =>
      have same := List.find?_some found
      rw [unitOf, found, Option.getD_some]
      exact of_decide_eq_true same

/-- The unit of a module depends on its routes and on its submodules with a route, and on nothing
else. -/
theorem TreeOf.unitOf_congr (tree : TreeOf routes plan) (treeToo : TreeOf others other)
    (sameRoutes : routes.filter (·.home = m) = others.filter (·.home = m))
    (sameChildren : ∀ name, (∃ r ∈ routes, (m.child name).Covers r.home) ↔
      ∃ r ∈ others, (m.child name).Covers r.home) : plan.unitOf m = other.unitOf m := by
  have children : (plan.unitOf m).children = (other.unitOf m).children := by
    apply (tree.named m).eq_of_mem_iff (treeToo.named m)
    intro name
    rw [tree.linked, treeToo.linked, sameChildren]
  have paths : (plan.unitOf m).path = (other.unitOf m).path := by
    rw [path_unitOf, path_unitOf]
  have grouped : (plan.unitOf m).routes = (other.unitOf m).routes := by
    rw [tree.grouped, treeToo.grouped, sameRoutes]
  cases here : plan.unitOf m
  cases there : other.unitOf m
  rw [here, there] at children paths grouped
  congr

end ModulePlan

end RouteClient
