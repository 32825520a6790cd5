import RouteClient.Module.Plan

/-!
# The units of a plan

A plan in ascending order is a finite map: `ModulePlan.unitOf` looks up the unit of a module, and
changing one unit keeps the order and changes the map at one module only (`Ascending.update`,
`Ascending.unitOf_update`). The children of a unit are a set kept in ascending order
(`ModuleUnit.mem_insertName`, `ModuleUnit.insertName_pairwise`).
-/

namespace RouteClient

namespace ModulePath

/-- No path is before itself. -/
theorem lt_irrefl (m : ModulePath) : ¬m < m :=
  List.lt_irrefl m.segments

/-- What is before a path is before all behind it. -/
theorem lt_trans {a b c : ModulePath} (first : a < b) (second : b < c) : a < c :=
  @List.lt_trans String _ _ a.segments b.segments c.segments first second

private theorem lt_of_ne_of_not_lt {a b : ModulePath} (differs : a ≠ b) (notBelow : ¬a < b) :
    b < a := by
  by_cases above : b < a
  · exact above
  · have same : a.segments = b.segments := List.le_antisymm above notBelow
    exact absurd (congrArg ModulePath.mk same) differs

end ModulePath

namespace ModuleUnit

/-- Inserting a name adds it. -/
theorem mem_insertName {name other : String} {names : List String} :
    other ∈ insertName name names ↔ other = name ∨ other ∈ names := by
  induction names with
  | nil => simp [insertName]
  | cons first rest ih =>
      rw [insertName]
      by_cases same : first = name
      · subst same
        simp
      · rw [if_neg same]
        by_cases before : name < first
        · rw [if_pos before, List.mem_cons]
        · rw [if_neg before, List.mem_cons, ih, List.mem_cons]
          exact or_left_comm

/-- Names that ascend do so with one more name. -/
theorem insertName_pairwise {name : String} {names : List String}
    (ascending : names.Pairwise (· < ·)) :
    (insertName name names).Pairwise (· < ·) := by
  induction names with
  | nil => exact List.pairwise_singleton _ name
  | cons first rest ih =>
      obtain ⟨below, ascends⟩ := List.pairwise_cons.mp ascending
      rw [insertName]
      by_cases same : first = name
      · rwa [if_pos same]
      · rw [if_neg same]
        by_cases before : name < first
        · rw [if_pos before]
          refine List.pairwise_cons.mpr ⟨?_, ascending⟩
          intro other member
          rcases List.mem_cons.mp member with rfl | later
          · exact before
          · exact String.lt_trans before (below other later)
        · rw [if_neg before]
          refine List.pairwise_cons.mpr ⟨?_, ih ascends⟩
          intro other member
          rcases mem_insertName.mp member with rfl | later
          · by_cases after : first < other
            · exact after
            · exact absurd (String.le_antisymm before after) same
          · exact below other later

end ModuleUnit

namespace ModulePlan

/-- The modules of a plan. -/
def modules (plan : ModulePlan) : List ModulePath := plan.map (·.path)

/-- The modules of a plan stand in strictly ascending order. -/
def Ascending (plan : ModulePlan) : Prop := plan.Pairwise fun a b => a.path < b.path

/-- The unit of a module, which is bare when the plan does not have the module. -/
def unitOf (plan : ModulePlan) (path : ModulePath) : ModuleUnit :=
  (plan.find? (·.path = path)).getD (.bare path)

/-- A change of units that keeps their modules. -/
def KeepsPath (change : ModuleUnit → ModuleUnit) : Prop := ∀ u, (change u).path = u.path

/-- A further route does not change the path of a unit. -/
theorem keepsPath_addRoute (r : Route) : KeepsPath (·.addRoute r) := fun _ => rfl

/-- A further submodule does not change the path of a unit. -/
theorem keepsPath_addChild (name : String) : KeepsPath (·.addChild name) := fun _ => rfl

private theorem unitOf_cons (u : ModuleUnit) (plan : ModulePlan) (path : ModulePath) :
    unitOf (u :: plan) path = if u.path = path then u else unitOf plan path := by
  unfold unitOf
  rw [List.find?_cons]
  by_cases same : u.path = path <;> simp [same]

/-- A module that the plan does not have has a bare unit. -/
theorem unitOf_of_not_mem {plan : ModulePlan} {path : ModulePath} (absent : path ∉ plan.modules) :
    plan.unitOf path = .bare path := by
  have missing : plan.find? (·.path = path) = none := by
    refine List.find?_eq_none.mpr fun u member same => absent ?_
    exact List.mem_map.mpr ⟨u, member, of_decide_eq_true same⟩
  rw [unitOf, missing, Option.getD_none]

variable {plan : ModulePlan} {path : ModulePath} {change : ModuleUnit → ModuleUnit}

private theorem Ascending.not_mem_of_lt {u : ModuleUnit} (ascending : Ascending (u :: plan))
    (before : path < u.path) : path ∉ modules (u :: plan) := by
  intro member
  obtain ⟨v, present, same⟩ := List.mem_map.mp member
  subst same
  rcases List.mem_cons.mp present with rfl | later
  · exact ModulePath.lt_irrefl _ before
  · exact ModulePath.lt_irrefl _
      (ModulePath.lt_trans before ((List.pairwise_cons.mp ascending).1 v later))

/-- No module has two units. -/
theorem Ascending.nodup_modules (ascending : plan.Ascending) : plan.modules.Nodup := by
  refine List.Pairwise.map _ (fun a b before same => ?_) ascending
  exact ModulePath.lt_irrefl b.path (same ▸ before)

/-- Each unit of an ascending plan is the one looked up for its module. -/
theorem Ascending.unitOf_of_mem (ascending : plan.Ascending) {u : ModuleUnit} (member : u ∈ plan) :
    plan.unitOf u.path = u := by
  induction plan with
  | nil => exact absurd member List.not_mem_nil
  | cons v plan ih =>
      obtain ⟨below, ascends⟩ := List.pairwise_cons.mp ascending
      rw [unitOf_cons]
      rcases List.mem_cons.mp member with rfl | later
      · rw [if_pos rfl]
      · have differs : v.path ≠ u.path := fun same =>
          ModulePath.lt_irrefl _ (same ▸ below u later)
        rw [if_neg differs, ih ascends later]

/-- Changing a unit adds its module if it was not there. -/
theorem mem_modules_update (keeps : KeepsPath change) {m : ModulePath} :
    m ∈ (plan.update path change).modules ↔ m = path ∨ m ∈ plan.modules := by
  have added : (change (.bare path)).path = path := keeps (.bare path)
  induction plan with
  | nil => simp [update, modules, added]
  | cons u plan ih =>
      rw [update]
      by_cases same : u.path = path
      · simp [modules, keeps u, same]
      · rw [if_neg same]
        by_cases before : path < u.path
        · simp [if_pos before, modules, added]
        · rw [if_neg before]
          change m ∈ u.path :: modules (update path change plan) ↔
            m = path ∨ m ∈ u.path :: modules plan
          rw [List.mem_cons, List.mem_cons, or_left_comm]
          exact or_congr_right ih

/-- Changing a unit keeps the order of the plan. -/
theorem Ascending.update (ascending : plan.Ascending) (keeps : KeepsPath change) :
    (plan.update path change).Ascending := by
  induction plan with
  | nil => exact List.pairwise_singleton _ _
  | cons u plan ih =>
      obtain ⟨below, ascends⟩ := List.pairwise_cons.mp ascending
      rw [ModulePlan.update]
      by_cases same : u.path = path
      · rw [if_pos same]
        exact List.pairwise_cons.mpr ⟨fun v member => keeps u ▸ below v member, ascends⟩
      · rw [if_neg same]
        by_cases before : path < u.path
        · rw [if_pos before]
          refine List.pairwise_cons.mpr ⟨?_, ascending⟩
          intro v member
          rw [keeps]
          rcases List.mem_cons.mp member with rfl | later
          · exact before
          · exact ModulePath.lt_trans before (below v later)
        · rw [if_neg before]
          refine List.pairwise_cons.mpr ⟨?_, ih ascends⟩
          intro v member
          have there : v.path ∈ modules (ModulePlan.update path change plan) :=
              List.mem_map_of_mem member
          rcases (mem_modules_update keeps).mp there with isPath | old
          · rw [isPath]
            exact ModulePath.lt_of_ne_of_not_lt (Ne.symm same) before
          · obtain ⟨w, present, samePath⟩ := List.mem_map.mp old
            rw [← samePath]
            exact below w present

/-- Changing a unit changes what is looked up for its module, and for no other one. -/
theorem Ascending.unitOf_update (ascending : plan.Ascending) (keeps : KeepsPath change)
    (m : ModulePath) :
    (plan.update path change).unitOf m =
      if m = path then change (plan.unitOf path) else plan.unitOf m := by
  have added : (change (.bare path)).path = path := keeps (.bare path)
  induction plan with
  | nil =>
      by_cases same : m = path
      · simp [ModulePlan.update, unitOf, same, added]
      · simp [ModulePlan.update, unitOf, same, added, Ne.symm same]
  | cons u plan ih =>
      rw [ModulePlan.update]
      by_cases here : u.path = path
      · rw [if_pos here, unitOf_cons, unitOf_cons, unitOf_cons, keeps, if_pos here, here]
        by_cases same : m = path
        · rw [if_pos same, if_pos same.symm]
        · rw [if_neg same, if_neg (Ne.symm same), if_neg (Ne.symm same)]
      · rw [if_neg here]
        by_cases before : path < u.path
        · rw [if_pos before, unitOf_cons, added,
            unitOf_of_not_mem (ascending.not_mem_of_lt before)]
          by_cases same : m = path
          · rw [if_pos same, if_pos same.symm]
          · rw [if_neg same, if_neg (Ne.symm same)]
        · rw [if_neg before, unitOf_cons, unitOf_cons, unitOf_cons, if_neg here,
            ih (List.pairwise_cons.mp ascending).2]
          by_cases same : m = path
          · rw [if_pos same, if_pos same, same, if_neg here]
          · rw [if_neg same, if_neg same]

end ModulePlan

end RouteClient
