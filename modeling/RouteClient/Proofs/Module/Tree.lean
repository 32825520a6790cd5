import Mathlib.Data.List.Basic
import RouteClient.Proofs.Module.Units
import RouteClient.Proofs.Outcome

/-!
# The module tree of a list of routes

Adding a route to a plan enters its module and all modules above it. `ModulePlan.TreeOf` says what a
plan knows of the routes it was made from; it holds of the empty plan and every accepted route keeps
it (`TreeOf.add`). The tree that a caller sees, `ModulePlan.IsModuleTree`, follows from it.
-/

namespace RouteClient

namespace ModulePath

/-- A module covers a module when it is that module or one above it. -/
def Covers (m other : ModulePath) : Prop := m.segments <+: other.segments

/-- A module covers a module when it is that module, or one of its submodules covers it. -/
theorem covers_iff {m other : ModulePath} :
    m.Covers other ↔ m = other ∨ ∃ name, (m.child name).Covers other := by
  constructor
  · rintro ⟨rest, extended⟩
    cases rest with
    | nil =>
        rw [List.append_nil] at extended
        exact Or.inl (congrArg ModulePath.mk extended)
    | cons name rest =>
        refine Or.inr ⟨name, rest, ?_⟩
        rw [← extended, child, List.append_assoc, List.singleton_append]
  · rintro (rfl | ⟨name, below⟩)
    · exact List.prefix_rfl
    · exact (List.prefix_append m.segments [name]).trans below

/-- The submodules of a module are the modules whose parent it is, named by their last segments. -/
theorem eq_child_iff {m other : ModulePath} {name : String} :
    other = m.child name ↔ other.parent? = some m ∧ other.last? = some name := by
  obtain ⟨segments⟩ := other
  rcases List.eq_nil_or_concat segments with rfl | ⟨front, last, rfl⟩
  · simp [child, parent?, isRoot]
  · obtain ⟨above⟩ := m
    simp [child, parent?, isRoot, last?]

/-- Every module but the root is a submodule. -/
theorem exists_eq_child {m : ModulePath} (below : m ≠ .root) :
    ∃ above name, m = child above name := by
  obtain ⟨segments⟩ := m
  rcases List.eq_nil_or_concat segments with rfl | ⟨front, last, rfl⟩
  · exact absurd rfl below
  · exact ⟨⟨front⟩, last, congrArg ModulePath.mk List.concat_eq_append⟩

end ModulePath

/-- The module that a route belongs to. -/
def Route.home (r : Route) : ModulePath := .ofRoutePath r.path

namespace ModulePlan

/-- The walk from the module `⟨above⟩` down through the segments `below` enters `name` as a
submodule of `m`. -/
def Links (above below : List String) (m : ModulePath) (name : String) : Prop :=
  above <+: m.segments ∧ (m.child name).segments <+: above ++ below

private theorem links_nil {above : List String} {m : ModulePath} {name : String} :
    ¬Links above [] m name := by
  intro linked
  obtain ⟨⟨rest, extended⟩, shorter⟩ := linked
  have bound := shorter.length_le
  rw [ModulePath.child, ← extended] at bound
  simp only [List.length_append, List.length_singleton, List.length_nil] at bound
  omega

/-- A walk links the first segment to the module where it starts, and then goes on below it. -/
theorem links_cons {above below : List String} {segment : String} {m : ModulePath} {name : String} :
    Links above (segment :: below) m name ↔
      (m = ⟨above⟩ ∧ name = segment) ∨ Links (above ++ [segment]) below m name := by
  obtain ⟨segments⟩ := m
  constructor
  · rintro ⟨⟨rest, rfl⟩, within⟩
    cases rest with
    | nil =>
        simp only [ModulePath.child, List.append_nil, List.prefix_append_right_inj] at within
        simp only [List.append_nil]
        exact Or.inl ⟨trivial, (List.cons_prefix_cons.mp within).1⟩
    | cons first rest =>
        simp only [ModulePath.child, List.append_assoc, List.cons_append,
          List.prefix_append_right_inj, List.cons_prefix_cons] at within
        obtain ⟨rfl, deeper⟩ := within
        refine Or.inr ⟨⟨rest, by simp⟩, ?_⟩
        simpa [ModulePath.child] using deeper
  · rintro (⟨same, rfl⟩ | ⟨under, within⟩)
    · cases same
      exact ⟨List.prefix_rfl, by simp [ModulePath.child]⟩
    · exact ⟨(List.prefix_append above [segment]).trans under, by simpa using within⟩

private theorem links_root {path m : ModulePath} {name : String} :
    Links [] path.segments m name ↔ (m.child name).Covers path :=
  and_iff_right List.nil_prefix

variable {plan : ModulePlan} {above below : List String} {m : ModulePath} {name : String}

/-- Linking a module enters the modules that it is linked to. -/
theorem mem_modules_link :
    m ∈ (link above below plan).modules ↔ m ∈ plan.modules ∨ ∃ name, Links above below m name := by
  induction below generalizing above with
  | nil => simp [link, links_nil]
  | cons segment below ih =>
      rw [link, mem_modules_update (keepsPath_addChild segment), ih]
      simp only [links_cons, exists_or, exists_and_left, exists_eq, and_true]
      exact or_left_comm

/-- Linking modules keeps the order of a plan. -/
theorem Ascending.link (ascending : plan.Ascending) : (link above below plan).Ascending := by
  induction below generalizing above with
  | nil => exact ascending
  | cons segment below ih => exact ih.update (keepsPath_addChild segment)

/-- One step of a walk enters a submodule in the unit where it starts and changes no other unit. -/
theorem Ascending.unitOf_link_cons (ascending : plan.Ascending) {segment : String} :
    (ModulePlan.link above (segment :: below) plan).unitOf m =
      if m = ⟨above⟩ then
        ((ModulePlan.link (above ++ [segment]) below plan).unitOf m).addChild segment
      else (ModulePlan.link (above ++ [segment]) below plan).unitOf m := by
  rw [ModulePlan.link, ascending.link.unitOf_update (keepsPath_addChild segment)]
  by_cases same : m = ⟨above⟩
  · rw [if_pos same, if_pos same, same]
  · rw [if_neg same, if_neg same]

/-- Linking a module leaves the routes of all modules as they are. -/
theorem Ascending.routes_link (ascending : plan.Ascending) :
    ((ModulePlan.link above below plan).unitOf m).routes = (plan.unitOf m).routes := by
  induction below generalizing above with
  | nil => rfl
  | cons segment below ih =>
      rw [ascending.unitOf_link_cons]
      by_cases same : m = ⟨above⟩
      · rw [if_pos same]
        exact ih
      · rw [if_neg same]
        exact ih

/-- Linking a module adds the names that it is linked by to those that were there. -/
theorem Ascending.mem_children_link (ascending : plan.Ascending) :
    name ∈ ((ModulePlan.link above below plan).unitOf m).children ↔
      name ∈ (plan.unitOf m).children ∨ Links above below m name := by
  induction below generalizing above with
  | nil => simp [ModulePlan.link, links_nil]
  | cons segment below ih =>
      rw [ascending.unitOf_link_cons, links_cons]
      by_cases same : m = ⟨above⟩
      · rw [if_pos same, ModuleUnit.addChild, ModuleUnit.mem_insertName, ih, and_iff_right same]
        exact or_left_comm
      · rw [if_neg same, ih]
        simp only [same, false_and, false_or]

private theorem Ascending.children_link (ascending : plan.Ascending)
    (names : (plan.unitOf m).children.Pairwise (· < ·)) :
    ((ModulePlan.link above below plan).unitOf m).children.Pairwise (· < ·) := by
  induction below generalizing above with
  | nil => exact names
  | cons segment below ih =>
      rw [ascending.unitOf_link_cons]
      by_cases same : m = ⟨above⟩
      · rw [if_pos same]
        exact ModuleUnit.insertName_pairwise ih
      · rw [if_neg same]
        exact ih

/-- What a plan knows of the routes it was made from: it has the modules that cover the module of a
route, each with its routes and with the submodules that cover the module of a route. -/
structure TreeOf (routes : List Route) (plan : ModulePlan) : Prop where
  ascending : plan.Ascending
  covered (m : ModulePath) : m ∈ plan.modules ↔ ∃ r ∈ routes, m.Covers r.home
  grouped (m : ModulePath) : (plan.unitOf m).routes = routes.filter (·.home = m)
  linked (m : ModulePath) (name : String) :
    name ∈ (plan.unitOf m).children ↔ ∃ r ∈ routes, (m.child name).Covers r.home
  named (m : ModulePath) : (plan.unitOf m).children.Pairwise (· < ·)

/-- The empty plan is that of no routes. -/
theorem TreeOf.nil : TreeOf [] [] where
  ascending := List.Pairwise.nil
  covered m := by simp [modules]
  grouped m := rfl
  linked m name := by simp [unitOf, ModuleUnit.bare]
  named m := List.Pairwise.nil

private theorem addRoute_eq (plan : ModulePlan) (r : Route) :
    plan.addRoute r = link [] r.home.segments (plan.update r.home (·.addRoute r)) :=
  rfl

/-- A plan with one more route is that of one more route. -/
theorem TreeOf.addRoute {routes : List Route} (tree : TreeOf routes plan) (r : Route) :
    TreeOf (routes ++ [r]) (plan.addRoute r) := by
  have keeps := keepsPath_addRoute r
  have entered : (plan.update r.home (·.addRoute r)).Ascending := tree.ascending.update keeps
  have lookup (m : ModulePath) : (plan.update r.home (·.addRoute r)).unitOf m =
      if m = r.home then (plan.unitOf r.home).addRoute r else plan.unitOf m :=
    tree.ascending.unitOf_update keeps m
  have sameChildren (m : ModulePath) :
      ((plan.update r.home (·.addRoute r)).unitOf m).children = (plan.unitOf m).children := by
    rw [lookup]
    by_cases same : m = r.home
    · rw [if_pos same, same]
      rfl
    · rw [if_neg same]
  constructor
  case ascending => exact entered.link
  case covered =>
    intro m
    rw [addRoute_eq, mem_modules_link, mem_modules_update keeps, tree.covered]
    simp only [links_root, List.mem_append, List.mem_singleton, or_and_right, exists_or,
      exists_eq_left]
    rw [ModulePath.covers_iff, or_assoc]
    exact or_left_comm
  case grouped =>
    intro m
    rw [addRoute_eq, entered.routes_link, lookup, List.filter_append]
    by_cases same : m = r.home
    · rw [if_pos same, ← same]
      simp [ModuleUnit.addRoute, tree.grouped, same]
    · rw [if_neg same, tree.grouped]
      simp [Ne.symm same]
  case linked =>
    intro m name
    rw [addRoute_eq, entered.mem_children_link, links_root, sameChildren, tree.linked]
    simp only [List.mem_append, List.mem_singleton, or_and_right, exists_or, exists_eq_left]
  case named =>
    intro m
    apply entered.children_link
    rw [sameChildren]
    exact tree.named m

/-- Every accepted route keeps what a plan knows of its routes. -/
theorem TreeOf.add {routes : List Route} {next : ModulePlan} {r : Route} (tree : TreeOf routes plan)
    (accepted : plan.add r = .ok next) : TreeOf (routes ++ [r]) next := by
  rw [ModulePlan.add] at accepted
  cases refused : plan.refusal? r with
  | some failure =>
      rw [refused] at accepted
      cases accepted
  | none =>
      rw [refused] at accepted
      cases accepted
      exact tree.addRoute r

/-- The plan of a list of routes is one of exactly these routes. -/
theorem treeOf_ofRoutes {routes : List Route} (planned : ofRoutes routes = .ok plan) :
    TreeOf routes plan :=
  Outcome.foldlM_invariant TreeOf TreeOf.nil
    (fun _ _ _ _ tree accepted => tree.add accepted) planned

/-- Routes grouped by their modules are all routes, in another order. -/
theorem perm_grouped {keys : List ModulePath} {routes : List Route} (distinct : keys.Nodup)
    (known : ∀ r ∈ routes, r.home ∈ keys) :
    (keys.flatMap fun m => routes.filter (·.home = m)).Perm routes := by
  induction keys generalizing routes with
  | nil =>
      have none : routes = [] :=
        List.eq_nil_iff_forall_not_mem.mpr fun r member => List.not_mem_nil (known r member)
      rw [none, List.flatMap_nil]
  | cons key keys ih =>
      obtain ⟨fresh, distinct⟩ := List.nodup_cons.mp distinct
      have others : (keys.flatMap fun m => routes.filter (·.home = m)) =
          keys.flatMap fun m => (routes.filter (¬·.home = key)).filter (·.home = m) := by
        refine List.flatMap_congr fun m member => ?_
        rw [List.filter_filter]
        refine List.filter_congr fun r _ => ?_
        have differs : m ≠ key := fun same => fresh (same ▸ member)
        by_cases home : r.home = m
        · simp [home, differs]
        · simp [home]
      rw [List.flatMap_cons, others]
      have known : ∀ r ∈ routes.filter (¬·.home = key), r.home ∈ keys := fun r member => by
        obtain ⟨present, away⟩ := List.mem_filter.mp member
        exact (List.mem_cons.mp (known r present)).resolve_left (of_decide_eq_true away)
      refine ((ih distinct known).append_left _).trans ?_
      simpa only [decide_not] using List.filter_append_perm (fun r : Route => r.home = key) routes

/-- The module tree of a list of routes, as it is seen from its plan. -/
structure IsModuleTree (routes : List Route) (plan : ModulePlan) : Prop where
  /-- The modules stand in strictly ascending order. -/
  ascending : plan.Pairwise fun a b => a.path < b.path
  /-- There are the modules of the routes and those above them, from the root on. -/
  modules (m : ModulePath) :
    (∃ u ∈ plan, u.path = m) ↔
      ∃ r ∈ routes, m.segments <+: (ModulePath.ofRoutePath r.path).segments
  empty_iff : plan = [] ↔ routes = []
  /-- A unit has the routes of its module in the order of the input. -/
  grouped : ∀ u ∈ plan, u.routes = routes.filter fun r => ModulePath.ofRoutePath r.path = u.path
  /-- A route is in one unit only, that of its module. -/
  placed : ∀ r ∈ routes, ∃ u ∈ plan, u.path = ModulePath.ofRoutePath r.path ∧
    ∀ v ∈ plan, r ∈ v.routes ↔ v = u
  /-- No route is lost and none is doubled. -/
  complete : (plan.flatMap (·.routes)).Perm routes
  /-- The submodules of a unit are the modules of the plan whose parent it is. -/
  children : ∀ u ∈ plan, ∀ name, name ∈ u.children ↔
    ∃ v ∈ plan, v.path.parent? = some u.path ∧ v.path.last? = some name
  /-- A unit lists each submodule once, in ascending order. -/
  ordered : ∀ u ∈ plan, u.children.Pairwise (· < ·)
  /-- Every module but the root is listed by its parent. -/
  listed : ∀ v ∈ plan, v.path ≠ .root →
    ∃ u ∈ plan, v.path.parent? = some u.path ∧ ∃ name ∈ u.children, v.path.last? = some name

section Tree

variable {routes : List Route} (tree : TreeOf routes plan)

include tree

namespace TreeOf

/-- A unit has the routes of its module, in their order. -/
theorem unit_routes {u : ModuleUnit} (member : u ∈ plan) :
    u.routes = routes.filter (·.home = u.path) := by
  rw [← tree.grouped, tree.ascending.unitOf_of_mem member]

/-- The submodules of a unit are modules of the plan. -/
theorem mem_children {u : ModuleUnit} (member : u ∈ plan) :
    name ∈ u.children ↔ u.path.child name ∈ plan.modules := by
  rw [tree.covered, ← tree.linked, tree.ascending.unitOf_of_mem member]

/-- The module of every route is planned. -/
theorem home_mem {r : Route} (member : r ∈ routes) : r.home ∈ plan.modules :=
  (tree.covered r.home).mpr ⟨r, member, List.prefix_rfl⟩

/-- The module above a module of the plan is one of the plan. -/
theorem mem_of_child (member : m.child name ∈ plan.modules) : m ∈ plan.modules := by
  obtain ⟨r, present, below⟩ := (tree.covered _).mp member
  exact (tree.covered m).mpr ⟨r, present, ModulePath.covers_iff.mpr (Or.inr ⟨name, below⟩)⟩

/-- A route is in the unit of its module and in no other. -/
theorem mem_routes {u : ModuleUnit} (member : u ∈ plan) {r : Route} :
    r ∈ u.routes ↔ r ∈ routes ∧ r.home = u.path := by
  rw [tree.unit_routes member, List.mem_filter, decide_eq_true_iff]

/-- There is a unit as soon as there is a route. -/
theorem eq_nil_iff : plan = [] ↔ routes = [] := by
  constructor
  · intro empty
    refine List.eq_nil_iff_forall_not_mem.mpr fun r member => ?_
    have home := tree.home_mem member
    rw [empty] at home
    exact List.not_mem_nil home
  · intro empty
    refine List.eq_nil_iff_forall_not_mem.mpr fun u member => ?_
    obtain ⟨r, present, _⟩ := (tree.covered u.path).mp (List.mem_map_of_mem member)
    rw [empty] at present
    exact List.not_mem_nil present

/-- The routes of all units are the routes. -/
theorem perm_routes : (plan.flatMap (·.routes)).Perm routes := by
  have byModule : plan.flatMap (·.routes) =
      plan.modules.flatMap fun m => routes.filter (·.home = m) := by
    rw [ModulePlan.modules, List.flatMap_map]
    exact List.flatMap_congr fun u member => tree.unit_routes member
  rw [byModule]
  exact perm_grouped tree.ascending.nodup_modules fun r member => tree.home_mem member

/-- What a plan knows of its routes makes it their module tree. -/
theorem isModuleTree : IsModuleTree routes plan where
  ascending := tree.ascending
  modules m := List.mem_map.symm.trans (tree.covered m)
  empty_iff := tree.eq_nil_iff
  grouped _ member := tree.unit_routes member
  placed r member := by
    obtain ⟨u, present, same⟩ := List.mem_map.mp (tree.home_mem member)
    refine ⟨u, present, same, fun v other => ?_⟩
    rw [tree.mem_routes other]
    constructor
    · rintro ⟨_, home⟩
      rw [← tree.ascending.unitOf_of_mem other, ← home, ← same,
        tree.ascending.unitOf_of_mem present]
    · rintro rfl
      exact ⟨member, same.symm⟩
  complete := tree.perm_routes
  children u member name := by
    rw [tree.mem_children member]
    refine List.mem_map.trans (exists_congr fun v => and_congr_right fun _ => ?_)
    exact ModulePath.eq_child_iff
  ordered u member := by
    have names := tree.named u.path
    rwa [tree.ascending.unitOf_of_mem member] at names
  listed v member below := by
    obtain ⟨above, name, isChild⟩ := ModulePath.exists_eq_child below
    have present : above.child name ∈ plan.modules := isChild ▸ List.mem_map_of_mem member
    obtain ⟨u, listing, rfl⟩ := List.mem_map.mp (tree.mem_of_child present)
    obtain ⟨isParent, isLast⟩ := ModulePath.eq_child_iff.mp isChild
    exact ⟨u, listing, isParent, name, (tree.mem_children listing).mpr present, isLast⟩

end TreeOf

end Tree

/-- **The module tree of accepted routes.** A plan has exactly the modules of its routes and those
above them, each with its own routes in their order and with exactly its submodules. -/
theorem isModuleTree_ofRoutes {routes : List Route} (planned : ofRoutes routes = .ok plan) :
    IsModuleTree routes plan :=
  (treeOf_ofRoutes planned).isModuleTree

/-- A module that is entered as one above another module before it gets a route of its own. -/
theorem isModuleTree_sales :
    ∃ plan, ofRoutes [.bare "list" .get "/shop/sales", .bare "open" .post "/shop"] = .ok plan ∧
      IsModuleTree [.bare "list" .get "/shop/sales", .bare "open" .post "/shop"] plan :=
  ⟨[⟨⟨[]⟩, [], ["shop"]⟩, ⟨⟨["shop"]⟩, [.bare "open" .post "/shop"], ["sales"]⟩,
     ⟨⟨["shop", "sales"]⟩, [.bare "list" .get "/shop/sales"], []⟩],
   by rfl, isModuleTree_ofRoutes (by rfl)⟩

end ModulePlan

end RouteClient
