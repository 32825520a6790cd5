import RouteClient.Proofs.Module.Assembly
import RouteClient.Proofs.Module.Comparison

/-!
# One route more

Adding a route to a list, at any place, adds to the plan only modules that cover the module of the
route, and changes the units of its own module and of those above it that gain a submodule
(`ModulePlan.TreeOf.unitOf_eq_of_insert`). The files of all other modules stay as they are
(`generate_insert`).
-/

namespace RouteClient

/-- A module stands above another one when it covers it without being it. -/
def ModulePath.Above (m other : ModulePath) : Prop := m.Covers other ∧ m ≠ other

/-- How the files of some routes change when the routes become more by the route `r`. -/
structure SourceFiles.GrowBy (s : Settings) (r : Route) (routes more : List Route)
    (files : SourceFiles) (moreFiles : SourceFiles) : Prop where
  /-- Each file keeps its path and its module. It keeps its content as well, unless its module is
  that of the route, or one above it that gains a submodule. -/
  kept : ∀ file ∈ files.files, ∃ after ∈ moreFiles.files, after.path = file.path ∧
    ∃ u v, file.OfUnit s routes u ∧ after.OfUnit s more v ∧ v.path = u.path ∧
      (u.path = r.home ∨
        u.path.Above r.home ∧ (∃ name ∈ v.children, name ∉ u.children) ∨
        after.content = file.content)
  /-- A file at another path is that of a module which covers the module of the route. -/
  added : ∀ after ∈ moreFiles.files, (∀ file ∈ files.files, file.path ≠ after.path) →
    ∃ v, after.OfUnit s more v ∧ v.path.Covers r.home

variable {s : Settings} {a b : List Route} {r : Route} {m : ModulePath}

private theorem covers_insert : (∃ t ∈ a ++ [r] ++ b, m.Covers t.home) ↔
    (∃ t ∈ a ++ b, m.Covers t.home) ∨ m.Covers r.home := by
  simp only [List.mem_append, List.mem_singleton, or_and_right, exists_or, exists_eq_left]
  exact or_right_comm

private theorem sublist_insert (a b : List Route) (r : Route) : (a ++ b).Sublist (a ++ [r] ++ b) :=
  (List.sublist_append_left a [r]).append_right b

namespace ModulePlan

variable {part whole : ModulePlan} (tree : TreeOf (a ++ b) part)
  (grown : TreeOf (a ++ [r] ++ b) whole)

include tree grown

namespace TreeOf

/-- A route adds its own module and those above it. -/
theorem mem_modules_insert : m ∈ whole.modules ↔ m ∈ part.modules ∨ m.Covers r.home := by
  rw [grown.covered, tree.covered, covers_insert]

/-- A route adds to a module the submodule that leads to its own. -/
theorem mem_children_insert {name : String} : name ∈ (whole.unitOf m).children ↔
    name ∈ (part.unitOf m).children ∨ (m.child name).Covers r.home := by
  rw [grown.linked, tree.linked, covers_insert]

private theorem routes_subset_insert : (part.unitOf m).routes ⊆ (whole.unitOf m).routes := by
  rw [tree.grouped, grown.grouped]
  exact ((sublist_insert a b r).filter _).subset

/-- The unit of another module stays as it is, when it gains no submodule. -/
theorem unitOf_eq_of_insert (elsewhere : m ≠ r.home)
    (gainless : ∀ name ∈ (whole.unitOf m).children, name ∈ (part.unitOf m).children) :
    part.unitOf m = whole.unitOf m := by
  apply tree.unitOf_congr grown
  · have skipped : [r].filter (·.home = m) = [] := by simp [Ne.symm elsewhere]
    simp only [List.filter_append, skipped, List.append_nil]
  · intro name
    rw [← tree.linked, ← grown.linked]
    exact ⟨fun member => (tree.mem_children_insert grown).mpr (Or.inl member), gainless name⟩

/-- A module that gains a submodule covers the module of the route. -/
theorem covers_of_gain {name : String} (gained : name ∈ (whole.unitOf m).children)
    (missing : name ∉ (part.unitOf m).children) : m.Covers r.home := by
  rcases (tree.mem_children_insert grown).mp gained with old | new
  · exact absurd old missing
  · exact ModulePath.covers_iff.mpr (Or.inr ⟨name, new⟩)

/-- With one more route, a module is that of the route, or it stands above it and gains a submodule,
or its unit stays as it is. -/
theorem insert_cases {u v : ModuleUnit} (present : u ∈ part) (presentToo : v ∈ whole)
    (same : v.path = u.path) : u.path = r.home ∨
      u.path.Above r.home ∧ (∃ name ∈ v.children, name ∉ u.children) ∨ u = v := by
  have before : part.unitOf u.path = u := tree.ascending.unitOf_of_mem present
  have later : whole.unitOf u.path = v := by
    rw [← same]
    exact grown.ascending.unitOf_of_mem presentToo
  by_cases home : u.path = r.home
  · exact Or.inl home
  · by_cases gained : ∃ name ∈ v.children, name ∉ u.children
    · obtain ⟨name, listed, missing⟩ := gained
      have gains : name ∈ (whole.unitOf u.path).children := later.symm ▸ listed
      have lacks : name ∉ (part.unitOf u.path).children := by rwa [before]
      have above : u.path.Above r.home := ⟨tree.covers_of_gain grown gains lacks, home⟩
      exact Or.inr (Or.inl ⟨above, name, listed, missing⟩)
    · have equal : part.unitOf u.path = whole.unitOf u.path := by
        apply tree.unitOf_eq_of_insert grown home
        rw [before, later]
        intro name listed
        by_contra missing
        exact gained ⟨name, listed, missing⟩
      rw [before, later] at equal
      exact Or.inr (Or.inr equal)

/-- Units that can be written with one more route can be written without it. -/
theorem ready_of_insert (ready : ∀ v ∈ whole, v.Ready s) : ∀ u ∈ part, u.Ready s := by
  obtain ⟨texts, separate⟩ := grown.ready_iff.mp ready
  apply tree.ready_iff.mpr
  refine ⟨fun t member => texts t ((sublist_insert a b r).subset member), ?_⟩
  intro u present t member child listed
  have known : u.path ∈ whole.modules :=
    (tree.mem_modules_insert grown).mpr (Or.inl (List.mem_map_of_mem present))
  obtain ⟨v, presentToo, same⟩ := List.mem_map.mp known
  have unit : whole.unitOf u.path = v := by
    rw [← same]
    exact grown.ascending.unitOf_of_mem presentToo
  rw [← tree.ascending.unitOf_of_mem present] at member listed
  apply separate v presentToo t
  · exact unit ▸ tree.routes_subset_insert grown member
  · exact unit ▸ (tree.mem_children_insert grown).mpr (Or.inl listed)

end TreeOf

end ModulePlan

/-- **The effect of one route.** When files are generated for a list of routes, they are also
generated without any one of the routes. The route changes the file of its module and those of
modules above it that gain a submodule, it adds files of modules that cover its own, and it leaves
all other files as they are. -/
theorem generate_insert {files : SourceFiles} (made : generate s (a ++ [r] ++ b) = .ok files) :
    ∃ fewer, generate s (a ++ b) = .ok fewer ∧
      SourceFiles.GrowBy s r (a ++ b) (a ++ [r] ++ b) fewer files := by
  obtain ⟨whole, planned, ready⟩ := exists_generate.mp ⟨files, made⟩
  have grown := ModulePlan.treeOf_ofRoutes planned
  have admitted := (ModulePlan.admitted_ofRoutes planned).sublist (sublist_insert a b r)
  obtain ⟨part, plannedToo⟩ := admitted.exists_plan
  have tree := ModulePlan.treeOf_ofRoutes plannedToo
  obtain ⟨fewer, madeToo⟩ :=
    exists_generate.mpr ⟨part, plannedToo, tree.ready_of_insert grown ready⟩
  refine ⟨fewer, madeToo, ?_, ?_⟩
  · intro file member
    obtain ⟨u, ofUnit⟩ := (mem_files_iff madeToo).mp member
    have known : u.path ∈ whole.modules :=
      (tree.mem_modules_insert grown).mpr (Or.inl (ofUnit.mem_modules plannedToo))
    obtain ⟨after, v, ofAfter, same⟩ := exists_ofUnit made planned known
    have path : after.path = file.path := by
      rw [ofAfter.path_eq, ofUnit.path_eq, same]
    refine ⟨after, (mem_files_iff made).mpr ⟨v, ofAfter⟩, path, u, v, ofUnit, ofAfter, same, ?_⟩
    rcases tree.insert_cases grown (ofUnit.mem_plan plannedToo) (ofAfter.mem_plan planned) same with
      home | gains | rfl
    · exact Or.inl home
    · exact Or.inr (Or.inl gains)
    · have equal : file = after := Except.ok.inj (ofUnit.written.symm.trans ofAfter.written)
      exact Or.inr (Or.inr (congrArg _ equal.symm))
  · intro after member new
    obtain ⟨v, ofAfter⟩ := (mem_files_iff made).mp member
    refine ⟨v, ofAfter, ?_⟩
    rcases (tree.mem_modules_insert grown).mp (ofAfter.mem_modules planned) with old | covers
    · obtain ⟨file, u, ofUnit, same⟩ := exists_ofUnit madeToo plannedToo old
      have path : file.path = after.path := by
        rw [ofUnit.path_eq, ofAfter.path_eq, same]
      exact absurd path (new file ((mem_files_iff madeToo).mpr ⟨u, ofUnit⟩))
    · exact covers

/-- Routes of two modules, and between them one of the module `/shop/items`, which is new below the
first of them. -/
def Route.shop : List Route := [.bare "open" .get "/shop"]

/-- A route of a module two steps below the root. -/
def Route.shopItems : Route := .bare "list" .get "/shop/items"

/-- Routes of another module. -/
def Route.users : List Route := [.bare "find" .get "/users"]

/-- A route between others brings a file of its own, and its parent module gains a submodule. -/
theorem generate_insert_shopItems : ∃ files fewer,
    generate {} (Route.shop ++ [.shopItems] ++ Route.users) = .ok files ∧
      generate {} (Route.shop ++ Route.users) = .ok fewer ∧
        fewer.GrowBy {} .shopItems (Route.shop ++ Route.users)
          (Route.shop ++ [.shopItems] ++ Route.users) files := by
  have planned : ModulePlan.ofRoutes (Route.shop ++ [.shopItems] ++ Route.users) =
      .ok [⟨.root, [], ["shop", "users"]⟩, ⟨⟨["shop"]⟩, Route.shop, ["items"]⟩,
        ⟨⟨["shop", "items"]⟩, [.shopItems], []⟩, ⟨⟨["users"]⟩, Route.users, []⟩] := by rfl
  have texts : ∀ r ∈ Route.shop ++ [.shopItems] ++ Route.users,
      ∃ text, r.unitText {} = .ok text := by
    simp only [Route.shop, Route.users, List.cons_append, List.nil_append, List.forall_mem_cons]
    exact ⟨⟨_, by rfl⟩, ⟨_, by rfl⟩, ⟨_, by rfl⟩, by simp⟩
  obtain ⟨files, made⟩ := exists_generate_of_texts planned texts (by decide)
  obtain ⟨fewer, madeToo, grows⟩ := generate_insert made
  exact ⟨files, fewer, made, madeToo, grows⟩

end RouteClient
