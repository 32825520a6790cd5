import Mathlib.Data.List.Nodup
import RouteClient.Proofs.Module.Admission
import RouteClient.Proofs.Module.Assembly

/-!
# Names exported by module files

A module file exports its submodules, each under the identifier made from its directory, and its
routes. Routes of one module have distinct names, and a route that is called like a submodule is
refused. Two directories may give one identifier, however, and nothing refuses them:
`exportedNames_nodup_iff` says for which routes the names of every file are distinct.
-/

namespace RouteClient

/-- The names that the file of a module exports: those of its submodules, then those of its
routes. -/
def ModuleUnit.exportedNames (u : ModuleUnit) : List String :=
  u.reExports.map (·.name) ++ u.routes.map (·.name)

/-- Modules that stand side by side are exported under different names. -/
def SiblingsApart (routes : List Route) : Prop :=
  ∀ (m : ModulePath) (a b : String),
    (∃ r ∈ routes, (m.child a).Covers r.home) → (∃ r ∈ routes, (m.child b).Covers r.home) →
      Code.exportName a = Code.exportName b → a = b

section Units

variable {u : ModuleUnit} {routes : List Route} {plan : ModulePlan}
  (tree : ModulePlan.TreeOf routes plan)

include tree

/-- The names of a unit that is written are distinct when those of its submodules are: its routes
differ from each other since they have a plan, and from the submodules since the unit is written. -/
theorem ModuleUnit.exportedNames_nodup (admitted : ModulePlan.Admitted routes) (member : u ∈ plan)
    (separate : u.Separate) :
    u.exportedNames.Nodup ↔ (u.children.map Code.exportName).Nodup := by
  have names : u.reExports.map (·.name) = u.children.map Code.exportName := by
    rw [reExports, List.map_map]
    rfl
  rw [exportedNames, names]
  constructor
  · intro distinct
    exact (List.nodup_append'.mp distinct).1
  · intro children
    apply List.nodup_append'.mpr
    refine ⟨children, admitted.nodup_names tree member, ?_⟩
    intro name exported named
    obtain ⟨child, listed, rfl⟩ := List.mem_map.mp exported
    obtain ⟨r, present, same⟩ := List.mem_map.mp named
    exact separate r present child listed same

/-- Modules are apart when no unit exports two of its submodules under one name. -/
theorem siblingsApart_iff_nodup :
    SiblingsApart routes ↔ ∀ u ∈ plan, (u.children.map Code.exportName).Nodup := by
  constructor
  · intro apart u present
    have ascending := tree.named u.path
    rw [tree.ascending.unitOf_of_mem present] at ascending
    have distinct : u.children.Nodup := ascending.imp String.ne_of_lt
    apply distinct.map_on
    intro a first b second same
    apply apart u.path a b _ _ same
    · exact (tree.covered _).mp ((tree.mem_children present).mp first)
    · exact (tree.covered _).mp ((tree.mem_children present).mp second)
  · intro distinct m a b first second same
    have isModule : m.child a ∈ plan.modules := (tree.covered _).mpr first
    have isSibling : m.child b ∈ plan.modules := (tree.covered _).mpr second
    obtain ⟨u, present, rfl⟩ := List.mem_map.mp (tree.mem_of_child isModule)
    apply List.inj_on_of_nodup_map (distinct u present) _ _ same
    · exact (tree.mem_children present).mpr isModule
    · exact (tree.mem_children present).mpr isSibling

end Units

/-- **When exported names are distinct.** The names that each generated file exports are distinct
exactly when modules that stand side by side are exported under different names. -/
theorem exportedNames_nodup_iff {s : Settings} {routes : List Route} {files : SourceFiles}
    (made : generate s routes = .ok files) :
    (∀ file ∈ files.files, ∀ u, file.OfUnit s routes u → u.exportedNames.Nodup) ↔
      SiblingsApart routes := by
  obtain ⟨plan, planned, ready⟩ := exists_generate.mp ⟨files, made⟩
  have tree := ModulePlan.treeOf_ofRoutes planned
  have admitted := ModulePlan.admitted_ofRoutes planned
  rw [siblingsApart_iff_nodup tree]
  constructor
  · intro distinct u present
    obtain ⟨file, written⟩ := ModuleUnit.exists_file.mpr (ready u present)
    have ofUnit : file.OfUnit s routes u := ⟨⟨plan, planned, present⟩, written⟩
    have names := distinct file ((mem_files_iff made).mpr ⟨u, ofUnit⟩) u ofUnit
    exact (ModuleUnit.exportedNames_nodup tree admitted present (ready u present).1).mp names
  · intro distinct file _ u ofUnit
    have present := ofUnit.mem_plan planned
    apply (ModuleUnit.exportedNames_nodup tree admitted present (ready u present).1).mpr
    exact distinct u present

/-- Routes of two modules side by side, and one above them. -/
def Route.saleModules : List Route :=
  [.bare "list" .get "/sale-items", .bare "list" .get "/sale-tags", .bare "sales" .get "/"]

/-- No file of these modules exports a name twice. -/
theorem exportedNames_nodup_saleModules :
    ∃ files, generate {} Route.saleModules = .ok files ∧
      ∀ file ∈ files.files, ∀ u, file.OfUnit {} Route.saleModules u → u.exportedNames.Nodup := by
  have planned : ModulePlan.ofRoutes Route.saleModules =
      .ok [⟨⟨[]⟩, [.bare "sales" .get "/"], ["sale-items", "sale-tags"]⟩,
        ⟨⟨["sale-items"]⟩, [.bare "list" .get "/sale-items"], []⟩,
        ⟨⟨["sale-tags"]⟩, [.bare "list" .get "/sale-tags"], []⟩] := by rfl
  have tree := ModulePlan.treeOf_ofRoutes planned
  have texts : ∀ r ∈ Route.saleModules, ∃ text, r.unitText {} = .ok text := by
    simp only [Route.saleModules, List.forall_mem_cons]
    exact ⟨⟨_, by rfl⟩, ⟨_, by rfl⟩, ⟨_, by rfl⟩, by simp⟩
  obtain ⟨files, made⟩ : ∃ files, generate {} Route.saleModules = .ok files :=
    exists_generate.mpr ⟨_, planned, tree.ready_iff.mpr ⟨texts, by decide⟩⟩
  have apart : SiblingsApart Route.saleModules := (siblingsApart_iff_nodup tree).mpr (by decide)
  exact ⟨files, made, (exportedNames_nodup_iff made).mpr apart⟩

/-- Routes of two modules whose directories give one identifier. -/
def Route.saleItems : List Route :=
  [.bare "list" .get "/sale-items", .bare "list" .get "/sale_items"]

/-- The root of these modules. -/
def ModuleUnit.saleItems : ModuleUnit := ⟨.root, [], ["sale-items", "sale_items"]⟩

/-- The file of this root exports one name twice. -/
theorem exportedNames_not_nodup_saleItems :
    ∃ files, Settings.validate {} = .ok () ∧ generate {} Route.saleItems = .ok files ∧
      ∃ file ∈ files.files, ∃ u, file.OfUnit {} Route.saleItems u ∧
        u.exportedNames = ["saleItems", "saleItems"] := by
  have planned : ModulePlan.ofRoutes Route.saleItems =
      .ok [.saleItems, ⟨⟨["sale-items"]⟩, [.bare "list" .get "/sale-items"], []⟩,
        ⟨⟨["sale_items"]⟩, [.bare "list" .get "/sale_items"], []⟩] := by rfl
  have texts : ∀ r ∈ Route.saleItems, ∃ text, r.unitText {} = .ok text := by
    simp only [Route.saleItems, List.forall_mem_cons]
    exact ⟨⟨_, by rfl⟩, ⟨_, by rfl⟩, by simp⟩
  have ready := (ModulePlan.treeOf_ofRoutes planned).ready_iff.mpr ⟨texts, by decide⟩
  obtain ⟨files, made⟩ := exists_generate.mpr ⟨_, planned, ready⟩
  obtain ⟨file, written⟩ := ModuleUnit.exists_file.mpr (ready .saleItems List.mem_cons_self)
  have root : file.OfUnit {} Route.saleItems .saleItems :=
    ⟨⟨_, planned, List.mem_cons_self⟩, written⟩
  exact ⟨files, by rfl, made, file, (mem_files_iff made).mpr ⟨_, root⟩, .saleItems, root, by decide⟩

end RouteClient
