import Mathlib.Data.List.Induction
import Mathlib.Logic.Relation
import RouteClient.Proofs.Json.Writing
import RouteClient.Proofs.Module.Admission
import RouteClient.Proofs.Module.Assembly
import RouteClient.Proofs.Module.FilePaths

/-!
# Following re-exports

A re-export names its submodule by a relative specifier. The target language looks for a file of
that name first, and then for the index file of a directory of that name. Each re-export is meant to
lead to the file of its submodule, and all files are meant to be reached in this way from that of
the root. A submodule called `index` defeats this, since the file that re-exports it is itself
called so; `reExports_lead_iff` says that nothing else does.
-/

namespace RouteClient

/-- What the string literal of a re-export denotes. -/
def ReExport.specifier (e : ReExport) : String := "./" ++ e.child

namespace PathText

/-- The part of a path in front of its last slash. -/
def directory (path : String) : String := "/".intercalate (parts path).dropLast

/-- The directory of a path has all parts but the last. -/
theorem parts_directory {path name : String} {above : List String}
    (split : parts path = above ++ [name]) (inside : above ≠ []) :
    parts (directory path) = above := by
  have plain : ∀ part ∈ above, '/' ∉ part.toList := by
    intro part member
    have listed : part ∈ parts path := split ▸ List.mem_append_left [name] member
    exact slash_not_mem_parts listed
  rw [directory, split, List.dropLast_concat, parts_intercalate inside plain]

end PathText

namespace SourceFiles

/-- The file that a relative specifier leads to, when it stands in the file at `importer`. -/
def resolve? (files : SourceFiles) (importer specifier : String) : Option SourceFile :=
  match specifier.toList with
  | '.' :: '/' :: name =>
    let base := PathText.directory importer ++ "/" ++ String.ofList name
    (files.find? (base ++ ".ts")).or (files.find? (base ++ "/index.ts"))
  | _ => none

/-- A re-export in the file `importer` leads to the file `target`. -/
def Leads (s : Settings) (routes : List Route) (files : SourceFiles)
    (importer target : SourceFile) : Prop :=
  ∃ u, importer.OfUnit s routes u ∧
    ∃ e ∈ u.reExports, files.resolve? importer.path e.specifier = some target

/-- Each re-export leads to the file of its submodule. -/
def ReExportsLead (s : Settings) (routes : List Route) (files : SourceFiles) : Prop :=
  ∀ file ∈ files.files, ∀ u, file.OfUnit s routes u → ∀ e ∈ u.reExports,
    ∃ target ∈ files.files, files.resolve? file.path e.specifier = some target ∧
      ∃ v, target.OfUnit s routes v ∧ v.path = u.path.child e.child

/-- Every file is reached from that of the root by following re-exports. -/
def AllReached (s : Settings) (routes : List Route) (files : SourceFiles) : Prop :=
  ∃ root ∈ files.files, root.path = ModulePath.root.filePath s ∧
    ∀ file ∈ files.files, Relation.ReflTransGen (Leads s routes files) root file

end SourceFiles

section Specifiers

/-- A character that a directory name may hold is not escaped in a string. -/
theorem plain_of_allowed {c : Char} (allowed : ModulePath.isForbidden c = false) :
    c ≠ '\x22' ∧ c ≠ '\\' ∧ 32 ≤ c.toNat := by
  simp only [ModulePath.isForbidden, Bool.or_eq_false_iff, decide_eq_false_iff_not] at allowed
  obtain ⟨⟨⟨⟨noQuote, _⟩, _⟩, noSlash⟩, noControl⟩ := allowed
  refine ⟨noQuote, noSlash, ?_⟩
  by_contra control
  simp [Text.isControl, Nat.lt_of_not_le control] at noControl

/-- A re-export of a directory is written with its specifier as it is, between quotes. -/
theorem ReExport.text_of_directory {e : ReExport}
    (directory : ModulePath.isDirectorySegment e.child = true) :
    e.text = "export * as " ++ e.name ++ " from \x22./" ++ e.child ++ "\x22;" := by
  simp only [ModulePath.isDirectorySegment, Bool.and_eq_true, List.all_eq_true] at directory
  have opening : Json.IsUnescaped "./" := by decide
  have unescaped : Json.IsUnescaped e.specifier := by
    intro c member
    rw [ReExport.specifier, String.toList_append] at member
    rcases List.mem_append.mp member with inOpening | inName
    · exact opening c inOpening
    · apply plain_of_allowed
      simpa using directory.2 c inName
  rw [ReExport.text, ← ReExport.specifier, Json.quote_of_isUnescaped unescaped, ReExport.specifier]
  apply String.toList_injective
  simp

end Specifiers

section Files

variable {s : Settings} {routes : List Route} {files : SourceFiles} {plan : ModulePlan}
  {file other : SourceFile} {u v : ModuleUnit}

private theorem SourceFile.OfUnit.contains (ofUnit : file.OfUnit s routes u) {e : ReExport}
    (member : e ∈ u.reExports) : file.Contains e.text := by
  obtain ⟨text, _, rfl⟩ := ModuleUnit.eq_assembled_of_file ofUnit.written
  exact ModuleUnit.contains_reExport member

/-- A module has one file. -/
theorem SourceFile.OfUnit.unique (planned : ModulePlan.ofRoutes routes = .ok plan)
    (ofUnit : file.OfUnit s routes u) (ofOther : other.OfUnit s routes v) (same : u.path = v.path) :
    file = other := by
  have ascending := (ModulePlan.treeOf_ofRoutes planned).ascending
  have unit : u = v := by
    rw [← ascending.unitOf_of_mem (ofUnit.mem_plan planned), same,
      ascending.unitOf_of_mem (ofOther.mem_plan planned)]
  have written := ofUnit.written
  rw [unit, ofOther.written] at written
  exact (Except.ok.inj written).symm

/-- A file that is found at a path is that of a module with this path. -/
theorem ofUnit_of_find? (made : generate s routes = .ok files) {path : String}
    (found : files.find? path = some file) :
    ∃ u, file.OfUnit s routes u ∧ u.path.filePath s = path := by
  rw [SourceFiles.find?] at found
  obtain ⟨u, ofUnit⟩ := (mem_files_iff made).mp (List.mem_of_find?_eq_some found)
  refine ⟨u, ofUnit, ?_⟩
  rw [← ofUnit.path_eq]
  have same := List.find?_some found
  exact of_decide_eq_true same

/-- The file of a module is found by its path. -/
theorem find?_filePath (made : generate s routes = .ok files) (ofUnit : file.OfUnit s routes u) :
    files.find? (u.path.filePath s) = some file := by
  have member := (mem_files_iff made).mpr ⟨u, ofUnit⟩
  cases found : files.find? (u.path.filePath s) with
  | none =>
      have differs := List.find?_eq_none.mp found file member
      exact absurd (decide_eq_true ofUnit.path_eq) differs
  | some other =>
      obtain ⟨plan, planned, _⟩ := ofUnit.planned
      have tree := ModulePlan.treeOf_ofRoutes planned
      obtain ⟨v, ofOther, path⟩ := ofUnit_of_find? made found
      have same : v.path = u.path := by
        apply ModulePath.filePath_inj _ _ path
        · exact tree.segmented (ofOther.mem_modules planned)
        · exact tree.segmented (ofUnit.mem_modules planned)
      rw [SourceFile.OfUnit.unique planned ofOther ofUnit same]

/-- A specifier leads to a file beside the importing one, or else to the file of the submodule. -/
theorem resolve?_specifier (files : SourceFiles) {m : ModulePath} {name : String}
    (segmented : m.Segmented) (plain : '/' ∉ name.toList) :
    ∃ beside, PathText.parts beside =
        PathText.parts s.functionalDir ++ (m.segments ++ [name ++ ".ts"]) ∧
      files.resolve? (m.filePath s) ("./" ++ name) =
        (files.find? beside).or (files.find? ((m.child name).filePath s)) := by
  have inside : PathText.parts (PathText.directory (m.filePath s)) =
      PathText.parts s.functionalDir ++ m.segments := by
    have split := ModulePath.parts_filePath (s := s) segmented
    rw [← List.append_assoc] at split
    exact PathText.parts_directory split
      (List.append_ne_nil_of_left_ne_nil (PathText.parts_ne_nil _) _)
  have fileName : '/' ∉ (name ++ ".ts").toList := by
    rw [String.toList_append, List.mem_append, not_or]
    exact ⟨plain, by decide⟩
  have index : PathText.directory (m.filePath s) ++ "/" ++ name ++ "/index.ts" =
      (m.child name).filePath s := by
    apply PathText.parts_inj
    rw [ModulePath.parts_filePath (segmented.child plain), PathText.parts_index,
      PathText.parts_slash, inside, PathText.parts_of_not_mem plain, ModulePath.child]
    simp only [List.append_assoc]
  refine ⟨PathText.directory (m.filePath s) ++ "/" ++ name ++ ".ts", ?_, ?_⟩
  · rw [String.append_assoc, PathText.parts_slash, inside, PathText.parts_of_not_mem fileName,
      List.append_assoc]
  · have chars : ("./" ++ name).toList = '.' :: '/' :: name.toList := by
      rw [String.toList_append]
      rfl
    rw [SourceFiles.resolve?, chars]
    simp only [String.ofList_toList]
    rw [index]

/-- A re-export leads to the file of its submodule, unless the submodule is called `index`. -/
theorem resolve?_reExport (made : generate s routes = .ok files) (ofUnit : file.OfUnit s routes u)
    {e : ReExport} (member : e ∈ u.reExports) (apart : e.child ≠ "index") :
    ∃ target v, target.OfUnit s routes v ∧ v.path = u.path.child e.child ∧
      files.resolve? file.path e.specifier = some target := by
  obtain ⟨plan, planned, _⟩ := exists_generate.mp ⟨files, made⟩
  have tree := ModulePlan.treeOf_ofRoutes planned
  obtain ⟨child, listed, rfl⟩ := List.mem_map.mp member
  have isModule : u.path.child child ∈ plan.modules :=
    (tree.mem_children (ofUnit.mem_plan planned)).mp listed
  obtain ⟨target, v, ofTarget, path⟩ := exists_ofUnit made planned isModule
  have segmented : u.path.Segmented := tree.segmented (ofUnit.mem_modules planned)
  have plain : '/' ∉ child.toList :=
    tree.segmented isModule child (List.mem_append_right _ (List.mem_singleton_self child))
  obtain ⟨beside, parts, resolved⟩ := resolve?_specifier (s := s) files segmented plain
  refine ⟨target, v, ofTarget, path, ?_⟩
  have absent : files.find? beside = none := by
    cases found : files.find? beside with
    | none => rfl
    | some other =>
        -- All files are index files, so that a file beside this one is called `index`.
        obtain ⟨w, ofOther, same⟩ := ofUnit_of_find? made found
        have otherParts := congrArg PathText.parts same
        rw [ModulePath.parts_filePath (tree.segmented (ofOther.mem_modules planned)), parts,
          List.append_cancel_left_eq] at otherParts
        have fileName := (List.append_inj' otherParts rfl).2
        have name : "index" ++ ".ts" = child ++ ".ts" := (List.cons.inj fileName).1
        exact absurd (String.append_left_inj _ |>.mp name).symm apart
  rw [ofUnit.path_eq, ReExport.specifier, resolved, absent, ← path, Option.none_or]
  exact find?_filePath made ofTarget

/-- A submodule called `index` is taken for the file that re-exports it. -/
theorem resolve?_index (made : generate s routes = .ok files) (ofUnit : file.OfUnit s routes u) :
    files.resolve? file.path "./index" = some file := by
  obtain ⟨plan, planned, _⟩ := ofUnit.planned
  have tree := ModulePlan.treeOf_ofRoutes planned
  have segmented : u.path.Segmented := tree.segmented (ofUnit.mem_modules planned)
  have plain : '/' ∉ "index".toList := by decide
  obtain ⟨beside, parts, resolved⟩ := resolve?_specifier (s := s) files segmented plain
  have itself : beside = u.path.filePath s := by
    apply PathText.parts_inj
    rw [parts, ModulePath.parts_filePath segmented]
    rfl
  rw [itself, find?_filePath made ofUnit, Option.some_or, ← ofUnit.path_eq] at resolved
  exact resolved

/-- A submodule that is called like the file of its module is not reached. -/
theorem not_lead_of_index (made : generate s routes = .ok files) (ofUnit : file.OfUnit s routes u)
    (listed : "index" ∈ u.children) : ¬files.ReExportsLead s routes := by
  intro lead
  obtain ⟨plan, planned, _⟩ := ofUnit.planned
  have tree := ModulePlan.treeOf_ofRoutes planned
  obtain ⟨target, _, leads, v, ofTarget, isChild⟩ :=
    lead file ((mem_files_iff made).mpr ⟨u, ofUnit⟩)
    u ofUnit ⟨Code.exportName "index", "index"⟩ (List.mem_map_of_mem listed)
  have itself : file = target := Option.some.inj ((resolve?_index made ofUnit).symm.trans leads)
  have samePath : u.path.filePath s = v.path.filePath s := by
    rw [← ofUnit.path_eq, itself, ofTarget.path_eq]
  have same := ModulePath.filePath_inj (tree.segmented (ofUnit.mem_modules planned))
    (tree.segmented (ofTarget.mem_modules planned)) samePath
  have longer := congrArg (·.segments.length) (same.trans isChild)
  simp [ModulePath.child] at longer

/-- Where each re-export leads to its submodule, every file is reached. -/
theorem allReached_of_lead (made : generate s routes = .ok files) (nonempty : routes ≠ [])
    (lead : files.ReExportsLead s routes) : files.AllReached s routes := by
  obtain ⟨plan, planned, _⟩ := exists_generate.mp ⟨files, made⟩
  have tree := ModulePlan.treeOf_ofRoutes planned
  have rootModule : ModulePath.root ∈ plan.modules := by
    obtain ⟨r, rest, rfl⟩ := List.exists_cons_of_ne_nil nonempty
    exact (tree.covered _).mpr ⟨r, List.mem_cons_self, List.nil_prefix⟩
  obtain ⟨root, top, ofRoot, isTop⟩ := exists_ofUnit made planned rootModule
  refine ⟨root, (mem_files_iff made).mpr ⟨top, ofRoot⟩, isTop ▸ ofRoot.path_eq, ?_⟩
  -- By induction on the segments of a module: its parent is reached and re-exports it.
  suffices reached : ∀ (segments : List String) (file : SourceFile) (u : ModuleUnit),
      file.OfUnit s routes u → u.path = ⟨segments⟩ →
        Relation.ReflTransGen (SourceFiles.Leads s routes files) root file by
    intro file member
    obtain ⟨u, ofUnit⟩ := (mem_files_iff made).mp member
    exact reached u.path.segments file u ofUnit rfl
  intro segments
  induction segments using List.reverseRecOn with
  | nil =>
      intro file u ofUnit path
      have same : file = root :=
        SourceFile.OfUnit.unique planned ofUnit ofRoot (path.trans isTop.symm)
      rw [same]
  | append_singleton above name ih =>
      intro file u ofUnit path
      have isModule : (⟨above⟩ : ModulePath).child name ∈ plan.modules := by
        have member := ofUnit.mem_modules planned
        rw [path] at member
        exact member
      obtain ⟨importer, v, ofImporter, parent⟩ :=
        exists_ofUnit made planned (tree.mem_of_child isModule)
      have listed : name ∈ v.children := by
        rw [tree.mem_children (ofImporter.mem_plan planned), parent]
        exact isModule
      have exported : (⟨Code.exportName name, name⟩ : ReExport) ∈ v.reExports :=
        List.mem_map_of_mem listed
      obtain ⟨target, _, leads, w, ofTarget, isChild⟩ :=
        lead importer ((mem_files_iff made).mpr ⟨v, ofImporter⟩) v ofImporter _ exported
      have same : target = file := by
        apply SourceFile.OfUnit.unique planned ofTarget ofUnit
        rw [isChild, path, parent]
        rfl
      exact (ih importer v ofImporter parent).tail ⟨v, ofImporter, _, exported, same ▸ leads⟩

end Files

/-- **Where re-exports lead.** A generated file holds a line for each of its re-exports. Each of
them leads to the file of its submodule, and all files are reached from that of the root, exactly
when no segment of a module is `index`. -/
theorem reExports_lead_iff {s : Settings} {routes : List Route} {files : SourceFiles}
    (made : generate s routes = .ok files) (nonempty : routes ≠ []) :
    (∀ file ∈ files.files, ∀ u, file.OfUnit s routes u → ∀ e ∈ u.reExports,
      file.Contains ("export * as " ++ e.name ++ " from \x22./" ++ e.child ++ "\x22;")) ∧
    ((files.ReExportsLead s routes ∧ files.AllReached s routes) ↔
      ∀ r ∈ routes, "index" ∉ r.home.segments) := by
  obtain ⟨plan, planned, _⟩ := exists_generate.mp ⟨files, made⟩
  have tree := ModulePlan.treeOf_ofRoutes planned
  have admitted := ModulePlan.admitted_ofRoutes planned
  have isModule {file : SourceFile} {u : ModuleUnit} (ofUnit : file.OfUnit s routes u)
      {e : ReExport} (exported : e ∈ u.reExports) : u.path.child e.child ∈ plan.modules := by
    obtain ⟨child, listed, rfl⟩ := List.mem_map.mp exported
    exact (tree.mem_children (ofUnit.mem_plan planned)).mp listed
  have isLast (m : ModulePath) (name : String) : name ∈ (m.child name).segments :=
    List.mem_append_right _ (List.mem_singleton_self name)
  refine ⟨?_, ?_, ?_⟩
  · intro file _ u ofUnit e exported
    have directory := admitted.directory_of_mem tree (isModule ofUnit exported) (isLast _ _)
    rw [← ReExport.text_of_directory directory]
    exact ofUnit.contains exported
  · rintro ⟨lead, _⟩ r present isSegment
    obtain ⟨above, below, split⟩ := List.append_of_mem isSegment
    have covers : ((⟨above⟩ : ModulePath).child "index").Covers r.home :=
      ⟨below, by rw [split, ModulePath.child, List.append_assoc, List.singleton_append]⟩
    have indexModule := (tree.covered _).mpr ⟨r, present, covers⟩
    obtain ⟨file, u, ofUnit, path⟩ := exists_ofUnit made planned (tree.mem_of_child indexModule)
    have listed : "index" ∈ u.children := by
      rw [tree.mem_children (ofUnit.mem_plan planned), path]
      exact indexModule
    exact not_lead_of_index made ofUnit listed lead
  · intro apart
    have lead : files.ReExportsLead s routes := by
      intro file _ u ofUnit e exported
      have named : e.child ≠ "index" := by
        intro isIndex
        obtain ⟨r, present, covers⟩ := (tree.covered _).mp (isModule ofUnit exported)
        exact apart r present (covers.subset (isIndex ▸ isLast u.path e.child))
      obtain ⟨target, v, ofTarget, path, leads⟩ := resolve?_reExport made ofUnit exported named
      exact ⟨target, (mem_files_iff made).mpr ⟨v, ofTarget⟩, leads, v, ofTarget, path⟩
    exact ⟨lead, allReached_of_lead made nonempty lead⟩

/-- Routes of the root and of a module two steps below it. -/
def Route.shopSales : List Route :=
  [.bare "list" .get "/shop/sale-items", .bare "health" .get "/"]

/-- Modules in one another, each reached from the file of the root. -/
theorem reExports_lead_shopSales : ∃ files, generate {} Route.shopSales = .ok files ∧
    Route.shopSales ≠ [] ∧ files.ReExportsLead {} Route.shopSales ∧
      files.AllReached {} Route.shopSales := by
  have planned : ModulePlan.ofRoutes Route.shopSales =
      .ok [⟨.root, [.bare "health" .get "/"], ["shop"]⟩, ⟨⟨["shop"]⟩, [], ["sale-items"]⟩,
        ⟨⟨["shop", "sale-items"]⟩, [.bare "list" .get "/shop/sale-items"], []⟩] := by rfl
  have texts : ∀ r ∈ Route.shopSales, ∃ text, r.unitText {} = .ok text := by
    simp only [Route.shopSales, List.forall_mem_cons]
    exact ⟨⟨_, by rfl⟩, ⟨_, by rfl⟩, by simp⟩
  have ready := (ModulePlan.treeOf_ofRoutes planned).ready_iff.mpr ⟨texts, by decide⟩
  obtain ⟨files, made⟩ := exists_generate.mpr ⟨_, planned, ready⟩
  have nonempty : Route.shopSales ≠ [] := List.cons_ne_nil _ _
  exact ⟨files, made, nonempty, (reExports_lead_iff made nonempty).2.mpr (by decide)⟩

/-- A route of a module called `index`. -/
def Route.index : List Route := [.bare "open" .get "/index"]

/-- The root of this module. -/
def ModuleUnit.aboveIndex : ModuleUnit := ⟨.root, [], ["index"]⟩

/-- The re-export of a module called `index` leads back to the file that it stands in. -/
theorem reExport_leads_back : ∃ files, Settings.validate {} = .ok () ∧
    generate {} Route.index = .ok files ∧ ∃ file ∈ files.files,
      file.OfUnit {} Route.index .aboveIndex ∧
      ModuleUnit.aboveIndex.reExports = [⟨"index", "index"⟩] ∧
      files.resolve? file.path "./index" = some file ∧
      ¬files.ReExportsLead {} Route.index := by
  have planned : ModulePlan.ofRoutes Route.index =
      .ok [.aboveIndex, ⟨⟨["index"]⟩, [.bare "open" .get "/index"], []⟩] := by rfl
  have texts : ∀ r ∈ Route.index, ∃ text, r.unitText {} = .ok text := by
    simp only [Route.index, List.forall_mem_cons]
    exact ⟨⟨_, by rfl⟩, by simp⟩
  have ready := (ModulePlan.treeOf_ofRoutes planned).ready_iff.mpr ⟨texts, by decide⟩
  obtain ⟨files, made⟩ := exists_generate.mpr ⟨_, planned, ready⟩
  obtain ⟨file, written⟩ := ModuleUnit.exists_file.mpr (ready .aboveIndex List.mem_cons_self)
  have ofUnit : file.OfUnit {} Route.index .aboveIndex :=
    ⟨⟨_, planned, List.mem_cons_self⟩, written⟩
  exact ⟨files, by rfl, made, file, (mem_files_iff made).mpr ⟨_, ofUnit⟩, ofUnit, by decide,
    resolve?_index made ofUnit, not_lead_of_index made ofUnit (by decide)⟩

end RouteClient
