import RouteClient.Module.File
import RouteClient.Proofs.Module.Tree
import RouteClient.Proofs.Text.ByteOrder

/-!
# Module files as assembled sections

A module file is a header, the sections of its unit and a footer, joined without a change to any
section (`ModuleUnit.fill_moduleTemplate`). The file of a unit fails with the first route that is
called like a submodule, and otherwise with the first route that has no text (`ModuleUnit.Fails`);
`generate_assembles` puts this together for all units of a plan.
-/

namespace RouteClient

open Outcome (bind_eq_ok bind_eq_error FailsFirst)

/-- Lines as a file holds them, each ended by a line feed. -/
def fileLines (lines : List String) : String := String.join (lines.map (· ++ "\n"))

/-- No lines are the empty text. -/
theorem fileLines_nil : fileLines [] = "" := by
  rw [fileLines, List.map_nil, String.join_nil]

/-- The first line comes with its line feed in front of the others. -/
theorem fileLines_cons (line : String) (lines : List String) :
    fileLines (line :: lines) = line ++ "\n" ++ fileLines lines := by
  simp only [fileLines, List.map_cons, String.join_cons]

/-- Lines behind other lines follow them in the text. -/
theorem fileLines_append (front back : List String) :
    fileLines (front ++ back) = fileLines front ++ fileLines back := by
  simp only [fileLines, List.map_append, String.join_append]

namespace ModuleUnit

/-- An import of a module file, from a directory below the base of its imports. -/
def importLine (u : ModuleUnit) (opening name directory : String) : String :=
  opening ++ name ++ " \x7d from \x22" ++ u.path.importBase ++ directory ++ name ++ "\x22;"

/-- The lines of a module file in front of its sections. -/
def headerLines (u : ModuleUnit) (s : Settings) : List String :=
  ["/**",
   " * @packageDocumentation",
   " * @module " ++ u.path.dotted s.moduleName,
   " */",
   "//================================================================",
   u.importLine "import \x7b " s.encryptor "__internal/",
   u.importLine "import \x7b " s.fetcher "__internal/",
   u.importLine "import \x7b " s.primitive "",
   u.importLine "import type \x7b " s.connectionType "",
   ""]

/-- The lines of a module file behind its sections. -/
def footerLines (s : Settings) : List String :=
  ["",
   "//---------------------------------------------------------",
   "// TO PREVENT THE UNUSED VARIABLE ERROR",
   "//---------------------------------------------------------",
   s.encryptor ++ ";",
   s.fetcher ++ ";",
   s.primitive ++ ";"]

/-- The template of module files puts the sections between a header and a footer that do not depend
on them. -/
theorem fill_moduleTemplate (u : ModuleUnit) (s : Settings) (sections : List String) :
    Template.fill moduleTemplate (u.templateText s sections) =
      fileLines (u.headerLines s) ++ sectionBreak.intercalate sections ++ "\n" ++
        fileLines (footerLines s) := by
  simp only [Template.fill, moduleTemplate, fileLines, headerLines, footerLines, importLine,
    List.map_cons, List.map_nil, Template.partText, templateText, String.join, List.foldl_cons,
    List.foldl_nil, String.append_assoc, String.empty_append]

/-- No route of a unit is called like the re-export of a submodule. -/
def Separate (u : ModuleUnit) : Prop :=
  ∀ r ∈ u.routes, ∀ child ∈ u.children, r.name ≠ Code.exportName child

/-- Whether the names of a module are apart can be decided. -/
instance (u : ModuleUnit) : Decidable u.Separate :=
  inferInstanceAs (Decidable (∀ r ∈ u.routes, ∀ child ∈ u.children, r.name ≠ Code.exportName child))

/-- A unit that can be written: its names are separate, and each of its routes has a text. -/
def Ready (u : ModuleUnit) (s : Settings) : Prop :=
  u.Separate ∧ ∀ r ∈ u.routes, ∃ text, r.unitText s = .ok text

/-- The failure of a unit. It is that of the first route that is called like the re-export of a
submodule. Only when there is none, it is that of the first route that has no text. -/
def Fails (u : ModuleUnit) (s : Settings) (failure : Failure) : Prop :=
  (∃ before r after, u.routes = before ++ r :: after ∧
    (∀ earlier ∈ before, ∀ child ∈ u.children, earlier.name ≠ Code.exportName child) ∧
    (∃ child ∈ u.children, r.name = Code.exportName child) ∧
    failure = .invalidRoute r.name (.submoduleName u.path.text)) ∨
  u.Separate ∧ FailsFirst (Route.unitText s) u.routes failure

/-- The sections of a unit whose routes have the given texts: the re-exports of its submodules, if
it has any, then the text of each route as it is. -/
def sectionTexts (u : ModuleUnit) (text : Route → String) : List String :=
  (if u.children = [] then []
    else ["\n".intercalate (u.children.map fun child =>
      "export * as " ++ Code.exportName child ++ " from " ++ Json.quote ("./" ++ child) ++ ";")]) ++
  u.routes.map text

/-- The file of a unit whose routes have the given texts. -/
def assembled (u : ModuleUnit) (s : Settings) (text : Route → String) : SourceFile where
  path := u.path.filePath s
  content :=
    fileLines (u.headerLines s) ++ sectionBreak.intercalate (u.sectionTexts text) ++ "\n" ++
    fileLines (footerLines s)

variable {u : ModuleUnit} {s : Settings} {r : Route}

private theorem any_reExports {name : String} :
    u.reExports.any (·.name = name) = true ↔
      ∃ child ∈ u.children, name = Code.exportName child := by
  simp only [reExports, List.any_map, List.any_eq_true, Function.comp_apply, decide_eq_true_eq]
  exact exists_congr fun child => and_congr_right fun _ => eq_comm

/-- No name collides when routes and submodules are exported under names of their own. -/
theorem collision?_eq_none : u.collision? = none ↔ u.Separate := by
  rw [collision?, List.find?_eq_none]
  refine forall₂_congr fun r _ => ?_
  rw [any_reExports]
  exact ⟨fun none child member same => none ⟨child, member, same⟩,
    fun separate ⟨child, member, same⟩ => separate child member same⟩

/-- The collision that is found is that of the first route called like a re-export. -/
theorem collision?_eq_some : u.collision? = some r ↔
    ∃ before after, u.routes = before ++ r :: after ∧
      (∀ earlier ∈ before, ∀ child ∈ u.children, earlier.name ≠ Code.exportName child) ∧
      ∃ child ∈ u.children, r.name = Code.exportName child := by
  rw [collision?, List.find?_eq_some_iff_append, any_reExports]
  constructor
  · rintro ⟨called, before, after, split, passed⟩
    refine ⟨before, after, split, fun earlier member child listed same => ?_, called⟩
    have found := any_reExports.mpr ⟨child, listed, same⟩
    have missed := passed earlier member
    rw [found] at missed
    cases missed
  · rintro ⟨before, after, split, separate, called⟩
    refine ⟨called, before, after, split, fun earlier member => ?_⟩
    cases found : u.reExports.any (·.name = earlier.name) with
    | false => rfl
    | true =>
        obtain ⟨child, listed, same⟩ := any_reExports.mp found
        exact absurd same (separate earlier member child listed)

/-- The file of a unit, when its names are separate. -/
theorem file_of_separate (separate : u.Separate) : u.file s =
    u.routes.mapM (Route.unitText s) >>= fun texts =>
      .ok ⟨u.path.filePath s,
        Template.fill moduleTemplate (u.templateText s (u.reExportSection ++ texts))⟩ := by
  unfold file sections
  rw [collision?_eq_none.mpr separate]
  simp only [bind_assoc, pure_bind]
  rfl

private theorem reExportSection_append (u : ModuleUnit) (text : Route → String) :
    u.reExportSection ++ u.routes.map text = u.sectionTexts text := by
  unfold reExportSection sectionTexts reExports
  cases u.children with
  | nil => rfl
  | cons child children =>
      simp only [List.map_cons, List.map_map, List.isEmpty_cons, Bool.false_eq_true, if_false,
        reduceCtorEq]
      rfl

/-- A unit with separate names whose routes have texts is assembled from them. -/
theorem file_eq_assembled (separate : u.Separate) {text : Route → String}
    (texts : ∀ r ∈ u.routes, r.unitText s = .ok (text r)) :
    u.file s = .ok (u.assembled s text) := by
  have written : u.routes.mapM (Route.unitText s) = .ok (u.routes.map text) := by
    rw [Outcome.mapM_eq_ok, List.map_map]
    exact List.map_congr_left texts
  rw [file_of_separate separate, written]
  change Except.ok _ = Except.ok _
  rw [reExportSection_append, fill_moduleTemplate]
  rfl

/-- A module has a file when it is ready. -/
theorem exists_file : (∃ file, u.file s = .ok file) ↔ u.Ready s := by
  by_cases separate : u.Separate
  · rw [Ready, and_iff_right separate, ← Outcome.exists_mapM_eq_ok, file_of_separate separate]
    simp only [bind_eq_ok]
    constructor
    · rintro ⟨_, texts, written, _⟩
      exact ⟨texts, written⟩
    · rintro ⟨texts, written⟩
      exact ⟨_, texts, written, rfl⟩
  · refine iff_of_false ?_ fun ready => separate ready.1
    rintro ⟨file, made⟩
    unfold ModuleUnit.file at made
    cases found : u.collision? with
    | none => exact separate (collision?_eq_none.mp found)
    | some r =>
        rw [found] at made
        cases made

/-- The file of a unit is assembled from the texts of its routes. -/
theorem eq_assembled_of_file {file : SourceFile} (written : u.file s = .ok file) :
    ∃ text : Route → String, (∀ r ∈ u.routes, r.unitText s = .ok (text r)) ∧
      file = u.assembled s text := by
  obtain ⟨separate, texts⟩ := exists_file.mp ⟨file, written⟩
  choose! text each using texts
  exact ⟨text, each, Except.ok.inj (written.symm.trans (file_eq_assembled separate each))⟩

/-- The file of a module fails in the way that `Fails` says. -/
theorem file_eq_error {failure : Failure} : u.file s = .error failure ↔ u.Fails s failure := by
  cases found : u.collision? with
  | none =>
      have separate := collision?_eq_none.mp found
      rw [file_of_separate separate, bind_eq_error, Outcome.mapM_eq_error]
      constructor
      · rintro (fails | ⟨_, _, made⟩)
        · exact Or.inr ⟨separate, fails⟩
        · cases made
      · rintro (⟨before, r, after, split, _, ⟨child, listed, same⟩, _⟩ | ⟨_, fails⟩)
        · have member : r ∈ u.routes := split ▸ List.mem_append_cons_self
          exact absurd same (separate r member child listed)
        · exact Or.inl fails
  | some r =>
      have collides := collision?_eq_some.mp found
      have made : u.file s = .error (.invalidRoute r.name (.submoduleName u.path.text)) := by
        unfold file
        rw [found]
      rw [made, Except.error.injEq]
      constructor
      · rintro rfl
        obtain ⟨before, after, split, separate, called⟩ := collides
        exact Or.inl ⟨before, r, after, split, separate, called, rfl⟩
      · rintro (⟨before, other, after, split, separate, called, rfl⟩ | ⟨separate, _⟩)
        · have same := collision?_eq_some.mpr ⟨before, after, split, separate, called⟩
          rw [Option.some.inj (found.symm.trans same)]
        · rw [collision?_eq_none.mpr separate] at found
          cases found

end ModuleUnit

/-- A text stands somewhere in a file. -/
def SourceFile.Contains (file : SourceFile) (text : String) : Prop :=
  ∃ before after, file.content = before ++ text ++ after

/-- Texts that are joined stand in the whole. -/
theorem intercalate_of_mem (separator : String) {text : String} {texts : List String}
    (member : text ∈ texts) :
    ∃ before after, separator.intercalate texts = before ++ text ++ after := by
  induction texts with
  | nil => exact absurd member List.not_mem_nil
  | cons first rest ih =>
      by_cases last : rest = []
      · subst last
        rw [List.mem_singleton.mp member]
        exact ⟨"", "", by simp⟩
      · rw [String.intercalate_cons_of_ne_nil last]
        rcases List.mem_cons.mp member with rfl | later
        · exact ⟨"", separator ++ separator.intercalate rest, by simp [String.append_assoc]⟩
        · obtain ⟨before, after, split⟩ := ih later
          exact ⟨first ++ separator ++ before, after, by simp only [split, String.append_assoc]⟩

namespace ModuleUnit

variable {u : ModuleUnit} {s : Settings} {text : Route → String}

/-- Each section of a unit stands in its file. -/
theorem contains_of_mem_sectionTexts {part : String} (member : part ∈ u.sectionTexts text) :
    (u.assembled s text).Contains part := by
  obtain ⟨before, after, split⟩ := intercalate_of_mem sectionBreak member
  refine ⟨fileLines (u.headerLines s) ++ before, after ++ "\n" ++ fileLines (footerLines s), ?_⟩
  simp only [assembled, split, String.append_assoc]

/-- An assembled file contains the text of each route of its module. -/
theorem assembled_contains {r : Route} (member : r ∈ u.routes) :
    (u.assembled s text).Contains (text r) :=
  contains_of_mem_sectionTexts (List.mem_append_right _ (List.mem_map_of_mem member))

/-- Each re-export of a unit stands in its file. -/
theorem contains_reExport {e : ReExport} (member : e ∈ u.reExports) :
    (u.assembled s text).Contains e.text := by
  have nonempty : u.reExports ≠ [] := List.ne_nil_of_mem member
  have listed : "\n".intercalate (u.reExports.map ReExport.text) ∈ u.sectionTexts text := by
    rw [← reExportSection_append, reExportSection, if_neg (mt List.isEmpty_iff.mp nonempty)]
    exact List.mem_append_left _ (List.mem_singleton_self _)
  obtain ⟨before, after, split⟩ := contains_of_mem_sectionTexts (s := s) listed
  obtain ⟨first, last, inner⟩ :=
    intercalate_of_mem "\n" (List.mem_map_of_mem (f := ReExport.text) member)
  exact ⟨before ++ first, last ++ after, by simp only [split, inner, String.append_assoc]⟩

end ModuleUnit

namespace SourceFiles

/-- Sorting keeps the files. -/
theorem sort_perm (files : List SourceFile) : (SourceFiles.mk files).sort.files.Perm files :=
  List.mergeSort_perm files _

/-- Sorted files are in the order of their paths. -/
theorem sort_pairwise (files : List SourceFile) :
    (SourceFiles.mk files).sort.files.Pairwise fun a b => a.path ≤ b.path :=
  Text.pairwise_mergeSort SourceFile.path files

end SourceFiles

namespace ModulePlan

variable {plan : ModulePlan} {s : Settings} {routes : List Route} {failure : Failure}

/-- The failure of a plan is that of the first unit that cannot be written. -/
def Fails (plan : ModulePlan) (s : Settings) (failure : Failure) : Prop :=
  ∃ before u after, plan = before ++ u :: after ∧ (∀ earlier ∈ before, earlier.Ready s) ∧
    u.Fails s failure

private theorem exists_files : (∃ files, plan.files s = .ok files) ↔ ∀ u ∈ plan, u.Ready s := by
  simp only [← ModuleUnit.exists_file, ← Outcome.exists_mapM_eq_ok, files, bind_eq_ok]
  constructor
  · rintro ⟨_, made, written, _⟩
    exact ⟨made, written⟩
  · rintro ⟨made, written⟩
    exact ⟨_, made, written, rfl⟩

/-- The files of a plan fail in the way that `Fails` says. -/
theorem files_eq_error : plan.files s = .error failure ↔ plan.Fails s failure := by
  rw [files, bind_eq_error, Outcome.mapM_eq_error]
  simp only [FailsFirst, ModuleUnit.exists_file, ModuleUnit.file_eq_error]
  constructor
  · rintro (fails | ⟨_, _, made⟩)
    · exact fails
    · cases made
  · exact Or.inl

/-- The files of a plan that can be written are those of its units, in the order of their paths. -/
theorem files_eq_assembled (separate : ∀ u ∈ plan, u.Separate) {text : Route → String}
    (texts : ∀ u ∈ plan, ∀ r ∈ u.routes, r.unitText s = .ok (text r)) :
    plan.files s = .ok (SourceFiles.mk (plan.map (·.assembled s text))).sort := by
  have written : plan.mapM (ModuleUnit.file s) = .ok (plan.map (·.assembled s text)) := by
    rw [Outcome.mapM_eq_ok, List.map_map]
    exact List.map_congr_left fun u member =>
      ModuleUnit.file_eq_assembled (separate u member) (texts u member)
  rw [files, written]
  rfl

/-- All units of a tree can be written when all routes have texts and the names are separate. -/
theorem TreeOf.ready_iff (tree : TreeOf routes plan) : (∀ u ∈ plan, u.Ready s) ↔
    (∀ r ∈ routes, ∃ text, r.unitText s = .ok text) ∧ ∀ u ∈ plan, u.Separate := by
  constructor
  · intro ready
    refine ⟨fun r member => ?_, fun u present => (ready u present).1⟩
    obtain ⟨u, present, same⟩ := List.mem_map.mp (tree.home_mem member)
    exact (ready u present).2 r ((tree.mem_routes present).mpr ⟨member, same.symm⟩)
  · rintro ⟨texts, separate⟩ u present
    exact ⟨separate u present, fun r member => texts r ((tree.mem_routes present).mp member).1⟩

end ModulePlan

/-- Files are generated when the routes have a plan of which all units can be written. -/
theorem exists_generate {s : Settings} {routes : List Route} :
    (∃ files, generate s routes = .ok files) ↔
      ∃ plan, ModulePlan.ofRoutes routes = .ok plan ∧ ∀ u ∈ plan, u.Ready s := by
  simp only [generate, bind_eq_ok, ← ModulePlan.exists_files]
  exact ⟨fun ⟨files, plan, planned, made⟩ => ⟨plan, planned, files, made⟩,
    fun ⟨plan, planned, files, made⟩ => ⟨files, plan, planned, made⟩⟩

/-- Files are generated when the routes have a plan and texts, and all names in the plan are
separate. -/
theorem exists_generate_of_texts {s : Settings} {routes : List Route} {plan : ModulePlan}
    (planned : ModulePlan.ofRoutes routes = .ok plan)
    (texts : ∀ r ∈ routes, ∃ text, r.unitText s = .ok text) (separate : ∀ u ∈ plan, u.Separate) :
    ∃ files, generate s routes = .ok files := by
  have ready := (ModulePlan.treeOf_ofRoutes planned).ready_iff.mpr ⟨texts, separate⟩
  exact exists_generate.mpr ⟨plan, planned, ready⟩

/-- Generated files are those of the units of the plan, assembled from the texts of the routes. -/
theorem eq_assembled_of_generate {s : Settings} {routes : List Route} {files : SourceFiles}
    (made : generate s routes = .ok files) :
    ∃ plan, ModulePlan.ofRoutes routes = .ok plan ∧
      ∃ text : Route → String, (∀ r ∈ routes, r.unitText s = .ok (text r)) ∧
        files = (SourceFiles.mk (plan.map (·.assembled s text))).sort := by
  obtain ⟨plan, planned, ready⟩ := exists_generate.mp ⟨files, made⟩
  have tree := ModulePlan.treeOf_ofRoutes planned
  obtain ⟨texts, separate⟩ := tree.ready_iff.mp ready
  choose! text written using texts
  have assembled : plan.files s = .ok (SourceFiles.mk (plan.map (·.assembled s text))).sort :=
    ModulePlan.files_eq_assembled separate fun u present r member =>
      written r ((tree.mem_routes present).mp member).1
  rw [generate, planned] at made
  exact ⟨plan, planned, text, written, Except.ok.inj (made.symm.trans assembled)⟩

/-- A file is that of a unit when the routes have a plan with the unit and the unit is written as
the file. -/
structure SourceFile.OfUnit (s : Settings) (routes : List Route) (file : SourceFile)
    (u : ModuleUnit) : Prop where
  planned : ∃ plan, ModulePlan.ofRoutes routes = .ok plan ∧ u ∈ plan
  written : u.file s = .ok file

section OfUnit

variable {s : Settings} {routes : List Route} {file : SourceFile} {u : ModuleUnit}
  {plan : ModulePlan}

/-- The unit of a generated file is one of the plan. -/
theorem SourceFile.OfUnit.mem_plan (ofUnit : file.OfUnit s routes u)
    (planned : ModulePlan.ofRoutes routes = .ok plan) : u ∈ plan := by
  obtain ⟨other, plannedToo, present⟩ := ofUnit.planned
  have same : plan = other := Except.ok.inj (planned.symm.trans plannedToo)
  exact same ▸ present

/-- The module of a generated file is one of the plan. -/
theorem SourceFile.OfUnit.mem_modules (ofUnit : file.OfUnit s routes u)
    (planned : ModulePlan.ofRoutes routes = .ok plan) : u.path ∈ plan.modules :=
  List.mem_map_of_mem (ofUnit.mem_plan planned)

/-- A generated file has the path of its module. -/
theorem SourceFile.OfUnit.path_eq (ofUnit : file.OfUnit s routes u) :
    file.path = u.path.filePath s := by
  obtain ⟨text, _, rfl⟩ := ModuleUnit.eq_assembled_of_file ofUnit.written
  rfl

end OfUnit

/-- The generated files are those of the units. -/
theorem mem_files_iff {s : Settings} {routes : List Route} {files : SourceFiles}
    (made : generate s routes = .ok files) {file : SourceFile} :
    file ∈ files.files ↔ ∃ u, file.OfUnit s routes u := by
  obtain ⟨plan, planned, written⟩ := bind_eq_ok.mp made
  obtain ⟨unsorted, each, sorted⟩ := bind_eq_ok.mp written
  obtain rfl : (SourceFiles.mk unsorted).sort = files := Except.ok.inj sorted
  have same := Outcome.mapM_eq_ok.mp each
  rw [(SourceFiles.sort_perm unsorted).mem_iff]
  constructor
  · intro member
    have listed : Except.ok file ∈ plan.map (ModuleUnit.file s) := same ▸ List.mem_map_of_mem member
    obtain ⟨u, present, isFile⟩ := List.mem_map.mp listed
    exact ⟨u, ⟨plan, planned, present⟩, isFile⟩
  · rintro ⟨u, ofUnit⟩
    have listed : Except.ok file ∈ unsorted.map (Except.ok (ε := Failure)) :=
      same ▸ ofUnit.written ▸ List.mem_map_of_mem (ofUnit.mem_plan planned)
    obtain ⟨_, member, equal⟩ := List.mem_map.mp listed
    exact Except.ok.inj equal ▸ member

/-- Each module of a plan has a file. -/
theorem exists_ofUnit {s : Settings} {routes : List Route} {files : SourceFiles} {plan : ModulePlan}
    (made : generate s routes = .ok files) (planned : ModulePlan.ofRoutes routes = .ok plan)
    {m : ModulePath} (member : m ∈ plan.modules) :
    ∃ (file : SourceFile) (u : ModuleUnit), file.OfUnit s routes u ∧ u.path = m := by
  obtain ⟨_, plannedToo, ready⟩ := exists_generate.mp ⟨files, made⟩
  obtain rfl := Except.ok.inj (planned.symm.trans plannedToo)
  obtain ⟨u, present, path⟩ := List.mem_map.mp member
  obtain ⟨file, written⟩ := ModuleUnit.exists_file.mpr (ready u present)
  exact ⟨file, u, ⟨⟨plan, planned, present⟩, written⟩, path⟩

/-- **Generation assembles the texts of the routes.** Files are generated exactly when the routes
have a plan, each route has a text by itself, and no route is called like a submodule of its module.
They are then the files of the units of the plan, assembled from the texts of the routes. Otherwise
the failure is that of the plan, or that of the first unit that cannot be written. -/
theorem generate_assembles (s : Settings) (routes : List Route) :
    ((∃ files, generate s routes = .ok files) ↔
      ∃ plan, ModulePlan.ofRoutes routes = .ok plan ∧
        (∀ r ∈ routes, ∃ text, r.unitText s = .ok text) ∧ ∀ u ∈ plan, u.Separate) ∧
    (∀ files, generate s routes = .ok files →
      ∃ plan, ModulePlan.ofRoutes routes = .ok plan ∧ ModulePlan.IsModuleTree routes plan ∧
        ∃ text : Route → String, (∀ r ∈ routes, r.unitText s = .ok (text r)) ∧
          files.files.Perm (plan.map (·.assembled s text)) ∧
          files.files.Pairwise fun a b => a.path ≤ b.path) ∧
    ∀ failure, generate s routes = .error failure ↔
      ModulePlan.ofRoutes routes = .error failure ∨
        ∃ plan, ModulePlan.ofRoutes routes = .ok plan ∧ plan.Fails s failure := by
  refine ⟨?_, fun files made => ?_, fun failure => ?_⟩
  · rw [exists_generate]
    exact exists_congr fun plan => and_congr_right fun planned =>
      (ModulePlan.treeOf_ofRoutes planned).ready_iff
  · obtain ⟨plan, planned, text, written, rfl⟩ := eq_assembled_of_generate made
    have tree := ModulePlan.treeOf_ofRoutes planned
    exact ⟨plan, planned, tree.isModuleTree, text, written, SourceFiles.sort_perm _,
      SourceFiles.sort_pairwise _⟩
  · simp only [generate, bind_eq_error, ModulePlan.files_eq_error]

end RouteClient
