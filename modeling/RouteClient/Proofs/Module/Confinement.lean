import Mathlib.Data.List.Nodup
import RouteClient.Proofs.Files.PathSteps
import RouteClient.Proofs.Module.Admission
import RouteClient.Proofs.Module.Assembly
import RouteClient.Proofs.Text.ByteOrder

/-!
# Where generated files lie

The file of a module lies in the directory of all module files, in a directory for each segment of
the module (`ModulePath.filePath_eq`). The segments come from route paths, but those that lead
elsewhere are refused, so that each file stays below the directory of all module files, and
different files have different paths (`generate_confined`).
-/

namespace RouteClient

/-- A part of a path that names an entry of a directory on every system. A backslash separates names
on some of them. -/
def PathText.IsOrdinary (part : String) : Prop := IsName part ∧ '\\' ∉ part.toList

/-- Whether a part of a path is ordinary can be decided. -/
instance (part : String) : Decidable (PathText.IsOrdinary part) :=
  inferInstanceAs (Decidable (PathText.IsName part ∧ '\\' ∉ part.toList))

/-- The directory of module files is given by ordinary names. -/
def Settings.HasOrdinaryDirectory (s : Settings) : Prop :=
  ∀ part ∈ PathText.parts s.functionalDir, PathText.IsOrdinary part

instance (s : Settings) : Decidable s.HasOrdinaryDirectory :=
  inferInstanceAs (Decidable (∀ part ∈ PathText.parts s.functionalDir, PathText.IsOrdinary part))

/-- A segment that is a single name, without separators, quotes and control characters. -/
structure ModulePath.IsHarmless (segment : String) : Prop where
  isName : PathText.IsName segment
  plain : ∀ c ∈ segment.toList, c ≠ '/' ∧ c ≠ '\\' ∧ c ≠ '\x22' ∧ c ≠ '\x27' ∧ c ≠ '\x60' ∧
    Text.isControl c = false

/-- A file lies where its module says: in the directory of all module files, and there in a
directory for each segment of the module. -/
structure SourceFile.LiesAt (s : Settings) (file : SourceFile) (m : ModulePath) : Prop where
  joined : file.path = "/".intercalate (s.functionalDir :: m.segments ++ ["index.ts"])
  harmless : ∀ segment ∈ m.segments, ModulePath.IsHarmless segment
  /-- No part of the path leads anywhere but into the directory of its name. -/
  ordinary : ∀ part ∈ PathText.parts file.path, PathText.IsOrdinary part
  /-- Wherever the output directory is, the path leads below the directory of all module files. -/
  within : ∀ output, PathText.walk output (PathText.steps file.path) =
    output ++ PathText.parts s.functionalDir ++ (m.segments ++ ["index.ts"])

namespace ModulePath

variable {s : Settings} {m : ModulePath}

private theorem ne_empty_of_mem_ofRoutePath {path segment : String}
    (member : segment ∈ (ofRoutePath path).segments) : segment ≠ "" := by
  obtain ⟨chars, kept, rfl⟩ := List.mem_map.mp member
  have isLiteral := (List.mem_filter.mp kept).2
  intro empty
  rw [String.ofList_eq_empty_iff.mp empty] at isLiteral
  cases isLiteral

/-- The path of a file is that of the directory of module files, the segments of the module and the
name of the file, with slashes between them. -/
theorem filePath_eq (segmented : m.Segmented) :
    m.filePath s = "/".intercalate (s.functionalDir :: m.segments ++ ["index.ts"]) := by
  have below : m.segments ++ ["index.ts"] ≠ [] := by simp
  have plain : ∀ part ∈ m.segments ++ ["index.ts"], '/' ∉ part.toList := by
    intro part member
    rcases List.mem_append.mp member with inModule | last
    · exact segmented part inModule
    · rw [List.mem_singleton.mp last]
      decide
  apply PathText.parts_inj
  rw [parts_filePath segmented, List.cons_append, String.intercalate_cons_of_ne_nil below,
    PathText.parts_slash, PathText.parts_intercalate below plain]

end ModulePath

section Plans

variable {s : Settings} {routes : List Route} {plan : ModulePlan} {files : SourceFiles}

/-- The segments of planned modules are harmless: they stand between slashes and are not empty, and
all others were refused. -/
theorem ModulePlan.Admitted.harmless (admitted : ModulePlan.Admitted routes)
    (tree : ModulePlan.TreeOf routes plan) {m : ModulePath} (member : m ∈ plan.modules)
    {segment : String} (listed : segment ∈ m.segments) : ModulePath.IsHarmless segment := by
  have directory := admitted.directory_of_mem tree member listed
  simp only [ModulePath.isDirectorySegment, Bool.and_eq_true, decide_eq_true_eq, List.all_eq_true,
    Bool.not_eq_true'] at directory
  obtain ⟨⟨notHere, notAbove⟩, allowed⟩ := directory
  obtain ⟨r, _, covers⟩ := (tree.covered m).mp member
  have nonempty := ModulePath.ne_empty_of_mem_ofRoutePath (covers.subset listed)
  refine ⟨⟨nonempty, notHere, notAbove⟩, fun c present => ?_⟩
  have noSlash : c ≠ '/' := fun same => tree.segmented member segment listed (same ▸ present)
  have free := allowed c present
  simp only [ModulePath.isForbidden, Bool.or_eq_false_iff, decide_eq_false_iff_not] at free
  obtain ⟨⟨⟨⟨noQuote, noApostrophe⟩, noBacktick⟩, noBackslash⟩, noControl⟩ := free
  exact ⟨noSlash, noBackslash, noQuote, noApostrophe, noBacktick, noControl⟩

/-- The paths of the generated files are those of the planned modules. -/
theorem paths_perm (made : generate s routes = .ok files)
    (planned : ModulePlan.ofRoutes routes = .ok plan) :
    (files.files.map (·.path)).Perm (plan.modules.map (·.filePath s)) := by
  obtain ⟨_, plannedToo, text, _, rfl⟩ := eq_assembled_of_generate made
  obtain rfl := Except.ok.inj (planned.symm.trans plannedToo)
  have paths : plan.modules.map (·.filePath s) =
      (plan.map (·.assembled s text)).map (·.path) := by
    rw [ModulePlan.modules, List.map_map, List.map_map]
    rfl
  rw [paths]
  exact (SourceFiles.sort_perm _).map _

/-- Different modules have different files, so that no path is taken twice. -/
theorem nodup_paths (made : generate s routes = .ok files) : (files.files.map (·.path)).Nodup := by
  obtain ⟨plan, planned, _⟩ := exists_generate.mp ⟨files, made⟩
  have tree := ModulePlan.treeOf_ofRoutes planned
  rw [(paths_perm made planned).nodup_iff]
  apply tree.ascending.nodup_modules.map_on
  intro m member other memberToo same
  exact ModulePath.filePath_inj (tree.segmented member) (tree.segmented memberToo) same

/-- Generated files stand in strictly ascending order of their paths. -/
theorem paths_ascending (made : generate s routes = .ok files) :
    files.files.Pairwise fun a b => a.path < b.path := by
  have sorted : files.files.Pairwise fun a b => a.path ≤ b.path := by
    obtain ⟨_, _, _, _, rfl⟩ := eq_assembled_of_generate made
    exact SourceFiles.sort_pairwise _
  have distinct := List.pairwise_map.mp (nodup_paths made)
  exact sorted.imp₂ (fun _ _ before differs => lt_of_le_of_ne before differs) distinct

variable {file : SourceFile} {u : ModuleUnit}

/-- The path of a generated file leads through the directory of module files and the segments of its
module. -/
theorem SourceFile.OfUnit.parts_eq (ofUnit : file.OfUnit s routes u) :
    PathText.parts file.path =
      PathText.parts s.functionalDir ++ (u.path.segments ++ ["index.ts"]) := by
  obtain ⟨plan, planned, _⟩ := ofUnit.planned
  have segmented := (ModulePlan.treeOf_ofRoutes planned).segmented (ofUnit.mem_modules planned)
  rw [ofUnit.path_eq, ModulePath.parts_filePath segmented]

/-- The file of a planned module lies where the module says. -/
theorem SourceFile.OfUnit.liesAt (ordinary : s.HasOrdinaryDirectory)
    (ofUnit : file.OfUnit s routes u) : file.LiesAt s u.path := by
  obtain ⟨plan, planned, _⟩ := ofUnit.planned
  have tree := ModulePlan.treeOf_ofRoutes planned
  have member := ofUnit.mem_modules planned
  have harmless {segment : String} (listed : segment ∈ u.path.segments) :=
    (ModulePlan.admitted_ofRoutes planned).harmless tree member listed
  have each : ∀ part ∈ PathText.parts file.path, PathText.IsOrdinary part := by
    intro part listed
    rw [ofUnit.parts_eq, List.mem_append, List.mem_append, List.mem_singleton] at listed
    rcases listed with inDirectory | inModule | rfl
    · exact ordinary part inDirectory
    · exact ⟨(harmless inModule).isName,
        fun present => ((harmless inModule).plain _ present).2.1 rfl⟩
    · decide
  have named : ∀ part ∈ PathText.parts file.path, PathText.IsName part :=
    fun part listed => (each part listed).1
  refine ⟨?_, fun segment => harmless, each, fun output => ?_⟩
  · rw [ofUnit.path_eq, ModulePath.filePath_eq (tree.segmented member)]
  · rw [PathText.steps_names named, PathText.walk_names named, ofUnit.parts_eq, List.append_assoc]

end Plans

/-- **Where generated files lie.** Generated files stand in strictly ascending order of the bytes of
their paths, and each of them lies where its module says, below the directory of all module
files. -/
theorem generate_confined {s : Settings} {routes : List Route} {files : SourceFiles}
    (ordinary : s.HasOrdinaryDirectory) (made : generate s routes = .ok files) :
    (files.files.Pairwise fun a b => Text.bytes a.path < Text.bytes b.path) ∧
      ∀ file ∈ files.files, ∃ u, file.OfUnit s routes u ∧ file.LiesAt s u.path := by
  constructor
  · exact (paths_ascending made).imp fun before => Text.bytes_lt_iff.mpr before
  · intro file member
    obtain ⟨u, ofUnit⟩ := (mem_files_iff made).mp member
    exact ⟨u, ofUnit, ofUnit.liesAt ordinary⟩

/-- Routes of two modules, of which the path of the second file comes before that of the first. -/
def Route.shopItemsApart : List Route :=
  [.bare "list" .get "/shop/items", .bare "find" .get "/shop-items"]

/-- The files of modules in one another, in the order of their paths. -/
theorem generate_confined_shopItems : ∃ files, generate {} Route.shopItemsApart = .ok files ∧
    Settings.HasOrdinaryDirectory {} ∧
      (files.files.Pairwise fun a b => Text.bytes a.path < Text.bytes b.path) ∧
        ∀ file ∈ files.files, ∃ u,
          file.OfUnit {} Route.shopItemsApart u ∧ file.LiesAt {} u.path := by
  have ordinary : Settings.HasOrdinaryDirectory {} := by decide
  have planned : ModulePlan.ofRoutes Route.shopItemsApart =
      .ok [⟨.root, [], ["shop", "shop-items"]⟩, ⟨⟨["shop"]⟩, [], ["items"]⟩,
        ⟨⟨["shop", "items"]⟩, [.bare "list" .get "/shop/items"], []⟩,
        ⟨⟨["shop-items"]⟩, [.bare "find" .get "/shop-items"], []⟩] := by rfl
  have texts : ∀ r ∈ Route.shopItemsApart, ∃ text, r.unitText {} = .ok text := by
    simp only [Route.shopItemsApart, List.forall_mem_cons]
    exact ⟨⟨_, by rfl⟩, ⟨_, by rfl⟩, by simp⟩
  obtain ⟨files, made⟩ := exists_generate_of_texts planned texts (by decide)
  exact ⟨files, made, ordinary, generate_confined ordinary made⟩

end RouteClient
