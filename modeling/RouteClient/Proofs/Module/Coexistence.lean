import RouteClient.Proofs.Module.Confinement
import RouteClient.Proofs.Run.Rendering
import RouteClient.Proofs.Run.Writing

/-!
# Files beside directories

The file of a module stands beside the directories of its submodules and is called `index.ts` in
each module. Generated files can therefore be in one directory tree, unless a module has a segment
of that name (`coexist_iff`). They can then be written to an empty output directory, as far as their
directories have names that are not too long (`generate_coexist_iff`).
-/

namespace RouteClient

/-- No file has the path of a directory that another file lies in. -/
def SourceFiles.Coexist (files : SourceFiles) : Prop :=
  ∀ file ∈ files.files, ∀ other ∈ files.files, ∀ rest, file.path ≠ other.path ++ "/" ++ rest

/-- A file lies below another one when the path of that one is a directory of its path. -/
theorem SourceFile.liesBelow_iff {file other : SourceFile} :
    file.LiesBelow other ↔ ∃ rest, file.path = other.path ++ "/" ++ rest := by
  constructor
  · intro ⟨rest, below⟩
    have split : PathText.parts file.path =
        PathText.parts other.path ++ (rest ++ [Run.lastPart file.path]) := by
      rw [file.parts_eq, ← below, List.append_assoc]
    have plain : ∀ part ∈ rest ++ [Run.lastPart file.path], '/' ∉ part.toList := by
      intro part member
      have listed : part ∈ PathText.parts file.path := split ▸ List.mem_append_right _ member
      exact PathText.slash_not_mem_parts listed
    refine ⟨"/".intercalate (rest ++ [Run.lastPart file.path]), PathText.parts_inj ?_⟩
    rw [PathText.parts_slash, PathText.parts_intercalate (by simp) plain, split]
  · intro ⟨rest, path⟩
    rw [LiesBelow, directories, path, PathText.parts_slash,
      List.dropLast_append_of_ne_nil (PathText.parts_ne_nil rest)]
    exact List.prefix_append _ _

/-- Files can be in one tree when none lies below another one. -/
theorem SourceFiles.coexist_iff_not_liesBelow {files : SourceFiles} :
    files.Coexist ↔ ∀ file ∈ files.files, ∀ other ∈ files.files, ¬file.LiesBelow other := by
  simp only [Coexist, SourceFile.liesBelow_iff, not_exists, ne_eq]

private theorem ModulePath.exists_child_covers {m : ModulePath} {name : String}
    (listed : name ∈ m.segments) :
    ∃ above : ModulePath, (above.child name).Covers m := by
  obtain ⟨above, below, split⟩ := List.append_of_mem listed
  exact ⟨⟨above⟩, below, by rw [split, child, List.append_assoc, List.singleton_append]⟩

section Units

variable {s : Settings} {routes : List Route} {files : SourceFiles} {file other : SourceFile}
  {u v : ModuleUnit}

/-- A generated file lies in the directories of its module. -/
theorem SourceFile.OfUnit.directories_eq (ofUnit : file.OfUnit s routes u) :
    file.directories = PathText.parts s.functionalDir ++ u.path.segments := by
  rw [directories, ofUnit.parts_eq, ← List.append_assoc, List.dropLast_concat]

/-- Every generated file has the same name. -/
theorem SourceFile.OfUnit.lastPart_eq (ofUnit : file.OfUnit s routes u) :
    Run.lastPart file.path = "index.ts" := by
  rw [Run.lastPart, ofUnit.parts_eq, ← List.append_assoc, List.getLast?_concat]
  rfl

/-- A file lies below another one when its module goes on from the module of the other one with a
directory that is called like its file. -/
theorem SourceFile.OfUnit.liesBelow_iff (ofUnit : file.OfUnit s routes u)
    (otherOf : other.OfUnit s routes v) :
    file.LiesBelow other ↔ (v.path.child "index.ts").Covers u.path := by
  rw [LiesBelow, otherOf.parts_eq, ofUnit.directories_eq, List.prefix_append_right_inj]
  rfl

/-- What holds of the segments of all modules with a file holds of those of all routes. -/
theorem segments_iff (made : generate s routes = .ok files) (good : String → Prop) :
    (∀ file ∈ files.files, ∀ u, file.OfUnit s routes u → ∀ segment ∈ u.path.segments,
      good segment) ↔
      ∀ r ∈ routes, ∀ segment ∈ r.home.segments, good segment := by
  obtain ⟨plan, planned, _⟩ := exists_generate.mp ⟨files, made⟩
  have tree := ModulePlan.treeOf_ofRoutes planned
  constructor
  · intro each r present segment listed
    obtain ⟨file, u, ofUnit, path⟩ := exists_ofUnit made planned (tree.home_mem present)
    have member := (mem_files_iff made).mpr ⟨u, ofUnit⟩
    exact each file member u ofUnit segment (path ▸ listed)
  · intro each file _ u ofUnit segment listed
    obtain ⟨r, present, covers⟩ := (tree.covered _).mp (ofUnit.mem_modules planned)
    exact each r present segment (covers.subset listed)

/-- A generated file lies below another one when a segment of its module is called like a file. -/
theorem exists_liesBelow_iff (made : generate s routes = .ok files)
    (ofUnit : file.OfUnit s routes u) :
    (∃ other ∈ files.files, file.LiesBelow other) ↔ "index.ts" ∈ u.path.segments := by
  constructor
  · intro ⟨other, otherMember, below⟩
    obtain ⟨v, otherOf⟩ := (mem_files_iff made).mp otherMember
    have covers := (ofUnit.liesBelow_iff otherOf).mp below
    exact covers.subset (List.mem_append_right _ (List.mem_singleton_self "index.ts"))
  · intro listed
    obtain ⟨plan, planned, _⟩ := ofUnit.planned
    have tree := ModulePlan.treeOf_ofRoutes planned
    obtain ⟨above, covers⟩ := ModulePath.exists_child_covers listed
    obtain ⟨r, present, leads⟩ := (tree.covered _).mp (ofUnit.mem_modules planned)
    have isModule := tree.mem_of_child ((tree.covered _).mpr ⟨r, present, covers.trans leads⟩)
    obtain ⟨other, v, otherOf, path⟩ := exists_ofUnit made planned isModule
    refine ⟨other, (mem_files_iff made).mpr ⟨v, otherOf⟩, ?_⟩
    rwa [ofUnit.liesBelow_iff otherOf, path]

/-- Generated files can be in one tree when no module has a segment that is called like a file. -/
theorem coexist_iff (made : generate s routes = .ok files) :
    files.Coexist ↔ ∀ r ∈ routes, "index.ts" ∉ r.home.segments := by
  have others : (∀ r ∈ routes, "index.ts" ∉ r.home.segments) ↔
      ∀ r ∈ routes, ∀ segment ∈ r.home.segments, segment ≠ "index.ts" := by
    simp only [ne_eq, List.forall_mem_ne']
  rw [others, ← segments_iff made (· ≠ "index.ts"), SourceFiles.coexist_iff_not_liesBelow]
  constructor
  · intro apart file member u ofUnit segment listed same
    obtain ⟨other, otherMember, below⟩ := (exists_liesBelow_iff made ofUnit).mpr (same ▸ listed)
    exact apart file member other otherMember below
  · intro differs file member other otherMember below
    obtain ⟨u, ofUnit⟩ := (mem_files_iff made).mp member
    have listed := (exists_liesBelow_iff made ofUnit).mp ⟨other, otherMember, below⟩
    exact differs file member u ofUnit "index.ts" listed rfl

/-- A generated file can be written below some directory. -/
theorem SourceFile.OfUnit.isNested (ofUnit : file.OfUnit s routes u)
    (atDefault : s.functionalDir = "functional") : file.IsNested := by
  have ordinary : s.HasOrdinaryDirectory := by
    rw [Settings.HasOrdinaryDirectory, atDefault]
    decide
  have lies := ofUnit.liesAt ordinary
  refine ⟨fun part member => (lies.ordinary part member).1, ?_, ?_⟩
  · rw [ofUnit.directories_eq, atDefault]
    exact List.append_ne_nil_of_left_ne_nil (PathText.parts_ne_nil "functional") _
  · rw [FileNode.holdsZero_eq_false, PathText.mem_iff_mem_parts (by decide), ofUnit.parts_eq,
      atDefault]
    rintro ⟨part, member, zero⟩
    have directory : PathText.parts "functional" = ["functional"] := by decide
    rw [directory, List.singleton_append, List.mem_cons, List.mem_append,
      List.mem_singleton] at member
    rcases member with rfl | inModule | rfl
    · exact absurd zero (by decide)
    · have control := ((lies.harmless part inModule).plain _ zero).2.2.2.2.2
      exact absurd control (by decide)
    · exact absurd zero (by decide)

/-- No directory has a name that is too long when no segment of a route is. -/
theorem short_iff (atDefault : s.functionalDir = "functional")
    (made : generate s routes = .ok files) :
    (∀ file ∈ files.files, ∀ name ∈ file.directories, FileNode.nameFault? name = none) ↔
      ∀ r ∈ routes, ∀ segment ∈ r.home.segments, segment.utf8ByteSize ≤ FileNode.maxNameBytes := by
  have directory : PathText.parts "functional" = ["functional"] := by decide
  have shortDirectory : FileNode.nameFault? "functional" = none := by decide
  simp only [← FileNode.nameFault?_eq_none]
  rw [← segments_iff made (FileNode.nameFault? · = none)]
  constructor
  · intro short file member u ofUnit segment listed
    apply short file member segment
    rw [ofUnit.directories_eq]
    exact List.mem_append_right _ listed
  · intro short file member name listed
    obtain ⟨u, ofUnit⟩ := (mem_files_iff made).mp member
    rw [ofUnit.directories_eq, atDefault, directory, List.singleton_append, List.mem_cons] at listed
    rcases listed with rfl | inModule
    · exact shortDirectory
    · exact short file member u ofUnit name inModule

/-- Every generated file can be written below some directory. -/
theorem isNested_of_generate (atDefault : s.functionalDir = "functional")
    (made : generate s routes = .ok files) : ∀ file ∈ files.files, file.IsNested := by
  intro file member
  obtain ⟨u, ofUnit⟩ := (mem_files_iff made).mp member
  exact ofUnit.isNested atDefault

/-- Generated files can all be written to an empty directory when they can be in one tree and their
directories have names that are not too long. -/
theorem exists_written_iff (atDefault : s.functionalDir = "functional")
    (made : generate s routes = .ok files) {output : String} {root : FileNode}
    (empty : root.lookUp output = .ok (.directory [])) :
    (∃ tree, Run.writeFiles output root files.files = (tree, .ok ())) ↔ files.Coexist ∧
      ∀ r ∈ routes, ∀ segment ∈ r.home.segments, segment.utf8ByteSize ≤ FileNode.maxNameBytes := by
  obtain ⟨standing, nothing⟩ := FileNode.lookUp_eq_directory empty
  rw [← short_iff atDefault made, SourceFiles.coexist_iff_not_liesBelow]
  exact Run.exists_writeFiles_iff standing nothing (isNested_of_generate atDefault made)
    (nodup_paths made)

private theorem readText_of_written (atDefault : s.functionalDir = "functional")
    (made : generate s routes = .ok files) {output : String} {root tree : FileNode}
    (standing : root.HasDirectory output)
    (wrote : Run.writeFiles output root files.files = (tree, .ok ()))
    (member : file ∈ files.files) :
    tree.readText (PathText.join output file.path) = .ok file.content := by
  have nested := isNested_of_generate atDefault made
  have written := Run.writeFiles_eq_ok standing.nonempty standing.plain nested (nodup_paths made)
    standing.within wrote
  apply written.readText_eq_ok standing.nonempty standing.plain member (nested file member)
  obtain ⟨u, ofUnit⟩ := (mem_files_iff made).mp member
  rw [ofUnit.lastPart_eq]
  decide

end Units

/-- A run that is prepared, as far as a dry run goes, comes to its end when the generated files can
be in one tree and no segment is too long for a name. -/
private theorem Run.exists_perform_iff {options : GenerateOptions} {cwd : String} {root : FileNode}
    {p : Prepared} (prepared : prepare options cwd root = .ok p)
    (atDefault : p.plan.settings.functionalDir = "functional")
    (empty : root.lookUp p.plan.output = .ok (.directory [])) (writes : options.dryRun = false) :
    (∃ tree summary, perform options cwd root = (tree, .ok summary)) ↔ p.code.Coexist ∧
      ∀ r ∈ p.routes, ∀ segment ∈ r.home.segments,
        segment.utf8ByteSize ≤ FileNode.maxNameBytes := by
  rw [← exists_written_iff atDefault (generate_of_prepare prepared) empty, perform, prepared]
  simp only [writes, Bool.false_eq_true, if_false]
  rcases writeFiles p.plan.output root p.code.files with ⟨tree, failure | done⟩ <;> simp

/-- **Generated files on a file system.** No path of a generated file is a directory of another one
exactly when no route has a path segment that is called like a file. Into an empty output directory,
the files can all be written when this holds and no segment is too long for a name; and a run that
has come as far as a dry run goes comes to its end then, and only then. -/
theorem generate_coexist_iff {s : Settings} {routes : List Route} {files : SourceFiles}
    (atDefault : s.functionalDir = "functional") (made : generate s routes = .ok files) :
    (files.Coexist ↔ ∀ r ∈ routes, "index.ts" ∉ r.home.segments) ∧
    (∀ output root, FileNode.lookUp root output = .ok (.directory []) →
      ((∃ tree, Run.writeFiles output root files.files = (tree, .ok ()) ∧ ∀ file ∈ files.files,
        tree.readText (PathText.join output file.path) = .ok file.content) ↔
        files.Coexist ∧ ∀ r ∈ routes, ∀ segment ∈ r.home.segments,
          segment.utf8ByteSize ≤ FileNode.maxNameBytes)) ∧
    ∀ options cwd root p, Run.prepare options cwd root = .ok p → p.plan.settings = s →
      p.routes = routes → options.dryRun = false →
      FileNode.lookUp root p.plan.output = .ok (.directory []) →
        ((∃ tree summary, Run.perform options cwd root = (tree, .ok summary)) ↔
          files.Coexist ∧ ∀ r ∈ routes, ∀ segment ∈ r.home.segments,
            segment.utf8ByteSize ≤ FileNode.maxNameBytes) := by
  refine ⟨coexist_iff made, fun output root empty => ?_, ?_⟩
  · rw [← exists_written_iff atDefault made empty]
    obtain ⟨standing, _⟩ := FileNode.lookUp_eq_directory empty
    exact exists_congr fun tree => and_iff_left_of_imp fun wrote file member =>
      readText_of_written atDefault made standing wrote member
  · rintro options cwd root p prepared rfl rfl writes empty
    obtain rfl := Except.ok.inj ((Run.generate_of_prepare prepared).symm.trans made)
    exact Run.exists_perform_iff prepared atDefault empty writes

/-- A tree with an empty directory called `out`. -/
def FileNode.emptyOut : FileNode := .directory [("out", .directory [])]

/-- Routes of modules whose names are close to that of a file. -/
def Route.indexed : List Route :=
  [.bare "open" .get "/shop/index", .bare "find" .get "/shop/index.ts.d/:index.ts"]

/-- A tree with an empty directory called `out` and with these routes as a document. -/
def FileNode.indexedTree : FileNode :=
  .directory [("out", .directory []), ("routes.json", .file (.text
    ("[\x7b\"name\":\"open\",\"method\":\"GET\",\"path\":\"/shop/index\"\x7d," ++
      "\x7b\"name\":\"find\",\"method\":\"GET\",\"path\":\"/shop/index.ts.d/:index.ts\"\x7d]")))]

/-- Options of a run that reads this document and writes to the directory `out`. -/
def GenerateOptions.intoOut : GenerateOptions := { inputs := ["routes.json"], out := some "out" }

private theorem FileNode.lookUp_indexedTree : indexedTree.lookUp "/out" = .ok (.directory []) := by
  have plain : holdsZero "/out" = false := by decide +kernel
  have steps : PathText.steps "/out" = ["out"] := by decide +kernel
  rw [lookUp, plain, steps]
  rfl

/-- The routes can be generated and written, and the run on their document comes to its end. -/
theorem generate_coexist_indexed : ∃ files, Settings.functionalDir {} = "functional" ∧
    generate {} Route.indexed = .ok files ∧ files.Coexist ∧
      FileNode.emptyOut.lookUp "out" = .ok (.directory []) ∧
        (∃ tree, Run.writeFiles "out" .emptyOut files.files = (tree, .ok ())) ∧
          ∃ tree summary, Run.perform .intoOut "/" .indexedTree = (tree, .ok summary) := by
  have planned : ModulePlan.ofRoutes Route.indexed =
      .ok [⟨.root, [], ["shop"]⟩, ⟨⟨["shop"]⟩, [], ["index", "index.ts.d"]⟩,
        ⟨⟨["shop", "index"]⟩, [.bare "open" .get "/shop/index"], []⟩,
        ⟨⟨["shop", "index.ts.d"]⟩, [.bare "find" .get "/shop/index.ts.d/:index.ts"], []⟩] := by rfl
  have texts : ∀ r ∈ Route.indexed, ∃ text, r.unitText {} = .ok text := by
    simp only [Route.indexed, List.forall_mem_cons]
    exact ⟨⟨_, by rfl⟩, ⟨_, by rfl⟩, by simp⟩
  have empty : FileNode.emptyOut.lookUp "out" = .ok (.directory []) := by rfl
  obtain ⟨files, made⟩ := exists_generate_of_texts planned texts (by decide)
  obtain ⟨apart, writes, runs⟩ := generate_coexist_iff rfl made
  have coexist : files.Coexist := apart.mpr (by decide)
  have short : ∀ r ∈ Route.indexed, ∀ segment ∈ r.home.segments,
      segment.utf8ByteSize ≤ FileNode.maxNameBytes := by decide
  obtain ⟨tree, wrote, _⟩ := (writes "out" .emptyOut empty).mpr ⟨coexist, short⟩
  have prepared : Run.prepare .intoOut "/" .indexedTree =
      .ok ⟨⟨["/routes.json"], "/out", [], {}⟩, 2, Route.indexed, files⟩ :=
    Run.prepare_eq_ok.mpr ⟨⟨["/routes.json"], "/out", [], {}⟩, Route.indexed, by decide +kernel,
      by decide +kernel, Run.prepareFrom_eq_ok.mpr ⟨files, by rfl, made, by rfl⟩⟩
  exact ⟨files, rfl, made, coexist, empty, ⟨tree, wrote⟩,
    (runs _ _ _ _ prepared rfl rfl rfl FileNode.lookUp_indexedTree).mpr ⟨coexist, short⟩⟩

/-- A route of a module that is called like a file. -/
def Route.indexFile : List Route := [.bare "open" .get "/index.ts"]

/-- The file of the root is in the way of the directory of a module that is called like it. -/
theorem indexFile_not_coexist : ∃ files, Settings.validate {} = .ok () ∧
    generate {} Route.indexFile = .ok files ∧
    (∃ file ∈ files.files, ∃ other ∈ files.files, file.path = "functional/index.ts/index.ts" ∧
      other.path = "functional/index.ts") ∧
    ¬files.Coexist ∧ FileNode.emptyOut.lookUp "out" = .ok (.directory []) ∧
    ∀ tree, Run.writeFiles "out" .emptyOut files.files ≠ (tree, .ok ()) := by
  have planned : ModulePlan.ofRoutes Route.indexFile =
      .ok [⟨.root, [], ["index.ts"]⟩,
        ⟨⟨["index.ts"]⟩, [.bare "open" .get "/index.ts"], []⟩] := by rfl
  have texts : ∀ r ∈ Route.indexFile, ∃ text, r.unitText {} = .ok text := by
    simp only [Route.indexFile, List.forall_mem_cons]
    exact ⟨⟨_, by rfl⟩, by simp⟩
  have empty : FileNode.emptyOut.lookUp "out" = .ok (.directory []) := by rfl
  obtain ⟨files, made⟩ := exists_generate_of_texts planned texts (by decide)
  obtain ⟨file, u, ofUnit, path⟩ := exists_ofUnit (m := ⟨["index.ts"]⟩) made planned (by decide)
  obtain ⟨other, v, otherOf, otherPath⟩ := exists_ofUnit (m := .root) made planned (by decide)
  have below : file.path = "functional/index.ts/index.ts" := by
    rw [ofUnit.path_eq, path]
    decide
  have above : other.path = "functional/index.ts" := by
    rw [otherOf.path_eq, otherPath]
    decide
  have apart : ¬files.Coexist := mt (coexist_iff made).mp (by decide)
  refine ⟨files, by rfl, made, ⟨file, (mem_files_iff made).mpr ⟨u, ofUnit⟩, other,
    (mem_files_iff made).mpr ⟨v, otherOf⟩, below, above⟩, apart, empty, fun tree wrote => ?_⟩
  exact apart ((exists_written_iff (by rfl) made empty).mp ⟨tree, wrote⟩).1

end RouteClient
