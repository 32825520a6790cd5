import RouteClient.Proofs.Module.Coexistence
import RouteClient.Proofs.Module.ImportBase
import RouteClient.Proofs.Run.Loading
import RouteClient.Proofs.Run.Placing
import RouteClient.Proofs.Run.Rendering

/-!
# Effects of a run

A run changes nothing before all of its files are rendered, and a dry run changes nothing at all.
When a run succeeds, its files are those that are generated for the loaded routes that are not
excluded. Exactly these are written, and all other files stay as they are (`Run.perform_effects`).
The files are below the output directory when the directory of module files is, which is not so in
all settings (`Run.upward_perform`).
-/

namespace RouteClient

open PathText (IsName walk)

/-- The directory of module files is given by a relative path. -/
theorem Settings.relative_of_validate {s : Settings} (valid : s.validate = .ok ()) :
    s.functionalDir ≠ "" ∧ PathText.isAbsolute s.functionalDir = false := by
  have noFault : s.faultOf .functionalDir = none := by
    unfold validate at valid
    split at valid
    · next none => exact List.findSome?_eq_none_iff.mp none _ (by decide)
    · cases valid
  have relative : isRelativeDirectory s.functionalDir = true := by
    by_contra notRelative
    simp [faultOf, get, notRelative] at noFault
  unfold isRelativeDirectory at relative
  split at relative
  · cases relative
  · next c chars split =>
      refine ⟨fun empty => ?_, ?_⟩
      · rw [empty] at split
        cases split
      · simpa [PathText.isAbsolute, split] using relative

namespace Run

/-- A file is placed in the output directory or in one of those below it. -/
def Below (output : String) (file : SourceFile) : Prop :=
  walk [] (PathText.steps output) <+: (spot output file).dropLast

/-- The place that the directory of module files has from the output directory. -/
def moduleRoot (output : String) (s : Settings) : List String :=
  walk [] (PathText.steps (PathText.join output s.functionalDir))

section Places

variable {s : Settings} {routes : List Route} {code : SourceFiles} {file : SourceFile}
  {u : ModuleUnit} {output : String}

private theorem relative_of_ofUnit (valid : s.validate = .ok ()) (ofUnit : file.OfUnit s routes u) :
    PathText.isAbsolute file.path = false := by
  obtain ⟨nonempty, relative⟩ := s.relative_of_validate valid
  obtain ⟨plan, planned, _⟩ := ofUnit.planned
  have segmented := (ModulePlan.treeOf_ofRoutes planned).segmented (ofUnit.mem_modules planned)
  rw [ofUnit.path_eq, ModulePath.filePath_eq segmented, List.cons_append,
    String.intercalate_cons_of_ne_nil (by simp)]
  obtain ⟨c, chars, split⟩ := List.exists_cons_of_ne_nil (mt String.toList_eq_nil_iff.mp nonempty)
  rw [PathText.isAbsolute, split] at relative
  simpa [PathText.isAbsolute, split] using relative

/-- The file of a module is placed below the directory of module files. -/
theorem spot_of_ofUnit (valid : s.validate = .ok ()) (ofUnit : file.OfUnit s routes u) :
    spot output file = moduleRoot output s ++ (u.path.segments ++ ["index.ts"]) := by
  obtain ⟨stem, joined⟩ := PathText.exists_stem output
  have named : ∀ name ∈ u.path.segments ++ ["index.ts"], IsName name :=
    List.forall_mem_append.mpr ⟨ofUnit.named_segments, by decide⟩
  rw [spot, moduleRoot, PathText.walk_steps, PathText.walk_steps,
    joined _ (relative_of_ofUnit valid ofUnit), joined _ (s.relative_of_validate valid).2,
    ofUnit.parts_eq, ← List.append_assoc, List.filter_append, PathText.walk_append,
    PathText.filter_names named, PathText.walk_names named]

private theorem nodup_spots (valid : s.validate = .ok ()) (made : generate s routes = .ok code) :
    (code.files.map (spot output)).Nodup := by
  have distinct := List.Nodup.of_map _ (nodup_paths made)
  apply distinct.map_on
  intro file member other memberToo same
  obtain ⟨u, ofUnit⟩ := (mem_files_iff made).mp member
  obtain ⟨v, otherOf⟩ := (mem_files_iff made).mp memberToo
  rw [spot_of_ofUnit valid ofUnit, spot_of_ofUnit valid otherOf, List.append_cancel_left_eq,
    List.append_cancel_right_eq] at same
  have samePath : file.path = other.path := by
    rw [ofUnit.path_eq, otherOf.path_eq]
    exact congrArg (fun segments => ModulePath.filePath ⟨segments⟩ s) same
  exact List.inj_on_of_nodup_map (nodup_paths made) member memberToo samePath

/-- All generated files are placed below the output directory when the directory of module files is,
or when there are none. -/
theorem below_iff (valid : s.validate = .ok ()) (made : generate s routes = .ok code) :
    (∀ file ∈ code.files, Below output file) ↔
      routes = [] ∨ walk [] (PathText.steps output) <+: moduleRoot output s := by
  obtain ⟨plan, planned, _⟩ := exists_generate.mp ⟨code, made⟩
  have tree := ModulePlan.treeOf_ofRoutes planned
  have above {file : SourceFile} {u : ModuleUnit} (ofUnit : file.OfUnit s routes u) :
      (spot output file).dropLast = moduleRoot output s ++ u.path.segments := by
    rw [spot_of_ofUnit valid ofUnit, ← List.append_assoc, List.dropLast_concat]
  constructor
  · intro each
    refine or_iff_not_imp_left.mpr fun nonempty => ?_
    obtain ⟨r, present⟩ := List.exists_mem_of_ne_nil routes nonempty
    -- The root module has a file, which is placed in the directory of module files itself.
    have isModule : ModulePath.root ∈ plan.modules :=
      (tree.covered _).mpr ⟨r, present, List.nil_prefix⟩
    obtain ⟨file, u, ofUnit, path⟩ := exists_ofUnit made planned isModule
    have below := each file ((mem_files_iff made).mpr ⟨u, ofUnit⟩)
    rw [Below, above ofUnit, path] at below
    simpa [ModulePath.root] using below
  · rintro (rfl | below) file member <;> obtain ⟨u, ofUnit⟩ := (mem_files_iff made).mp member
    · obtain ⟨r, present, _⟩ := (tree.covered _).mp (ofUnit.mem_modules planned)
      cases present
    · rw [Below, above ofUnit]
      exact below.trans (List.prefix_append _ _)

end Places

/-- What a run comes to before it writes: a plan, the routes that are loaded, and the files that are
generated for those of them that are not excluded. -/
structure Yields (options : GenerateOptions) (cwd : String) (root : FileNode) (plan : RunPlan)
    (loaded : List Route) (code : SourceFiles) : Prop where
  resolved : RunPlan.resolve options cwd root = .ok plan
  loads : Loads root plan.inputs loaded
  valid : plan.settings.validate = .ok ()
  generated : generate plan.settings (remaining plan.exclude loaded) = .ok code

/-- A run fails before it writes: its options have no plan, its routes are not loaded, or the routes
that are not excluded are not rendered. -/
inductive FailsEarly (options : GenerateOptions) (cwd : String) (root : FileNode) : Trouble → Prop
  | planning {trouble : Trouble} (fails : RunPlan.resolve options cwd root = .error trouble) :
      FailsEarly options cwd root trouble
  | loading {plan : RunPlan} {trouble : Trouble}
      (resolved : RunPlan.resolve options cwd root = .ok plan)
      (fails : loadRoutes root plan.inputs = .error trouble) : FailsEarly options cwd root trouble
  | rendering {plan : RunPlan} {loaded : List Route} {failure : Failure}
      (resolved : RunPlan.resolve options cwd root = .ok plan)
      (loads : Loads root plan.inputs loaded)
      (fails : (do plan.settings.validate; generate plan.settings (remaining plan.exclude loaded)) =
        .error failure) : FailsEarly options cwd root (.of failure)

/-- A summary of a run: where it writes, how many routes it has generated and left out, and its
files. -/
structure Reports (summary : RunSummary) (plan : RunPlan) (loaded : List Route) (code : SourceFiles)
    (dryRun : Bool) : Prop where
  outputDir : summary.outputDir = plan.output
  routes : summary.routes = (remaining plan.exclude loaded).length
  counted : summary.routes + summary.excluded = loaded.length
  files : summary.files = code.files.map (·.path)
  bytes : summary.bytes = code.totalBytes
  dryRun : summary.dryRun = dryRun

/-- The files of a list are written to a tree, each at its path from the output directory, and the
tree has all other files of another one and no more. -/
structure Writes (output : String) (files : List SourceFile) (root tree : FileNode) : Prop where
  readable : ∀ file ∈ files, tree.readText (PathText.join output file.path) = .ok file.content
  placed : ∀ file ∈ files, tree.look (spot output file) = some (.file (.text file.content))
  file_iff : ∀ names content, (∀ file ∈ files, names ≠ spot output file) →
    (tree.look names = some (.file content) ↔ root.look names = some (.file content))

section Runs

variable {options : GenerateOptions} {cwd : String} {root tree other : FileNode} {plan : RunPlan}
  {loaded : List Route} {code : SourceFiles} {trouble : Trouble} {summary : RunSummary}

private theorem prepare_eq_ok_iff {p : Prepared} : prepare options cwd root = .ok p ↔
    ∃ plan loaded code, Yields options cwd root plan loaded code ∧
      p = ⟨plan, loaded.length, remaining plan.exclude loaded, code⟩ := by
  simp only [prepare_eq_ok, prepareFrom_eq_ok, loadRoutes_eq_ok]
  constructor
  · intro ⟨plan, loaded, resolved, loads, code, valid, generated, same⟩
    exact ⟨plan, loaded, code, ⟨resolved, loads, valid, generated⟩, same⟩
  · intro ⟨plan, loaded, code, yields, same⟩
    exact ⟨plan, loaded, yields.resolved, yields.loads, code, yields.valid, yields.generated, same⟩

/-- Preparing fails with what settings or generation fail with. -/
theorem prepareFrom_eq_error : prepareFrom plan loaded = .error trouble ↔ ∃ failure,
    (do plan.settings.validate; generate plan.settings (remaining plan.exclude loaded)) =
      .error failure ∧ trouble = .of failure := by
  rw [← renderModules_eq, prepareFrom, Outcome.bind_eq_error, liftFailure,
    Outcome.mapError_eq_error]
  simp only [eq_comm (b := trouble)]
  apply or_iff_left
  rintro ⟨code, _, succeeds⟩
  cases succeeds

private theorem prepare_eq_error_iff : prepare options cwd root = .error trouble ↔
    FailsEarly options cwd root trouble := by
  have late {plan : RunPlan} :
      (do prepareFrom plan (← loadRoutes root plan.inputs)) = .error trouble ↔
        loadRoutes root plan.inputs = .error trouble ∨
          ∃ loaded, Loads root plan.inputs loaded ∧ prepareFrom plan loaded = .error trouble := by
    simp only [Outcome.bind_eq_error, loadRoutes_eq_ok]
  rw [prepare, Outcome.bind_eq_error]
  simp only [late, prepareFrom_eq_error]
  constructor
  · rintro (fails | ⟨plan, resolved, fails | ⟨loaded, loads, failure, fails, rfl⟩⟩)
    · exact .planning fails
    · exact .loading resolved fails
    · exact .rendering resolved loads fails
  · intro early
    cases early with
    | planning fails => exact Or.inl fails
    | loading resolved fails => exact Or.inr ⟨_, resolved, Or.inl fails⟩
    | rendering resolved loads fails =>
        exact Or.inr ⟨_, resolved, Or.inr ⟨_, loads, _, fails, rfl⟩⟩

/-- The summary of a run that has generated files from loaded routes. -/
def runSummary (plan : RunPlan) (loaded : List Route) (code : SourceFiles) (dryRun : Bool) :
    RunSummary :=
  Prepared.summary ⟨plan, loaded.length, remaining plan.exclude loaded, code⟩ dryRun

private theorem reports_runSummary (plan : RunPlan) (loaded : List Route) (code : SourceFiles)
    (dryRun : Bool) : Reports (runSummary plan loaded code dryRun) plan loaded code dryRun where
  outputDir := rfl
  routes := rfl
  counted := Nat.add_sub_cancel' (List.length_filter_le _ _)
  files := rfl
  bytes := rfl
  dryRun := rfl

/-- Generated files that have been written are all there, and no other file has changed. -/
theorem writes_of_writeFiles {output : String} {s : Settings} {routes : List Route}
    (valid : s.validate = .ok ()) (made : generate s routes = .ok code)
    (within : root.look [] = some .directory)
    (wrote : writeFiles output root code.files = (tree, .ok ())) :
    Writes output code.files root tree := by
  have isIndex : ∀ file ∈ code.files, lastPart file.path = "index.ts" := by
    intro file member
    obtain ⟨u, ofUnit⟩ := (mem_files_iff made).mp member
    exact ofUnit.lastPart_eq
  have named : ∀ file ∈ code.files, IsName (lastPart file.path) := by
    intro file member
    rw [isIndex file member]
    decide
  have all := allPlaced_of_writeFiles named (nodup_spots valid made) within wrote
  refine ⟨fun file member => ?_, all.placed, all.file_iff⟩
  have reached := all.reached file member
  apply reached.readText_eq_ok (named file member) _ _ (all.placed file member) <;>
    rw [isIndex file member] <;> decide

/-- A run that fails before it writes leaves the tree as it is. -/
theorem perform_of_failsEarly (early : FailsEarly options cwd root trouble) :
    perform options cwd root = (root, .error trouble) := by
  rw [perform, prepare_eq_error_iff.mpr early]

/-- A run that has generated its files writes them, unless it is a dry run. -/
theorem perform_of_yields (yields : Yields options cwd root plan loaded code) :
    perform options cwd root =
      if options.dryRun then (root, .ok (runSummary plan loaded code options.dryRun))
      else match writeFiles plan.output root code.files with
        | (tree, .ok ()) => (tree, .ok (runSummary plan loaded code options.dryRun))
        | (tree, .error failure) => (tree, .error (.of failure)) := by
  rw [perform, prepare_eq_ok_iff.mpr ⟨plan, loaded, code, yields, rfl⟩]
  rfl

private theorem perform_of_writeFiles (yields : Yields options cwd root plan loaded code)
    (writes : options.dryRun = false)
    (wrote : writeFiles plan.output root code.files = (tree, .ok ())) :
    perform options cwd root = (tree, .ok (runSummary plan loaded code options.dryRun)) := by
  rw [perform_of_yields yields, writes, if_neg Bool.false_ne_true, wrote]

/-- A run fails before it writes, or has generated its files then. -/
theorem failsEarly_or_yields (options : GenerateOptions) (cwd : String) (root : FileNode) :
    (∃ trouble, FailsEarly options cwd root trouble) ∨
      ∃ plan loaded code, Yields options cwd root plan loaded code := by
  rcases prepared : prepare options cwd root with trouble | p
  · exact Or.inl ⟨trouble, prepare_eq_error_iff.mp prepared⟩
  · obtain ⟨plan, loaded, code, yields, _⟩ := prepare_eq_ok_iff.mp prepared
    exact Or.inr ⟨plan, loaded, code, yields⟩

/-- A run that succeeds reports what it came to. It has written all of its files, or nothing in a
dry run. -/
theorem perform_eq_ok (succeeds : perform options cwd root = (tree, .ok summary)) :
    ∃ plan loaded code, Yields options cwd root plan loaded code ∧
      summary = runSummary plan loaded code options.dryRun ∧
      (options.dryRun = false → writeFiles plan.output root code.files = (tree, .ok ())) := by
  rcases failsEarly_or_yields options cwd root with ⟨trouble, early⟩ | ⟨plan, loaded, code, yields⟩
  · rw [perform_of_failsEarly early] at succeeds
    cases succeeds
  refine ⟨plan, loaded, code, yields, ?_⟩
  rw [perform_of_yields yields] at succeeds
  cases dry : options.dryRun with
  | true =>
      rw [dry, if_pos rfl] at succeeds
      exact ⟨(Except.ok.inj (Prod.mk.inj succeeds).2).symm, nofun⟩
  | false =>
      rw [dry, if_neg Bool.false_ne_true] at succeeds
      rcases wrote : writeFiles plan.output root code.files with ⟨next, failure | done⟩
      · rw [wrote] at succeeds
        cases succeeds
      · rw [wrote] at succeeds
        obtain ⟨rfl, reported⟩ := Prod.mk.inj succeeds
        exact ⟨(Except.ok.inj reported).symm, fun _ => rfl⟩

/-- A run yields one plan and one list of files. -/
theorem Yields.unique {plan' : RunPlan} {loaded' : List Route} {code' : SourceFiles}
    (yields : Yields options cwd root plan loaded code)
    (also : Yields options cwd root plan' loaded' code') :
    plan = plan' ∧ loaded = loaded' ∧ code = code' := by
  obtain rfl := Except.ok.inj (yields.resolved.symm.trans also.resolved)
  obtain rfl := Except.ok.inj
    ((loadRoutes_eq_ok.mpr yields.loads).symm.trans (loadRoutes_eq_ok.mpr also.loads))
  exact ⟨rfl, rfl, Except.ok.inj (yields.generated.symm.trans also.generated)⟩

end Runs

/-- What a run does to a tree and what it reports. -/
structure Effects (options : GenerateOptions) (cwd : String) (root : FileNode) : Prop where
  /-- Failures before writing leave the tree as it is. -/
  early : ∀ trouble, FailsEarly options cwd root trouble →
    perform options cwd root = (root, .error trouble)
  /-- Only a run that is no dry run changes the tree, and only when everything is rendered. -/
  changing : (perform options cwd root).1 ≠ root →
    options.dryRun = false ∧ ∃ plan loaded code, Yields options cwd root plan loaded code
  /-- A run that succeeds has generated the files for the routes that are not excluded. If it is no
  dry run it has written exactly these files, and they are below the output directory exactly when
  the directory of module files is or when there are none. -/
  success : ∀ tree summary, perform options cwd root = (tree, .ok summary) →
    ∃ plan loaded code, Yields options cwd root plan loaded code ∧
      Reports summary plan loaded code options.dryRun ∧
      (options.dryRun = false → Writes plan.output code.files root tree ∧
        ((∀ file ∈ code.files, Below plan.output file) ↔ remaining plan.exclude loaded = [] ∨
          walk [] (PathText.steps plan.output) <+: moduleRoot plan.output plan.settings))
  /-- A dry run reports what the run itself does. -/
  dry : ∀ dry real, (perform { options with dryRun := true } cwd root).2 = .ok dry →
    (perform { options with dryRun := false } cwd root).2 = .ok real →
      dry = { real with dryRun := true }
  /-- Trees from which the same routes remain come to the same failure or the same files. -/
  excluded : ∀ other plan loaded loadedThere, RunPlan.resolve options cwd root = .ok plan →
    RunPlan.resolve options cwd other = .ok plan → Loads root plan.inputs loaded →
    Loads other plan.inputs loadedThere →
    remaining plan.exclude loaded = remaining plan.exclude loadedThere →
      (∀ trouble, FailsEarly options cwd root trouble ↔ FailsEarly options cwd other trouble) ∧
      ∀ code, Yields options cwd root plan loaded code ↔
        Yields options cwd other plan loadedThere code

private theorem failsEarly_of_remaining {options : GenerateOptions} {cwd : String}
    {root other : FileNode} {plan : RunPlan} {loaded loadedThere : List Route} {trouble : Trouble}
    (resolved : RunPlan.resolve options cwd root = .ok plan)
    (resolvedThere : RunPlan.resolve options cwd other = .ok plan)
    (loads : Loads root plan.inputs loaded) (loadsThere : Loads other plan.inputs loadedThere)
    (same : remaining plan.exclude loaded = remaining plan.exclude loadedThere)
    (early : FailsEarly options cwd root trouble) : FailsEarly options cwd other trouble := by
  cases early with
  | planning fails =>
      rw [resolved] at fails
      cases fails
  | loading resolvedToo fails =>
      obtain rfl := Except.ok.inj (resolved.symm.trans resolvedToo)
      rw [loadRoutes_eq_ok.mpr loads] at fails
      cases fails
  | rendering resolvedToo loadsToo fails =>
      obtain rfl := Except.ok.inj (resolved.symm.trans resolvedToo)
      obtain rfl := Except.ok.inj
        ((loadRoutes_eq_ok.mpr loads).symm.trans (loadRoutes_eq_ok.mpr loadsToo))
      rw [same] at fails
      exact .rendering resolvedThere loadsThere fails

/-- **What a run does.** Nothing changes before all files are rendered, nor in a dry run. A run that
succeeds has the files that are generated for the routes that remain. It writes exactly these, each
at its path from the output directory, and whether they are below this directory depends on the
directory of module files alone. -/
theorem perform_effects (options : GenerateOptions) (cwd : String)
    (entries : List (String × FileNode)) : Effects options cwd (.directory entries) where
  early := fun trouble => perform_of_failsEarly
  changing := by
    intro changed
    rcases failsEarly_or_yields options cwd (.directory entries) with
      ⟨trouble, early⟩ | ⟨plan, loaded, code, yields⟩
    · rw [perform_of_failsEarly early] at changed
      exact absurd rfl changed
    refine ⟨Bool.eq_false_iff.mpr fun dry => changed ?_, plan, loaded, code, yields⟩
    rw [perform_of_yields yields, if_pos dry]
  success := by
    intro tree summary succeeds
    obtain ⟨plan, loaded, code, yields, rfl, wrote⟩ := perform_eq_ok succeeds
    refine ⟨plan, loaded, code, yields, reports_runSummary plan loaded code options.dryRun, ?_⟩
    intro writes
    exact ⟨writes_of_writeFiles yields.valid yields.generated rfl (wrote writes),
      below_iff yields.valid yields.generated⟩
  dry := by
    intro dry real dryRun realRun
    obtain ⟨_, _, _, yields, rfl, _⟩ := perform_eq_ok (Prod.ext rfl dryRun)
    obtain ⟨_, _, _, also, rfl, _⟩ := perform_eq_ok (Prod.ext rfl realRun)
    obtain ⟨rfl, rfl, rfl⟩ := yields.unique ⟨also.resolved, also.loads, also.valid, also.generated⟩
    rfl
  excluded := by
    intro other plan loaded loadedThere resolved resolvedThere loads loadsThere same
    refine ⟨fun trouble => ⟨?_, ?_⟩, fun code => ⟨fun yields => ?_, fun yields => ?_⟩⟩
    · exact failsEarly_of_remaining resolved resolvedThere loads loadsThere same
    · exact failsEarly_of_remaining resolvedThere resolved loadsThere loads same.symm
    · exact ⟨resolvedThere, loadsThere, yields.valid, same ▸ yields.generated⟩
    · exact ⟨resolved, loads, yields.valid, same ▸ yields.generated⟩

/-- A working directory with a route, a project file that puts the directory of module files above
the output directory, and more entries. -/
def upwardTree (more : List (String × FileNode)) : FileNode :=
  .directory [("work", .directory
    (("routes.json", .file (.text
        "[\x7b\"name\":\"health\",\"method\":\"GET\",\"path\":\"/\"\x7d]")) ::
      ("sdkgen.toml", .file (.text "[generator]\nfunctional_dir = \"..\"\n")) :: more))]

/-- Options of a run that writes to a directory below the working directory. -/
def outOptions : GenerateOptions := { inputs := ["routes.json"], out := some "out" }

private theorem generate_upward : ∃ content, generate { functionalDir := ".." } Route.health =
    .ok ⟨[⟨"../index.ts", content⟩]⟩ := by
  have planned := Route.planned_health
  have texts : ∀ r ∈ Route.health, ∃ text, r.unitText { functionalDir := ".." } = .ok text := by
    simp only [Route.health, List.forall_mem_cons]
    exact ⟨⟨_, by rfl⟩, by simp⟩
  obtain ⟨⟨files⟩, made⟩ := exists_generate_of_texts planned texts (by decide)
  have paths : files.map (·.path) = ["../index.ts"] :=
    List.perm_singleton.mp ((paths_perm made planned).trans (by decide))
  obtain ⟨⟨path, content⟩, rfl, rfl⟩ := List.map_eq_singleton_iff.mp paths
  exact ⟨content, made⟩

/-- The output directory is made on the way to the file, which then leads up again. -/
theorem writeFile_upward (content : String) :
    writeFile "/work/out" (upwardTree []) ⟨"../index.ts", content⟩ =
      (upwardTree [("out", .directory []), ("index.ts", .file (.text content))], .ok ()) := by
  have way : directory "/work/out" ⟨"../index.ts", content⟩ = "/work/out/.." := by
    have above : PathText.parent? (PathText.join "/work/out" "../index.ts") =
        some "/work/out/.." := by
      decide +kernel
    rw [directory, above, Option.getD_some]
  have isLast : lastPart (PathText.join "/work/out" "../index.ts") = "index.ts" := by decide +kernel
  have plain : FileNode.holdsZero "/work/out/.." = false := by decide +kernel
  have steps : PathText.steps "/work/out/.." = ["work", "out", ".."] := by decide +kernel
  have made : (upwardTree []).createDirectories (directory "/work/out" ⟨"../index.ts", content⟩) =
      (upwardTree [("out", .directory [])], .ok ["work"]) := by
    rw [way, FileNode.createDirectories, plain, steps]
    rfl
  refine writeFile_eq_ok made ?_
  rw [isLast]
  rfl

/-- The one file of a run is placed beside the output directory, which stays empty. -/
theorem upward_perform : ∃ tree summary content,
    perform outOptions "/work" (upwardTree []) = (tree, .ok summary) ∧
      summary.outputDir = "/work/out" ∧ summary.files = ["../index.ts"] ∧
      (upwardTree []).look ["work", "index.ts"] = none ∧
      tree.look ["work", "index.ts"] = some (.file (.text content)) ∧
      tree.get? ["work", "out"] = some (.directory []) := by
  obtain ⟨content, made⟩ := generate_upward
  obtain ⟨plan, isPlan⟩ : ∃ plan : RunPlan,
      plan = ⟨["/work/routes.json"], "/work/out", [], { functionalDir := ".." }⟩ := ⟨_, rfl⟩
  have yields : Yields outOptions "/work" (upwardTree []) plan Route.health
      ⟨[⟨"../index.ts", content⟩]⟩ := by
    subst isPlan
    exact ⟨by decide +kernel, loadRoutes_eq_ok.mp (by decide +kernel), by rfl, made⟩
  have output : plan.output = "/work/out" := by rw [isPlan]
  have wrote : writeFiles plan.output (upwardTree []) [⟨"../index.ts", content⟩] =
      (upwardTree [("out", .directory []), ("index.ts", .file (.text content))], .ok ()) := by
    rw [output, writeFiles_cons, writeFile_upward]
    rfl
  exact ⟨_, _, content, perform_of_writeFiles yields rfl wrote, output, rfl, by rfl, by rfl, by rfl⟩

end Run

end RouteClient
