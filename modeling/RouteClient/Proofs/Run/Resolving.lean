import RouteClient.Proofs.Run.Placing
import RouteClient.Run.Resolve

/-!
# Options and project file

How options and a project file settle what a run does. `RunPlan.UsesFile` says which project file a
run has, `RunPlan.Loaded` that it can be loaded and in which directory it stands, and
`RunPlan.Merges` which of the two decides each part of the plan, and from which directory its paths
are taken. The main statement, `RunPlan.resolve_settles`, puts them together with the troubles, in
the order in which they are found.
-/

namespace RouteClient

open Outcome (bind_eq_ok)
open PathText (IsName walk)

namespace FileNode

variable {root : FileNode} {place steps target : List String} {step path text : String}
  {content : Content}

/-- Steps that can be followed lead to a directory before the last of them. -/
theorem follow_concat (reached : follow root place (steps ++ [step]) = .ok target) :
    ∃ passed, follow root place steps = .ok passed ∧ root.look passed = some .directory ∧
      follow root passed [step] = .ok target := by
  induction steps generalizing place with
  | nil => exact ⟨place, rfl, look_of_follow reached, reached⟩
  | cons first steps ih =>
      have within := look_of_follow reached
      rw [List.cons_append, follow_cons within] at reached
      rw [follow_cons within]
      cases short : nameFault? first with
      | some fault =>
          rw [short] at reached
          cases reached
      | none =>
          simp only [short] at reached ⊢
          split_ifs at reached ⊢ with present
          exact ih reached

/-- The last step to a file goes down to it. -/
theorem follow_file (reached : follow root place (steps ++ [step]) = .ok target)
    (isFile : root.look target = some (.file content)) :
    step ≠ "." ∧ step ≠ ".." ∧ root.look (walk place steps) = some .directory ∧
      target = walk place steps ++ [step] := by
  obtain ⟨passed, before, within, last⟩ := follow_concat reached
  obtain ⟨rfl, _⟩ := follow_eq_ok before within
  rw [follow_cons within] at last
  split at last
  next => cases last
  next =>
    split_ifs at last
    rw [follow, Except.ok.injEq] at last
    subst last
    have inDirectory : root.look (walk place steps) ≠ some (.file content) := by
      simp [within]
    have above : root.look (walk place steps).dropLast ≠ some (.file content) := by
      simp [look_dropLast within]
    have stays : step ≠ "." := by
      rintro rfl
      exact inDirectory isFile
    have goesUp : step ≠ ".." := by
      rintro rfl
      exact above isFile
    refine ⟨stays, goesUp, within, ?_⟩
    rw [walk, if_neg stays, if_neg goesUp, walk]

end FileNode

namespace PathText

variable {path last : String} {above : List String}

private theorem endsWithSlash_of_parts (nonempty : path ≠ "") (split : parts path = above ++ [""]) :
    endsWithSlash path = true := by
  by_cases empty : above = []
  · rw [empty, List.nil_append, ← parts_empty] at split
    exact absurd (parts_inj split) nonempty
  · have plain : ∀ part ∈ above, '/' ∉ part.toList := by
      intro part member
      have listed : part ∈ parts path := split ▸ List.mem_append_left _ member
      exact slash_not_mem_parts listed
    have same : parts ("/".intercalate above ++ "/") = above ++ [""] := by
      rw [parts_slash_end, parts_intercalate empty plain]
    rw [parts_inj (split.trans same.symm)]
    simp [endsWithSlash]

private theorem exists_parent? (split : parts path = above ++ [last]) (named : IsName last) :
    ∃ base, parent? path = some base := by
  have reversed : (parts path).reverse = last :: above.reverse := by simp [split]
  simp only [parent?, reversed, dropIdle_of_name named]
  exact ⟨_, rfl⟩

end PathText

namespace FileNode

variable {root : FileNode} {path : String} {content : Content}

/-- A path to a file ends with a name, in a directory that the parts before it lead to. -/
theorem exists_parts (found : root.lookUp path = .ok (.file content)) :
    ∃ above last, PathText.parts path = above ++ [last] ∧ IsName last ∧
      root.look (walk [] (above.filter (· ≠ ""))) = some .directory := by
  unfold lookUp at found
  split_ifs at found with zero empty
  obtain ⟨target, reached, found⟩ := bind_eq_ok.mp found
  have isFile : root.look target = some (.file content) := by
    split at found
    next node isNode => rw [look, isNode, Except.ok.inj found]; rfl
    next => cases found
  have split := (List.dropLast_append_getLast (PathText.parts_ne_nil path)).symm
  generalize (PathText.parts path).dropLast = above,
    (PathText.parts path).getLast (PathText.parts_ne_nil path) = last at split
  have plain : PathText.endsWithSlash path = false := by
    apply Bool.eq_false_iff.mpr
    intro ends
    rw [PathText.steps, if_pos ends] at reached
    exact (follow_file reached isFile).1 rfl
  have nonempty : last ≠ "" := by
    rintro rfl
    rw [PathText.endsWithSlash_of_parts empty split] at plain
    cases plain
  have kept : [last].filter (· ≠ "") = [last] := List.filter_cons_of_pos (decide_eq_true nonempty)
  rw [PathText.steps, plain, if_neg Bool.false_ne_true, List.append_nil, split, List.filter_append,
    kept] at reached
  obtain ⟨stays, goesUp, within, _⟩ := follow_file reached isFile
  exact ⟨above, last, split, ⟨nonempty, stays, goesUp⟩, within⟩

/-- A file stands in the directory that the path above its own leads to. -/
theorem exists_base (found : root.lookUp path = .ok (.file content)) :
    ∃ base, PathText.parent? path = some base ∧
      root.look (walk [] (PathText.steps base)) = some .directory ∧
      ∃ name, walk [] (PathText.steps path) = walk [] (PathText.steps base) ++ [name] := by
  obtain ⟨above, last, split, named, within⟩ := exists_parts found
  obtain ⟨base, parent⟩ := PathText.exists_parent? split named
  obtain ⟨front, early, late, toBase, toAbove, idle, idleToo, _⟩ :=
    PathText.steps_parent? split named
  rw [parent, Option.getD_some] at toBase
  have same : walk [] (PathText.steps base) = walk [] (above.filter (· ≠ "")) := by
    rw [toBase, toAbove, PathText.walk_append, PathText.walk_append, PathText.walk_idle idle,
      PathText.walk_idle idleToo]
  refine ⟨base, parent, same ▸ within, last, ?_⟩
  rw [PathText.steps_of_name split named, PathText.walk_append, same]
  exact PathText.walk_names (List.forall_mem_singleton.mpr named)

end FileNode

namespace RunPlan

open PathText (join)

/-- The project file that a run uses: the one that is named, or else the one in the working
directory if a file stands there. -/
inductive UsesFile (options : GenerateOptions) (cwd : String) (root : FileNode) :
    Option String → Prop where
  | named {config : String} (given : options.config = some config) :
      UsesFile options cwd root (some (join cwd config))
  | standing {content : Content} (unnamed : options.config = none)
      (found : root.lookUp (join cwd "sdkgen.toml") = .ok (.file content)) :
      UsesFile options cwd root (some (join cwd "sdkgen.toml"))
  | missing (unnamed : options.config = none)
      (absent : ∀ content, root.lookUp (join cwd "sdkgen.toml") ≠ .ok (.file content)) :
      UsesFile options cwd root none

/-- The project file at a path can be loaded, and its settings are valid. It stands in the directory
`base`. -/
structure Loaded (root : FileNode) (path base : String) (file : ProjectFile) : Prop where
  read : ∃ text, root.readText path = .ok text ∧ ProjectFile.parse text = .ok file
  valid : file.settings.validate = .ok ()
  above : PathText.parent? path = some base
  directory : root.look (walk [] (PathText.steps base)) = some .directory
  inside : ∃ name, walk [] (PathText.steps path) = walk [] (PathText.steps base) ++ [name]

/-- The output directory and the inputs of a plan are those of the options, from the working
directory, or else those of the file, from its own directory. Excluded entries are those of both,
and the settings are those of the file. -/
structure Merges (options : GenerateOptions) (cwd base : String) (file : ProjectFile)
    (plan : RunPlan) : Prop where
  output : (∃ out, options.out = some out ∧ plan.output = join cwd out) ∨
    options.out = none ∧ ∃ output, file.output = some output ∧ plan.output = join base output
  inputs : (options.inputs ≠ [] ∧ plan.inputs = options.inputs.map (join cwd)) ∨
    options.inputs = [] ∧ file.input ≠ [] ∧ plan.inputs = file.input.map (join base)
  exclude : plan.exclude = file.exclude ++ options.exclude
  settings : plan.settings = file.settings

variable {options : GenerateOptions} {cwd path base : String} {root : FileNode} {file : ProjectFile}
  {plan : RunPlan}

/-- How a run with given options is settled. -/
inductive Settles (options : GenerateOptions) (cwd : String) (root : FileNode) :
    Except Trouble RunPlan → Prop where
  | unreadable {path : String} {fault : AccessFault} (uses : UsesFile options cwd root (some path))
      (unread : root.readText path = .error fault) :
      Settles options cwd root
        (.error (.other ("failed to read config file " ++ path ++ ": " ++ fault.message)))
  | invalid {path text : String} {failure : Failure} (uses : UsesFile options cwd root (some path))
      (read : root.readText path = .ok text) (refused : ProjectFile.parse text = .error failure) :
      Settles options cwd root (.error (.failure ["invalid config file " ++ path] failure))
  | noOutput {path base : String} {file : ProjectFile}
      (uses : UsesFile options cwd root (some path))
      (loaded : Loaded root path base file) (noOption : options.out = none)
      (notInFile : file.output = none) :
      Settles options cwd root (.error (.of (.configuration .noOutput)))
  | noInput {path base : String} {file : ProjectFile} (uses : UsesFile options cwd root (some path))
      (loaded : Loaded root path base file) (output : options.out ≠ none ∨ file.output ≠ none)
      (noOption : options.inputs = []) (notInFile : file.input = []) :
      Settles options cwd root (.error (.of (.configuration .noInput)))
  | merged {path base : String} {file : ProjectFile} {plan : RunPlan}
      (uses : UsesFile options cwd root (some path)) (loaded : Loaded root path base file)
      (merges : Merges options cwd base file plan) :
      Settles options cwd root (.ok plan)
  | noOutputOption (uses : UsesFile options cwd root none) (noOption : options.out = none) :
      Settles options cwd root (.error (.of (.configuration .noOutputOption)))
  | noInputOption (uses : UsesFile options cwd root none) (output : options.out ≠ none)
      (noOption : options.inputs = []) :
      Settles options cwd root (.error (.of (.configuration .noInput)))
  | plain {out : String} (uses : UsesFile options cwd root none) (given : options.out = some out)
      (inputs : options.inputs ≠ []) :
      Settles options cwd root
        (.ok ⟨options.inputs.map (join cwd), join cwd out, options.exclude, {}⟩)

/-- The project file of a run is the one that is looked for. -/
theorem usesFile_iff {used : Option String} :
    UsesFile options cwd root used ↔ projectPath? options cwd root = used := by
  unfold projectPath? projectCandidate
  constructor
  · intro uses
    cases uses with
    | named given => simp [given]
    | standing unnamed found => simp [unnamed, defaultFile, FileNode.isFile, found]
    | missing unnamed absent =>
        have noFile : root.isFile (join cwd "sdkgen.toml") = false := by
          unfold FileNode.isFile
          split
          next content found => exact absurd found (absent content)
          next => rfl
        simp [unnamed, defaultFile, noFile]
  · rintro rfl
    cases given : options.config with
    | some config => exact .named given
    | none =>
        simp only [Option.isSome_none, Bool.false_or, Option.getD_none]
        split
        next isFile =>
          unfold FileNode.isFile at isFile
          split at isFile
          next content found => exact .standing given found
          next => cases isFile
        next noFile =>
          refine .missing given fun content found => noFile ?_
          simp [defaultFile, FileNode.isFile, found]

/-- A file that can be read as a project file is loaded with its paths taken from the directory in
which it stands. -/
theorem exists_loaded {text : String} (read : root.readText path = .ok text)
    (parsed : ProjectFile.parse text = .ok file) :
    ∃ base, Loaded root path base file ∧ loadProject root path = .ok (relocate base file) := by
  obtain ⟨node, found, isText⟩ := bind_eq_ok.mp read
  cases node with
  | directory entries => cases isText
  | file content =>
      obtain ⟨base, above, directory, inside⟩ := FileNode.exists_base found
      have valid : file.settings.validate = .ok () := by
        unfold ProjectFile.parse at parsed
        split at parsed
        next => cases parsed
        next =>
          obtain ⟨⟨⟩, valid, same⟩ := bind_eq_ok.mp parsed
          rw [← Except.ok.inj same]
          exact valid
      refine ⟨base, ⟨⟨text, read, parsed⟩, valid, above, directory, inside⟩, ?_⟩
      simp only [loadProject, read, parsed, above, Option.getD_some]

/-- A file that can be loaded is loaded, with its paths taken from its directory. -/
theorem Loaded.loadProject_eq (loaded : Loaded root path base file) :
    loadProject root path = .ok (relocate base file) := by
  obtain ⟨text, read, parsed⟩ := loaded.read
  obtain ⟨again, loadedAgain, result⟩ := exists_loaded read parsed
  have same : again = base := by
    have above := loadedAgain.above
    rw [loaded.above, Option.some.injEq] at above
    exact above.symm
  rw [result, same]

/-- Options and a project file lack an output, or they lack inputs, or they make a plan. -/
theorem exists_merges (options : GenerateOptions) (cwd base : String) (file : ProjectFile) :
    (options.out = none ∧ file.output = none) ∨
    ((options.out ≠ none ∨ file.output ≠ none) ∧ options.inputs = [] ∧ file.input = []) ∨
    ∃ plan, Merges options cwd base file plan := by
  have outputs : (options.out = none ∧ file.output = none) ∨
      (options.out ≠ none ∨ file.output ≠ none) ∧ ∃ output,
        (∃ out, options.out = some out ∧ output = join cwd out) ∨
        options.out = none ∧ ∃ given, file.output = some given ∧ output = join base given := by
    cases options.out with
    | some out => exact Or.inr ⟨Or.inl nofun, _, Or.inl ⟨out, rfl, rfl⟩⟩
    | none =>
        cases file.output with
        | some given => exact Or.inr ⟨Or.inr nofun, _, Or.inr ⟨rfl, given, rfl, rfl⟩⟩
        | none => exact Or.inl ⟨rfl, rfl⟩
  have inputs : (options.inputs = [] ∧ file.input = []) ∨ ∃ inputs,
      (options.inputs ≠ [] ∧ inputs = options.inputs.map (join cwd)) ∨
      options.inputs = [] ∧ file.input ≠ [] ∧ inputs = file.input.map (join base) := by
    by_cases noOption : options.inputs = []
    · by_cases notInFile : file.input = []
      · exact Or.inl ⟨noOption, notInFile⟩
      · exact Or.inr ⟨_, Or.inr ⟨noOption, notInFile, rfl⟩⟩
    · exact Or.inr ⟨_, Or.inl ⟨noOption, rfl⟩⟩
  rcases outputs with neither | ⟨some, output, isOutput⟩
  · exact Or.inl neither
  rcases inputs with neither | ⟨inputs, areInputs⟩
  · exact Or.inr (Or.inl ⟨some, neither⟩)
  · exact Or.inr (Or.inr
      ⟨⟨inputs, output, file.exclude ++ options.exclude, file.settings⟩, isOutput, areInputs,
        rfl, rfl⟩)

private theorem withProject_noOutput (noOption : options.out = none)
    (notInFile : file.output = none) :
    withProject options cwd (relocate base file) = .error (.of (.configuration .noOutput)) := by
  simp [withProject, relocate, noOption, notInFile]

private theorem withProject_noInput (output : options.out ≠ none ∨ file.output ≠ none)
    (noOption : options.inputs = []) (notInFile : file.input = []) :
    withProject options cwd (relocate base file) = .error (.of (.configuration .noInput)) := by
  have present : (options.out.map (join cwd)).or (file.output.map (join base)) ≠ none := by
    rw [Ne, Option.or_eq_none_iff, Option.map_eq_none_iff, Option.map_eq_none_iff]
    exact fun absent => output.elim (· absent.1) (· absent.2)
  obtain ⟨chosen, isChosen⟩ := Option.ne_none_iff_exists'.mp present
  simp [withProject, relocate, isChosen, noOption, notInFile, withInputs]

private theorem withProject_of_merges (merges : Merges options cwd base file plan) :
    withProject options cwd (relocate base file) = .ok plan := by
  have output : (options.out.map (join cwd)).or (file.output.map (join base)) =
      some plan.output := by
    rcases merges.output with ⟨out, given, same⟩ | ⟨noOption, out, given, same⟩
    · simp [given, same]
    · simp [noOption, given, same]
  have inputs : (if options.inputs.isEmpty then file.input.map (join base)
      else options.inputs.map (join cwd)) = plan.inputs ∧ plan.inputs ≠ [] := by
    rcases merges.inputs with ⟨given, same⟩ | ⟨noOption, given, same⟩
    · simp [given, same]
    · simp [noOption, given, same]
  unfold withProject relocate
  simp only [output, inputs.1, ← merges.exclude, ← merges.settings]
  exact if_neg (by simpa using inputs.2)

/-- A run is resolved in the way in which it is settled. -/
theorem Settles.resolve_eq {outcome : Except Trouble RunPlan}
    (settles : Settles options cwd root outcome) : resolve options cwd root = outcome := by
  unfold resolve
  cases settles with
  | unreadable uses unread =>
      rw [usesFile_iff.mp uses]
      simp only [loadProject, unread]
      rfl
  | invalid uses read refused =>
      rw [usesFile_iff.mp uses]
      simp only [loadProject, read, refused]
      rfl
  | noOutput uses loaded noOption notInFile =>
      rw [usesFile_iff.mp uses]
      simp only [loaded.loadProject_eq]
      exact withProject_noOutput noOption notInFile
  | noInput uses loaded output noOption notInFile =>
      rw [usesFile_iff.mp uses]
      simp only [loaded.loadProject_eq]
      exact withProject_noInput output noOption notInFile
  | merged uses loaded merges =>
      rw [usesFile_iff.mp uses]
      simp only [loaded.loadProject_eq]
      exact withProject_of_merges merges
  | noOutputOption uses noOption => simp [usesFile_iff.mp uses, withoutProject, noOption]
  | noInputOption uses output noOption =>
      obtain ⟨out, given⟩ := Option.ne_none_iff_exists'.mp output
      simp [usesFile_iff.mp uses, withoutProject, withInputs, given, noOption]
  | plain uses given inputs =>
      simp [usesFile_iff.mp uses, withoutProject, withInputs, given, inputs]

/-- Every run is settled in one of these ways. -/
theorem exists_settles (options : GenerateOptions) (cwd : String) (root : FileNode) :
    ∃ outcome, Settles options cwd root outcome := by
  cases used : projectPath? options cwd root with
  | none =>
      have uses := usesFile_iff.mpr used
      cases given : options.out with
      | none => exact ⟨_, .noOutputOption uses given⟩
      | some out =>
          by_cases noOption : options.inputs = []
          · exact ⟨_, .noInputOption uses (by simp [given]) noOption⟩
          · exact ⟨_, .plain uses given noOption⟩
  | some path =>
      have uses := usesFile_iff.mpr used
      cases read : root.readText path with
      | error fault => exact ⟨_, .unreadable uses read⟩
      | ok text =>
          cases parsed : ProjectFile.parse text with
          | error failure => exact ⟨_, .invalid uses read parsed⟩
          | ok file =>
              obtain ⟨base, loaded, _⟩ := exists_loaded read parsed
              rcases exists_merges options cwd base file with ⟨noOption, notInFile⟩ |
                ⟨output, noOption, notInFile⟩ | ⟨plan, merges⟩
              · exact ⟨_, .noOutput uses loaded noOption notInFile⟩
              · exact ⟨_, .noInput uses loaded output noOption notInFile⟩
              · exact ⟨_, .merged uses loaded merges⟩

/-- **Options come before the project file.** A run has one project file at most, and it is settled
in exactly one way. With a project file that can be loaded there is a plan when the options or the
file give an output, and the options or the file give inputs. -/
theorem resolve_settles (options : GenerateOptions) (cwd : String) (root : FileNode) :
    (∃! used, UsesFile options cwd root used) ∧
    (∀ outcome, resolve options cwd root = outcome ↔ Settles options cwd root outcome) ∧
    ∀ path base file, UsesFile options cwd root (some path) → Loaded root path base file →
      ((∃ plan, resolve options cwd root = .ok plan) ↔
        (options.out ≠ none ∨ file.output ≠ none) ∧ (options.inputs ≠ [] ∨ file.input ≠ [])) := by
  refine ⟨⟨_, usesFile_iff.mpr rfl, fun used uses => (usesFile_iff.mp uses).symm⟩,
    fun outcome => ⟨?_, Settles.resolve_eq⟩, fun path base file uses loaded => ?_⟩
  · rintro rfl
    obtain ⟨outcome, settles⟩ := exists_settles options cwd root
    exact settles.resolve_eq ▸ settles
  · rcases exists_merges options cwd base file with ⟨noOption, notInFile⟩ |
      ⟨output, noOption, notInFile⟩ | ⟨plan, merges⟩
    · simp [(Settles.noOutput uses loaded noOption notInFile).resolve_eq, noOption, notInFile]
    · simp [(Settles.noInput uses loaded output noOption notInFile).resolve_eq, noOption, notInFile]
    · refine iff_of_true ⟨plan, (Settles.merged uses loaded merges).resolve_eq⟩ ⟨?_, ?_⟩
      · rcases merges.output with ⟨_, given, _⟩ | ⟨_, _, given, _⟩
        · exact Or.inl (by simp [given])
        · exact Or.inr (by simp [given])
      · exact merges.inputs.imp (·.1) (·.2.1)

/-- A project file that does not stand in the working directory. -/
def remoteProject : FileNode :=
  .directory [("work", .directory [("conf", .directory [("sdkgen.toml", .file (.text
    "input = [\x22routes\x22]\noutput = \x22../out\x22\nexclude = [\x22/a\x22]\n"))])])]

/-- Options that name the file of `remoteProject`. -/
def remoteOptions : GenerateOptions := { exclude := ["/b"], config := some "conf/sdkgen.toml" }

/-- Paths in a project file are taken from the directory of the file, not from the working
directory. -/
theorem resolve_settles_remoteProject : ∃ file,
    UsesFile remoteOptions "/work" remoteProject (some "/work/conf/sdkgen.toml") ∧
      Loaded remoteProject "/work/conf/sdkgen.toml" "/work/conf" file ∧
        (∃ plan, resolve remoteOptions "/work" remoteProject = .ok plan) ∧
          resolve remoteOptions "/work" remoteProject =
            .ok ⟨["/work/conf/routes"], "/work/conf/../out", ["/a", "/b"], {}⟩ := by
  have joined : join "/work" "conf/sdkgen.toml" = "/work/conf/sdkgen.toml" := by decide +kernel
  have uses : UsesFile remoteOptions "/work" remoteProject (some "/work/conf/sdkgen.toml") :=
    joined ▸ .named rfl
  obtain ⟨text, read, parsed⟩ : ∃ text,
      remoteProject.readText "/work/conf/sdkgen.toml" = .ok text ∧
        ProjectFile.parse text =
          .ok { input := ["routes"], output := "../out", exclude := ["/a"] } :=
    ⟨_, by rfl, by decide +kernel⟩
  obtain ⟨base, loaded, _⟩ := exists_loaded read parsed
  obtain rfl : base = "/work/conf" :=
    Option.some_inj.mp (loaded.above.symm.trans (by decide +kernel))
  obtain ⟨_, settled, succeeds⟩ := resolve_settles remoteOptions "/work" remoteProject
  refine ⟨_, uses, loaded, (succeeds _ _ _ uses loaded).mpr ⟨by simp, by simp⟩, ?_⟩
  exact (settled _).mpr <| .merged uses loaded
    { output := Or.inr ⟨rfl, "../out", rfl, by decide +kernel⟩
      inputs := Or.inr ⟨rfl, by simp, by decide +kernel⟩
      exclude := rfl
      settings := rfl }

end RunPlan

end RouteClient
