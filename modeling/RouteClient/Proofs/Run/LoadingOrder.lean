import RouteClient.Proofs.Files.Directories
import RouteClient.Proofs.Files.Listing
import RouteClient.Proofs.Run.Loading

/-!
# The order of loading

An input stands for itself when it is a file, and for the listing of its JSON files when it is a
directory (`Run.StandsFor`). Loading goes through the files of the first input, then through those
of the next one, and stops at the first input that is missing or file that cannot be taken
(`Run.InputFails`). `Run.loads_in_order` says this for success and failure, and that the order in
which directories hold their entries makes no difference.
-/

namespace RouteClient

open FileNode (Listing placed Relisted jsonFiles)
open Outcome (bind_eq_ok bind_eq_error FailsFirst)

namespace Run

/-- The files that an input stands for, in their order. -/
inductive StandsFor (root : FileNode) (input : String) : List (String × FileNode) → Prop where
  | file {content : Content} (found : root.lookUp input = .ok (.file content)) :
      StandsFor root input [(input, .file content)]
  | directory {entries : List (String × FileNode)} {listed : List (List String × Content)}
      (found : root.lookUp input = .ok (.directory entries))
      (listing : Listing (.directory entries) listed) :
      StandsFor root input (listed.map (placed input))

/-- Why a file cannot be taken: it has no text, or its text is no document of routes. -/
inductive FileFails : String × FileNode → Trouble → Prop where
  | unreadable {path : String} {node : FileNode} {fault : AccessFault}
      (unread : node.textOf = .error fault) :
      FileFails (path, node) (.of (.io path fault.message))
  | unparsable {path text : String} {node : FileNode} {failure : Failure}
      (read : node.textOf = .ok text) (refused : parseRoutes text = .error failure) :
      FileFails (path, node) (.failure ["failed to parse " ++ path] failure)

/-- Why an input cannot be loaded: it is missing, or one of its files cannot be taken and those
before it can. -/
inductive InputFails (root : FileNode) (input : String) : Trouble → Prop where
  | missing {fault : AccessFault} (absent : root.lookUp input = .error fault) :
      InputFails root input (.other ("input not found: " ++ input))
  | file {before after : List (String × FileNode)} {file : String × FileNode} {trouble : Trouble}
      (files : StandsFor root input (before ++ file :: after))
      (earlier : ∀ taken ∈ before, ∃ document, Holds taken document)
      (fails : FileFails file trouble) :
      InputFails root input trouble

variable {root other : FileNode} {input : String} {trouble : Trouble}
  {files : List (String × FileNode)}

/-- An input that is found stands for files. -/
theorem exists_inputFiles (proper : root.Proper) {node : FileNode}
    (found : root.lookUp input = .ok node) :
    ∃ files, inputFiles root input = .ok files ∧ StandsFor root input files := by
  cases node with
  | file content =>
      refine ⟨_, ?_, .file found⟩
      rw [inputFiles, found]
  | directory entries =>
      have within := (FileNode.lookUp_eq_directory found).2
      obtain ⟨listed, listing, walked⟩ := FileNode.exists_listing input _ (proper.get? within)
      refine ⟨_, ?_, .directory found listing⟩
      rw [inputFiles, found, ← walked]

/-- An input stands for one list of files. -/
theorem StandsFor.unique {again : List (String × FileNode)} (stands : StandsFor root input files)
    (second : StandsFor root input again) : files = again := by
  cases stands with
  | file found =>
      cases second with
      | file foundAgain =>
          rw [found, Except.ok.injEq] at foundAgain
          rw [foundAgain]
      | directory foundAgain =>
          rw [found] at foundAgain
          cases foundAgain
  | directory found listing =>
      cases second with
      | file foundAgain =>
          rw [found] at foundAgain
          cases foundAgain
      | directory foundAgain listingAgain =>
          rw [found, Except.ok.injEq] at foundAgain
          rw [← foundAgain] at listingAgain
          rw [listing.unique listingAgain]

/-- The files of an input are those that it stands for. -/
theorem inputFiles_eq_ok (proper : root.Proper) :
    inputFiles root input = .ok files ↔ StandsFor root input files := by
  constructor
  · intro listed
    cases found : root.lookUp input with
    | error fault =>
        rw [inputFiles, found] at listed
        cases listed
    | ok node =>
        obtain ⟨again, listedAgain, stands⟩ := exists_inputFiles proper found
        rw [listed, Except.ok.injEq] at listedAgain
        exact listedAgain ▸ stands
  · intro stands
    obtain ⟨node, found⟩ : ∃ node, root.lookUp input = .ok node := by
      cases stands with
      | file found => exact ⟨_, found⟩
      | directory found => exact ⟨_, found⟩
    obtain ⟨again, listed, second⟩ := exists_inputFiles proper found
    rw [listed, stands.unique second]

private theorem inputFiles_eq_error : inputFiles root input = .error trouble ↔
    (∃ fault, root.lookUp input = .error fault) ∧
      trouble = .other ("input not found: " ++ input) := by
  unfold inputFiles
  cases root.lookUp input with
  | error fault => simp [eq_comm]
  | ok node => cases node <;> simp

private theorem fileRoutes_eq_error {file : String × FileNode} :
    fileRoutes file.1 file.2 = .error trouble ↔ FileFails file trouble := by
  obtain ⟨path, node⟩ := file
  unfold fileRoutes
  constructor
  · intro fails
    cases read : node.textOf with
    | error fault =>
        rw [read, Except.error.injEq] at fails
        exact fails ▸ .unreadable read
    | ok text =>
        rw [read] at fails
        obtain ⟨failure, refused, rfl⟩ := Outcome.mapError_eq_error.mp fails
        exact .unparsable read refused
  · intro fails
    cases fails with
    | unreadable unread => rw [unread]
    | unparsable read refused =>
        rw [read]
        exact Outcome.mapError_eq_error.mpr ⟨_, refused, rfl⟩

private theorem inputRoutes_eq_error (proper : root.Proper) :
    inputRoutes root input = .error trouble ↔ InputFails root input trouble := by
  have files : (∃ files, inputFiles root input = .ok files ∧
      FailsFirst (fun file => fileRoutes file.1 file.2) files trouble) ↔
      ∃ before file after, StandsFor root input (before ++ file :: after) ∧
        (∀ taken ∈ before, ∃ document, Holds taken document) ∧ FileFails file trouble := by
    simp only [inputFiles_eq_ok proper, FailsFirst, fileRoutes_eq_ok, fileRoutes_eq_error]
    constructor
    · intro failing
      obtain ⟨_, stands, before, file, after, split, rest⟩ := failing
      exact ⟨before, file, after, split ▸ stands, rest⟩
    · intro failing
      obtain ⟨before, file, after, stands, rest⟩ := failing
      exact ⟨_, stands, before, file, after, rfl, rest⟩
  have whole : inputRoutes root input = .error trouble ↔
      inputFiles root input = .error trouble ∨ ∃ files, inputFiles root input = .ok files ∧
        FailsFirst (fun file => fileRoutes file.1 file.2) files trouble := by
    rw [inputRoutes, bind_eq_error]
    refine or_congr_right (exists_congr fun files => and_congr_right fun _ => ?_)
    rw [← Outcome.mapM_eq_error, bind_eq_error]
    refine ⟨fun fails => fails.resolve_right ?_, Or.inl⟩
    rintro ⟨_, _, done⟩
    cases done
  rw [whole, files, inputFiles_eq_error]
  constructor
  · rintro (⟨⟨fault, absent⟩, rfl⟩ | ⟨before, file, after, stands, earlier, fails⟩)
    · exact .missing absent
    · exact .file stands earlier fails
  · intro fails
    cases fails with
    | missing absent => exact Or.inl ⟨⟨_, absent⟩, rfl⟩
    | file stands earlier fails => exact Or.inr ⟨_, _, _, stands, earlier, fails⟩

/-- An input is loaded when all files that it stands for hold documents. -/
theorem exists_inputRoutes (proper : root.Proper) :
    (∃ loaded, inputRoutes root input = .ok loaded) ↔
      ∃ files, StandsFor root input files ∧ ∀ file ∈ files, ∃ document, Holds file document := by
  simp only [← inputFiles_eq_ok proper, inputRoutes, bind_eq_ok, ← fileRoutes_eq_ok,
    ← Outcome.exists_mapM_eq_ok]
  constructor
  · intro loads
    obtain ⟨_, files, listed, documents, taken, _⟩ := loads
    exact ⟨files, listed, documents, taken⟩
  · intro standing
    obtain ⟨files, listed, documents, taken⟩ := standing
    exact ⟨_, files, listed, documents, taken, rfl⟩

private theorem mapM_inputFiles (proper : root.Proper) {inputs : List String}
    {files : List (List (String × FileNode))} :
    inputs.mapM (inputFiles root) = .ok files ↔ List.Forall₂ (StandsFor root) inputs files := by
  rw [Outcome.mapM_eq_ok, ← List.forall₂_eq_eq_eq, List.forall₂_map_left_iff,
    List.forall₂_map_right_iff]
  simp only [inputFiles_eq_ok proper]

/-- Loading fails with the first input that fails. -/
theorem loadRoutes_eq_error (proper : root.Proper) {inputs : List String} :
    loadRoutes root inputs = .error trouble ↔ ∃ before input after,
      inputs = before ++ input :: after ∧
      (∀ earlier ∈ before, ∃ files, StandsFor root earlier files ∧
        ∀ file ∈ files, ∃ document, Holds file document) ∧
      InputFails root input trouble := by
  have whole : loadRoutes root inputs = .error trouble ↔
      FailsFirst (inputRoutes root) inputs trouble := by
    rw [loadRoutes, bind_eq_error, ← Outcome.mapM_eq_error]
    refine ⟨fun fails => fails.resolve_right ?_, Or.inl⟩
    rintro ⟨_, _, done⟩
    cases done
  simp only [whole, FailsFirst, exists_inputRoutes proper, inputRoutes_eq_error proper]

/-- An input has the same files when the entries of directories are listed in another order. -/
theorem inputFiles_relisted (proper : root.Proper) (relisted : Relisted root other)
    (input : String) : inputFiles other input = inputFiles root input := by
  rcases relisted.lookUp input with ⟨fault, absent, absentOther⟩ |
    ⟨node, nodeOther, found, foundOther, same⟩
  · rw [inputFiles, inputFiles, absent, absentOther]
  · rw [inputFiles, inputFiles, found, foundOther]
    cases same with
    | file content => rfl
    | directory names each =>
        have within := (FileNode.lookUp_eq_directory found).2
        exact congrArg Except.ok
          ((Relisted.directory names each).jsonFiles_eq (proper.get? within) input)

/-- **Routes are loaded in the order of inputs and names.** A directory is walked to its listing, in
which no file stands twice. What is loaded are the routes of the files that the inputs stand for,
one file after the other. Loading fails with the first input that is missing or file that cannot be
taken. The order of the entries of directories has no influence. -/
theorem loads_in_order {root : FileNode} (proper : root.Proper) :
    (∀ dir, ∃ listed, Listing root listed ∧ (listed.map (·.1)).Nodup ∧
      jsonFiles dir root = listed.map (placed dir)) ∧
    (∀ inputs loaded, loadRoutes root inputs = .ok loaded ↔ ∃ files documents,
      List.Forall₂ (StandsFor root) inputs files ∧
        List.Forall₂ Holds files.flatten documents ∧ loaded = documents.flatten) ∧
    (∀ inputs trouble, loadRoutes root inputs = .error trouble ↔ ∃ before input after,
      inputs = before ++ input :: after ∧
      (∀ earlier ∈ before, ∃ files, StandsFor root earlier files ∧
        ∀ file ∈ files, ∃ document, Holds file document) ∧
      InputFails root input trouble) ∧
    ∀ other, Relisted root other → (∀ dir, jsonFiles dir other = jsonFiles dir root) ∧
      ∀ inputs, loadRoutes other inputs = loadRoutes root inputs := by
  refine ⟨fun dir => ?_, fun inputs loaded => ?_, fun inputs trouble => loadRoutes_eq_error proper,
    fun other relisted => ⟨relisted.jsonFiles_eq proper, fun inputs => ?_⟩⟩
  · obtain ⟨listed, listing, walked⟩ := FileNode.exists_listing dir root proper
    exact ⟨listed, listing, listing.nodup, walked⟩
  · simp only [loadRoutes_eq_ok, Loads, mapM_inputFiles proper]
  · have same : inputRoutes other = inputRoutes root := by
      funext input
      rw [inputRoutes, inputRoutes, inputFiles_relisted proper relisted]
    rw [loadRoutes, loadRoutes, same]

/-- A directory in which the order of paths as texts differs from that of their names. -/
def mixedTree : FileNode :=
  .directory
    [(".json", .file (.text "[]")),
     ("a", .directory [("c.json", .file (.bytes [255]))]),
     ("a.json", .file (.text "[]")),
     ("b.json", .directory [("x.json", .file (.text "[]"))])]

/-- The files of this directory in the order of names, which is not that of their paths. -/
theorem mixedTree_loads : mixedTree.Proper ∧ ∃ listed, Listing mixedTree listed ∧
    (listed.map (placed "in")).map (·.1) = ["in/a/c.json", "in/a.json", "in/b.json/x.json"] := by
  have proper : mixedTree.Proper :=
    ⟨by decide, trivial, ⟨by decide, trivial, trivial⟩, trivial, ⟨by decide, trivial, trivial⟩,
      trivial⟩
  have ofOne (dir name : String) (content : Content) :
      jsonFiles dir (.directory [(name, .file content)]) =
        if FileNode.hasJsonExtension name then [(PathText.join dir name, .file content)]
        else [] := by
    simp [jsonFiles, FileNode.entryFiles, FileNode.inNameOrder]
  obtain ⟨listed, listing, _, walked⟩ := (loads_in_order proper).1 "in"
  refine ⟨proper, listed, listing, ?_⟩
  rw [← walked, mixedTree, jsonFiles, FileNode.inNameOrder,
    List.mergeSort_of_pairwise (by decide +kernel)]
  simp only [FileNode.entryFiles, ofOne]
  decide +kernel

end Run

end RouteClient
