import RouteClient.Proofs.Files.Entries
import RouteClient.Proofs.Outcome

/-!
# Directories along steps

Steps from a directory can be followed as long as they lead to directories
(`FileNode.follow_append`). Directories can be made along steps when no name is too long and no file
is in the way. They are then there, and nothing else has changed (`FileNode.makeDirectories_cases`).
-/

namespace RouteClient

open PathText (trail walk walk_mem_trail)

namespace FileNode

variable {root tree : FileNode} {place steps names : List String} {step : String} {made : Bool}

/-- A name can be looked up when it is not too long. -/
theorem nameFault?_eq_none {name : String} :
    nameFault? name = none ↔ name.utf8ByteSize ≤ maxNameBytes := by
  rw [nameFault?, ite_eq_right_iff, imp_iff_not (by simp), Nat.not_lt]

/-- Directories can be made along steps from a place: no step has a name that is too long, and none
leads to a file. -/
structure Passable (root : FileNode) (place steps : List String) : Prop where
  short : ∀ step ∈ steps, nameFault? step = none
  free : ∀ passed ∈ trail place steps, ∀ content, root.look passed ≠ some (.file content)

/-- A tree holds what another one does, and directories along steps from a place. -/
structure MadeAlong (place steps : List String) (root tree : FileNode) : Prop where
  made : ∀ passed ∈ trail place steps, tree.look passed = some .directory
  kept : ∀ names e, root.look names = some e → tree.look names = some e
  same : ∀ names, names ∉ trail place steps → tree.look names = root.look names

/-- Directories that are made along steps and then along further ones are made along all of them. -/
theorem MadeAlong.append {later : List String} {next : FileNode}
    (first : MadeAlong place steps root next)
    (second : MadeAlong (walk place steps) later next tree) :
    MadeAlong place (steps ++ later) root tree := by
  constructor
  · intro passed member
    rcases PathText.mem_trail_append.mp member with early | late
    · exact second.kept _ _ (first.made passed early)
    · exact second.made passed late
  · intro names e found
    exact second.kept names e (first.kept names e found)
  · intro names outside
    rw [PathText.mem_trail_append, not_or] at outside
    rw [second.same names outside.2, first.same names outside.1]

/-- Making directories neither adds files nor takes any away. -/
theorem MadeAlong.file_iff (along : MadeAlong place steps root tree) {content : Content} :
    tree.look names = some (.file content) ↔ root.look names = some (.file content) := by
  refine ⟨fun found => ?_, along.kept names _⟩
  by_cases inside : names ∈ trail place steps
  · rw [along.made names inside] at found
    cases found
  · rwa [along.same names inside] at found

/-- Directories can be made along steps when they can be made along the first and along the further
ones. -/
theorem passable_append {later : List String} : root.Passable place (steps ++ later) ↔
    root.Passable place steps ∧ root.Passable (walk place steps) later := by
  constructor
  · intro ⟨short, free⟩
    refine ⟨⟨fun step member => ?_, fun passed member => ?_⟩,
      fun step member => ?_, fun passed member => ?_⟩
    · exact short step (List.mem_append_left _ member)
    · exact free passed (PathText.mem_trail_append.mpr (Or.inl member))
    · exact short step (List.mem_append_right _ member)
    · exact free passed (PathText.mem_trail_append.mpr (Or.inr member))
  · intro ⟨first, second⟩
    constructor
    · intro step member
      exact (List.mem_append.mp member).elim (first.short step) (second.short step)
    · intro passed member
      exact (PathText.mem_trail_append.mp member).elim (first.free passed) (second.free passed)

private theorem MadeAlong.passable_iff {start later : List String}
    (along : MadeAlong place steps root tree) :
    tree.Passable start later ↔ root.Passable start later := by
  constructor <;> intro passable <;> refine ⟨passable.short, fun passed member content found => ?_⟩
  · exact passable.free passed member content (along.file_iff.mpr found)
  · exact passable.free passed member content (along.file_iff.mp found)

private theorem trail_step : trail place [step] = [place, walk place [step]] := by
  rw [trail, trail]

private theorem standing_step (within : root.look place = some .directory)
    (stands : root.look (walk place [step]) = some .directory) :
    ∀ passed ∈ trail place [step], root.look passed = some .directory := by
  simp only [trail_step, List.forall_mem_cons, within, stands]
  simp

private theorem MadeAlong.refl
    (standing : ∀ passed ∈ trail place steps, root.look passed = some .directory) :
    MadeAlong place steps root root :=
  ⟨standing, fun _ _ found => found, fun _ _ => rfl⟩

private theorem MadeAlong.added (within : root.look place = some .directory)
    (down : walk place [step] = place ++ [step]) (nothing : root.look (walk place [step]) = none) :
    MadeAlong place [step] root (set (.directory []) (place ++ [step]) root) := by
  have free : root.look (place ++ [step]) ≠ some .directory := by simp [← down, nothing]
  have changed (names : List String) := look_set (directory []) (fun _ _ => rfl) within free names
  rw [← down] at changed ⊢
  constructor
  · intro passed member
    rw [changed]
    split_ifs with isNew
    · rfl
    · rw [trail_step, List.mem_cons, List.mem_singleton] at member
      rw [member.resolve_right isNew, within]
  · intro names e found
    rw [changed, if_neg]
    · exact found
    · rintro rfl
      rw [nothing] at found
      cases found
  · intro names outside
    rw [changed, if_neg]
    rintro rfl
    exact outside (walk_mem_trail place [step])

private theorem passable_step (within : root.look place = some .directory)
    (short : nameFault? step = none)
    (free : ∀ content, root.look (walk place [step]) ≠ some (.file content)) :
    root.Passable place [step] := by
  refine ⟨List.forall_mem_singleton.mpr short, ?_⟩
  simp only [trail_step, List.forall_mem_cons, within]
  simp [free]

/-- A step from a directory fails, or leads to a directory, which has been made if it was not
there. -/
theorem makeRemaining_cons (within : root.look place = some .directory) (step : String)
    (steps : List String) :
    (¬root.Passable place [step] ∧
      ∃ fault, makeRemaining root made place (step :: steps) = (root, .error fault)) ∨
    root.Passable place [step] ∧ ∃ next further, MadeAlong place [step] root next ∧
      makeRemaining root made place (step :: steps) =
        makeRemaining next further (walk place [step]) steps := by
  -- From a directory, the steps that lead to no name always lead to a directory that stands.
  by_cases stays : step = "."
  · subst step
    have here : root.look (walk place ["."]) = some .directory := within
    refine Or.inr ⟨passable_step within (by decide) (by simp [here]), root,
      made, .refl (standing_step within here), ?_⟩
    simp [makeRemaining, walk]
  by_cases goesUp : step = ".."
  · subst step
    have above : root.look (walk place [".."]) = some .directory := look_dropLast within
    refine Or.inr ⟨passable_step within (by decide) (by simp [above]), root,
      made, .refl (standing_step within above), ?_⟩
    simp [makeRemaining, walk]
  have down : walk place [step] = place ++ [step] := by simp [walk, stays, goesUp]
  rw [makeRemaining, if_neg stays, if_neg goesUp]
  cases long : nameFault? step with
  | some fault =>
      refine Or.inl ⟨fun passable => ?_, fault, rfl⟩
      rw [passable.short step (List.mem_singleton_self step)] at long
      cases long
  | none =>
      cases found : root.get? (place ++ [step]) with
      | none =>
          have nothing : root.look (walk place [step]) = none := by rw [down, look, found]; rfl
          exact Or.inr ⟨passable_step within long (by simp [nothing]), _, true,
            .added within down nothing, down ▸ rfl⟩
      | some node =>
          cases node with
          | file content =>
              refine Or.inl ⟨fun passable => ?_, _, rfl⟩
              apply passable.free (walk place [step]) (by simp [trail_step]) content
              rw [down, look, found]
              rfl
          | directory entries =>
              have stands : root.look (walk place [step]) = some .directory :=
                down ▸ look_eq_directory.mpr ⟨entries, found⟩
              exact Or.inr ⟨passable_step within long (by simp [stands]), root, made,
                .refl (standing_step within stands), down ▸ rfl⟩

/-- Making directories along steps fails, or all of them are made. -/
theorem makeRemaining_cases (within : root.look place = some .directory) :
    (¬root.Passable place steps ∧
      ∃ tree fault, makeRemaining root made place steps = (tree, .error fault)) ∨
    root.Passable place steps ∧ ∃ tree, MadeAlong place steps root tree ∧
      makeRemaining root made place steps = (tree, .ok (walk place steps)) := by
  induction steps generalizing root made place with
  | nil =>
      have standing : ∀ passed ∈ trail place [], root.look passed = some .directory :=
        List.forall_mem_singleton.mpr within
      exact Or.inr ⟨⟨by simp, by simp [trail, within]⟩, root, .refl standing, rfl⟩
  | cons step steps ih =>
      have split := @passable_append root place [step] steps
      rw [List.singleton_append] at split
      rcases makeRemaining_cons within step steps with
        ⟨blocked, fault, failed⟩ | ⟨first, next, further, along, continued⟩
      · exact Or.inl ⟨fun passable => blocked (split.mp passable).1, root, fault, failed⟩
      · have isDirectory := along.made _ (walk_mem_trail place [step])
        rw [split, continued, and_iff_right first, ← along.passable_iff]
        rcases ih isDirectory with failed | ⟨passable, tree, rest, makes⟩
        · exact Or.inl failed
        · rw [PathText.walk_cons place step steps]
          exact Or.inr ⟨passable, tree, along.append rest, makes⟩

/-- The same of directories that are made from the beginning of their steps. -/
theorem makeDirectories_cases (within : root.look place = some .directory) :
    (¬root.Passable place steps ∧
      ∃ tree fault, makeDirectories root place steps = (tree, .error fault)) ∨
    root.Passable place steps ∧ ∃ tree, MadeAlong place steps root tree ∧
      makeDirectories root place steps = (tree, .ok (walk place steps)) :=
  makeRemaining_cases within

-- A file is found where a directory is to be made, or it is on the way to one that is there or not.
example :
    let root : FileNode := .directory [("f", .file (.text ""))]
    (root.makeDirectories [] ["f"]).2 = .error .fileExists ∧
      (root.makeDirectories [] ["f", "d"]).2 = .error .notDirectory ∧
        (root.makeDirectories [] ["d", "..", "f", "d"]).2 = .error .fileExists := by
  decide

/-- From a directory, a step can be followed to what stands there unless its name is too long. -/
theorem follow_cons (within : root.look place = some .directory) (step : String)
    (steps : List String) : follow root place (step :: steps) =
      match nameFault? step with
      | some fault => .error fault
      | none =>
        if (root.look (walk place [step])).isSome then follow root (walk place [step]) steps
        else .error .notFound := by
  obtain ⟨entries, found⟩ := look_eq_directory.mp within
  by_cases stays : step = "."
  · subst step
    have short : nameFault? "." = none := by decide
    simp [follow, found, walk, within, short]
  by_cases goesUp : step = ".."
  · subst step
    have short : nameFault? ".." = none := by decide
    simp [follow, found, walk, look_dropLast within, short]
  · cases long : nameFault? step <;>
      simp [follow, found, walk, stays, goesUp, look_child found, long]

/-- Steps can be followed from directories only. -/
theorem look_of_follow {target : List String}
    (reached : follow root place (step :: steps) = .ok target) :
    root.look place = some .directory := by
  rw [follow] at reached
  split at reached
  · next entries found => exact look_eq_directory.mpr ⟨entries, found⟩
  · cases reached
  · cases reached

/-- Following steps to a directory passes directories only. -/
theorem follow_eq_ok {target : List String} (reached : follow root place steps = .ok target)
    (isDirectory : root.look target = some .directory) :
    target = walk place steps ∧ (∀ step ∈ steps, nameFault? step = none) ∧
      ∀ passed ∈ trail place steps, root.look passed = some .directory := by
  induction steps generalizing place with
  | nil =>
      obtain rfl : place = target := Except.ok.inj reached
      exact ⟨rfl, by simp, by simpa [trail] using isDirectory⟩
  | cons step steps ih =>
      have within := look_of_follow reached
      rw [follow_cons within] at reached
      split at reached
      · cases reached
      · next short =>
          split_ifs at reached
          obtain ⟨target, shorter, standing⟩ := ih reached
          rw [PathText.walk_cons place step steps, trail, List.forall_mem_cons,
            List.forall_mem_cons]
          exact ⟨target, ⟨short, shorter⟩, within, standing⟩

/-- Steps that pass directories only can be followed. -/
theorem follow_append {later : List String} (short : ∀ step ∈ steps, nameFault? step = none)
    (standing : ∀ passed ∈ trail place steps, root.look passed = some .directory) :
    follow root place (steps ++ later) = follow root (walk place steps) later := by
  induction steps generalizing place with
  | nil => rfl
  | cons step steps ih =>
      rw [trail, List.forall_mem_cons] at standing
      rw [List.forall_mem_cons] at short
      obtain ⟨within, standing⟩ := standing
      have stands := standing _ (PathText.start_mem_trail (walk place [step]) steps)
      rw [List.cons_append, follow_cons within, short.1, PathText.walk_cons place step steps,
        ← ih short.2 standing, stands]
      rfl

/-- A path leads to a directory, through directories whose names are not too long. -/
structure HasDirectory (root : FileNode) (path : String) : Prop where
  plain : holdsZero path = false
  nonempty : path ≠ ""
  short : ∀ step ∈ PathText.steps path, nameFault? step = none
  standing : ∀ passed ∈ trail [] (PathText.steps path), root.look passed = some .directory

/-- A tree in which a path leads to a directory is a directory itself. -/
theorem HasDirectory.within {path : String} (standing : root.HasDirectory path) :
    root.look [] = some .directory :=
  standing.standing [] (PathText.start_mem_trail [] (PathText.steps path))

/-- What is found as a directory stands where the path leads, and can be reached. -/
theorem lookUp_eq_directory {path : String} {entries : List (String × FileNode)}
    (found : root.lookUp path = .ok (.directory entries)) : root.HasDirectory path ∧
      root.get? (walk [] (PathText.steps path)) = some (.directory entries) := by
  unfold lookUp at found
  split_ifs at found with zero empty
  obtain ⟨target, reached, found⟩ := Outcome.bind_eq_ok.mp found
  have stands : root.get? target = some (.directory entries) := by
    split at found
    · next node isNode => rw [isNode, Except.ok.inj found]
    · cases found
  obtain ⟨rfl, short, standing⟩ := follow_eq_ok reached (look_eq_directory.mpr ⟨entries, stands⟩)
  exact ⟨⟨Bool.eq_false_iff.mpr zero, empty, short, standing⟩, stands⟩

/-- A file is read at the end of steps that pass directories only. -/
theorem readText_eq_ok {path name text : String} (plain : holdsZero path = false)
    (nonempty : path ≠ "") (split : PathText.steps path = steps ++ [name])
    (short : ∀ step ∈ steps ++ [name], nameFault? step = none)
    (standing : ∀ passed ∈ trail [] steps, root.look passed = some .directory)
    (found : root.look (walk [] (steps ++ [name])) = some (.file (.text text))) :
    root.readText path = .ok text := by
  obtain ⟨node, isNode, isFile⟩ := Option.map_eq_some_iff.mp found
  have reached : root.follow [] (PathText.steps path) = .ok (walk [] (steps ++ [name])) := by
    rw [split,
      follow_append (fun step member => short step (List.mem_append_left _ member)) standing,
      follow_cons (standing _ (walk_mem_trail [] steps)), short name (by simp),
      ← PathText.walk_append, found]
    rfl
  have isText : node = .file (.text text) := by
    cases node with
    | file content => rw [Entry.file.inj isFile]
    | directory entries => cases isFile
  rw [readText, lookUp, plain, if_neg Bool.false_ne_true, if_neg nonempty, reached]
  simp only [bind, Except.bind, isNode, isText]
  rfl

end FileNode

end RouteClient
