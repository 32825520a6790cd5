import RouteClient.Proofs.Files.Directories
import RouteClient.Run.Generate

/-!
# Writing generated files

A file can be written when directories can be made on the way to it and no directory stands in its
place. Of the files and directories that were there before, none is lost (`Run.writeFile_cases`).
Files are all written when no path of one leads through another (`Run.exists_writeFiles`), and each
of them is then there (`Run.writeFiles_eq_ok`).
-/

namespace RouteClient

open PathText (IsName trail walk)

namespace SourceFile

/-- The directories that a file lies in, below the one that it is written to. -/
def directories (file : SourceFile) : List String := (PathText.parts file.path).dropLast

/-- A file with a path of names that can be written below some directory, inside of another one. -/
structure IsNested (file : SourceFile) : Prop where
  named : ∀ part ∈ PathText.parts file.path, IsName part
  inside : file.directories ≠ []
  plain : FileNode.holdsZero file.path = false

/-- The path of a file leads through directories, and one of them has the path of another file. -/
def LiesBelow (file other : SourceFile) : Prop :=
  PathText.parts other.path <+: file.directories

/-- The last part of a path is the name of its file. -/
theorem parts_eq (file : SourceFile) :
    PathText.parts file.path = file.directories ++ [Run.lastPart file.path] := by
  obtain ⟨front, last, split⟩ :=
    (List.eq_nil_or_concat _).resolve_left (PathText.parts_ne_nil file.path)
  rw [List.concat_eq_append] at split
  simp [directories, Run.lastPart, split]

private theorem IsNested.named_directories {file : SourceFile} (nested : file.IsNested) :
    ∀ name ∈ file.directories, IsName name :=
  fun name member => nested.named name (List.dropLast_subset _ member)

end SourceFile

/-- A path can be used when the zero character is not in it. -/
theorem FileNode.holdsZero_eq_false {path : String} :
    holdsZero path = false ↔ '\x00' ∉ path.toList := by
  rw [holdsZero, List.contains_eq_mem, decide_eq_false_iff_not]

private theorem FileNode.holdsZero_join {base path : String} (plainBase : holdsZero base = false)
    (plain : holdsZero path = false) : holdsZero (PathText.join base path) = false := by
  rw [holdsZero_eq_false] at *
  unfold PathText.join
  split_ifs <;> simp [plainBase, plain]

namespace Run

/-- The names that lead to a file in the output directory. -/
def target (output : String) (file : SourceFile) : List String :=
  walk [] (PathText.steps output) ++ PathText.parts file.path

/-- The path of the directory that a file is written to. -/
def directory (output : String) (file : SourceFile) : String :=
  (PathText.parent? (PathText.join output file.path)).getD ""

/-- The steps to the directory of a file. -/
def way (output : String) (file : SourceFile) : List String :=
  PathText.steps (directory output file)

/-- A file can be written to the output directory: directories can be made on the way to it, and
none stands in its place. -/
structure Writable (output : String) (root : FileNode) (file : SourceFile) : Prop where
  passable : root.Passable [] (way output file)
  free : root.look (target output file) ≠ some .directory
  /-- The way can lead up again from a directory, which must not be made in the place of the
  file. -/
  aside : target output file ∉ trail [] (way output file)

/-- A tree holds a file in the output directory, and otherwise what another tree holds and the
directories on the way to the file. -/
structure Written (output : String) (file : SourceFile) (root tree : FileNode) : Prop where
  placed : tree.look (target output file) = some (.file (.text file.content))
  made : ∀ passed ∈ trail [] (way output file), tree.look passed = some .directory
  kept : ∀ names e, names ≠ target output file → root.look names = some e → tree.look names = some e
  same : ∀ names, names ≠ target output file → names ∉ trail [] (way output file) →
    tree.look names = root.look names

variable {output : String} {root tree : FileNode} {file other : SourceFile}

/-- The way to a file leads through the output directory and then down its own directories. -/
theorem way_eq (nonempty : output ≠ "") (nested : file.IsNested) :
    ∃ front idle, way output file = front ++ file.directories ∧
      PathText.steps (PathText.join output file.path) = way output file ++ [lastPart file.path] ∧
      PathText.steps output = front ++ idle ∧ ∀ step ∈ idle, step = "." := by
  obtain ⟨above, front, idle, isParent, _, stepsAbove, wholeSteps, fromBase, stays⟩ :=
    PathText.steps_join nonempty nested.named file.parts_eq nested.inside
  have same : way output file = front ++ file.directories := by
    rw [way, directory, isParent, Option.getD_some, stepsAbove]
  rw [same]
  exact ⟨front, idle, rfl, wholeSteps, fromBase, stays⟩

private theorem holdsZero_directory (nonempty : output ≠ "")
    (plain : FileNode.holdsZero output = false)
    (nested : file.IsNested) : FileNode.holdsZero (directory output file) = false := by
  obtain ⟨above, _, _, isParent, included, _⟩ :=
    PathText.steps_join nonempty nested.named file.parts_eq nested.inside
  have whole := FileNode.holdsZero_join plain nested.plain
  rw [directory, isParent, Option.getD_some]
  rw [FileNode.holdsZero_eq_false] at whole ⊢
  rw [PathText.mem_iff_mem_parts (by decide)] at whole ⊢
  rintro ⟨part, member, zero⟩
  exact whole ⟨part, included part member, zero⟩

variable (nonempty : output ≠ "") (nested : file.IsNested)
include nonempty nested

private theorem walk_way :
    walk [] (way output file) = walk [] (PathText.steps output) ++ file.directories := by
  obtain ⟨front, idle, isWay, _, fromBase, stays⟩ := way_eq nonempty nested
  rw [isWay, fromBase, PathText.walk_append, PathText.walk_append, PathText.walk_idle stays,
    PathText.walk_names nested.named_directories]

/-- The way to a file passes what the way to the output directory passes, and the directories of the
file. -/
theorem mem_trail_way {passed : List String} : passed ∈ trail [] (way output file) ↔
    passed ∈ trail [] (PathText.steps output) ∨
      ∃ front, front <+: file.directories ∧ passed = walk [] (PathText.steps output) ++ front := by
  obtain ⟨front, idle, isWay, _, fromBase, stays⟩ := way_eq nonempty nested
  rw [isWay, fromBase, PathText.mem_trail_append, PathText.mem_trail_append, PathText.walk_append,
    PathText.walk_idle stays, PathText.mem_trail_idle stays,
    PathText.mem_trail_names nested.named_directories]
  apply or_congr_left
  apply Iff.symm
  apply or_iff_left_of_imp
  intro same
  rw [same]
  exact PathText.walk_mem_trail [] front

/-- The way to a file has no name that is too long when neither the output directory nor the file
has one. -/
theorem short_way : (∀ step ∈ way output file, FileNode.nameFault? step = none) ↔
    (∀ step ∈ PathText.steps output, FileNode.nameFault? step = none) ∧
      ∀ name ∈ file.directories, FileNode.nameFault? name = none := by
  obtain ⟨front, idle, isWay, _, fromBase, stays⟩ := way_eq nonempty nested
  have short : ∀ step ∈ idle, FileNode.nameFault? step = none := by
    intro step member
    rw [stays step member]
    decide
  rw [isWay, fromBase, List.forall_mem_append, List.forall_mem_append, and_iff_left short]

/-- A file is written at the end of the way to it. -/
theorem target_eq : target output file = walk [] (way output file) ++ [lastPart file.path] := by
  rw [walk_way nonempty nested, target, file.parts_eq, List.append_assoc]

private theorem lastPart_join : lastPart (PathText.join output file.path) = lastPart file.path := by
  obtain ⟨stem, joined, _⟩ := PathText.parts_join nonempty nested.named
  rw [lastPart, lastPart, joined,
    List.getLast?_append_of_ne_nil _ (PathText.parts_ne_nil file.path)]

/-- A file is written in two steps: directories are made on the way to it, and the last one receives
its text. -/
theorem writeFile_eq (plain : FileNode.holdsZero output = false) :
    writeFile output root file =
      match root.makeDirectories [] (way output file) with
      | (tree, .error fault) => (tree, .error (.io (directory output file) fault.message))
      | (tree, .ok place) =>
        match tree.writeText place (lastPart file.path) file.content with
        | (tree, .error fault) =>
          (tree, .error (.io (PathText.join output file.path) fault.message))
        | (tree, .ok ()) => (tree, .ok ()) := by
  have created : root.createDirectories (directory output file) =
      root.makeDirectories [] (way output file) := by
    rw [FileNode.createDirectories, holdsZero_directory nonempty plain nested,
      if_neg Bool.false_ne_true, way]
  have above : (PathText.parent? (PathText.join output file.path)).getD "" =
      directory output file :=
    rfl
  unfold writeFile
  rcases made : root.makeDirectories [] (way output file) with ⟨tree, fault | place⟩
  · simp only [above, created, made]
  · rcases wrote : tree.writeText place (lastPart file.path) file.content with
      ⟨next, fault | done⟩ <;>
      simp only [above, created, made, lastPart_join nonempty nested, wrote]

/-- Writing a file fails, or the tree then holds it along with whatever the tree held before. -/
theorem writeFile_cases (plain : FileNode.holdsZero output = false)
    (within : root.look [] = some .directory) :
    (¬Writable output root file ∧
      ∃ tree failure, writeFile output root file = (tree, .error failure)) ∨
    Writable output root file ∧ ∃ tree, Written output file root tree ∧
      writeFile output root file = (tree, .ok ()) := by
  rw [writeFile_eq nonempty nested plain]
  rcases FileNode.makeDirectories_cases within with
    ⟨blocked, tree, fault, failed⟩ | ⟨passable, next, along, made⟩
  · rw [failed]
    exact Or.inl ⟨fun writable => blocked writable.passable, tree, _, rfl⟩
  rw [made]
  have stands := along.made _ (PathText.walk_mem_trail [] (way output file))
  rcases FileNode.writeText_cases stands (lastPart file.path) file.content with
    ⟨taken, fault, failed⟩ | ⟨free, tree, wrote, changed⟩
  · simp only [failed]
    rw [← target_eq nonempty nested] at taken
    have notWritable : ¬Writable output root file := by
      intro writable
      exact writable.free ((along.same _ writable.aside).symm.trans taken)
    exact Or.inl ⟨notWritable, next, _, rfl⟩
  · simp only [wrote]
    rw [← target_eq nonempty nested] at free changed
    have aside : target output file ∉ trail [] (way output file) :=
      fun member => free (along.made _ member)
    have writable : Writable output root file :=
      ⟨passable, along.same _ aside ▸ free, aside⟩
    refine Or.inr ⟨writable, tree, ⟨?_, ?_, ?_, ?_⟩, rfl⟩
    · rw [changed, if_pos rfl]
    · intro passed member
      have differs : passed ≠ target output file := fun same => aside (same ▸ member)
      rw [changed, if_neg differs, along.made passed member]
    · intro names e differs found
      rw [changed, if_neg differs, along.kept names e found]
    · intro names differs outside
      rw [changed, if_neg differs, along.same names outside]

omit nonempty nested

/-- Directories stay when a file is written. -/
theorem Written.directory (written : Written output file root tree)
    (writable : Writable output root file) {names : List String}
    (stands : root.look names = some .directory) : tree.look names = some .directory := by
  apply written.kept names _ _ stands
  rintro rfl
  exact writable.free stands

private theorem Written.hasDirectory (written : Written output file root tree)
    (writable : Writable output root file) {path : String} (standing : root.HasDirectory path) :
    tree.HasDirectory path :=
  ⟨standing.plain, standing.nonempty, standing.short, fun passed member =>
    written.directory writable (standing.standing passed member)⟩

/-- What stands in the tree is the file, a directory on the way to it, or stood there before. -/
theorem Written.look_cases (written : Written output file root tree) {names : List String}
    {e : Entry} (found : tree.look names = some e) :
    (names = target output file ∧ e = .file (.text file.content)) ∨
      (names ∈ trail [] (way output file) ∧ e = .directory) ∨ root.look names = some e := by
  by_cases isTarget : names = target output file
  · rw [isTarget, written.placed] at found
    exact Or.inl ⟨isTarget, (Option.some.inj found).symm⟩
  by_cases isMade : names ∈ trail [] (way output file)
  · rw [written.made names isMade] at found
    exact Or.inr (Or.inl ⟨isMade, (Option.some.inj found).symm⟩)
  · rw [written.same names isTarget isMade] at found
    exact Or.inr (Or.inr found)

/-- A tree holds all files of a list in the output directory, and whatever another tree holds in
other places. -/
structure AllWritten (output : String) (files : List SourceFile) (root tree : FileNode) : Prop where
  placed : ∀ file ∈ files, tree.look (target output file) = some (.file (.text file.content))
  short : ∀ file ∈ files, ∀ step ∈ way output file, FileNode.nameFault? step = none
  made : ∀ file ∈ files, ∀ passed ∈ trail [] (way output file), tree.look passed = some .directory
  stands : ∀ names, root.look names = some .directory → tree.look names = some .directory
  kept : ∀ names e, (∀ file ∈ files, names ≠ target output file) → root.look names = some e →
    tree.look names = some e

/-- Files are written when the first is written and then the others, at other places. -/
theorem AllWritten.cons {files : List SourceFile} {next : FileNode}
    (writable : Writable output root file) (first : Written output file root next)
    (rest : AllWritten output files next tree)
    (differs : ∀ other ∈ files, target output file ≠ target output other) :
    AllWritten output (file :: files) root tree := by
  refine ⟨List.forall_mem_cons.mpr ⟨?_, rest.placed⟩, List.forall_mem_cons.mpr ⟨?_, rest.short⟩,
    List.forall_mem_cons.mpr ⟨?_, rest.made⟩, ?_, ?_⟩
  · exact rest.kept _ _ differs first.placed
  · exact writable.passable.short
  · exact fun passed member => rest.stands passed (first.made passed member)
  · exact fun names stands => rest.stands names (first.directory writable stands)
  · intro names e others found
    obtain ⟨other, others⟩ := List.forall_mem_cons.mp others
    exact rest.kept names e others (first.kept names e other found)

section

-- A file is not to be written while the equation is checked.
attribute [local irreducible] writeFile

/-- Files are written one after the other, up to the first that cannot be written. -/
theorem writeFiles_cons (output : String) (root : FileNode) (file : SourceFile)
    (files : List SourceFile) : writeFiles output root (file :: files) =
      match writeFile output root file with
      | (next, .ok ()) => writeFiles output next files
      | (next, .error failure) => (next, .error failure) := by
  rfl

end

variable {files : List SourceFile}

private theorem target_inj (same : target output file = target output other) :
    file.path = other.path := by
  rw [target, target, List.append_cancel_left_eq] at same
  exact PathText.parts_inj same

/-- Files with different paths are all there when they have been written. -/
theorem writeFiles_eq_ok (nonempty : output ≠ "") (plain : FileNode.holdsZero output = false)
    (nested : ∀ file ∈ files, file.IsNested) (distinct : (files.map (·.path)).Nodup)
    (within : root.look [] = some .directory)
    (written : writeFiles output root files = (tree, .ok ())) :
    AllWritten output files root tree := by
  induction files generalizing root with
  | nil =>
      obtain rfl : root = tree := (Prod.mk.inj written).1
      exact ⟨by simp, by simp, by simp, fun _ stands => stands, fun _ _ _ found => found⟩
  | cons file files ih =>
      obtain ⟨isNested, nested⟩ := List.forall_mem_cons.mp nested
      rw [List.map_cons, List.nodup_cons] at distinct
      rw [writeFiles_cons] at written
      rcases writeFile_cases nonempty isNested plain within with
        ⟨_, failure, _, failed⟩ | ⟨writable, next, first, wrote⟩
      · rw [failed] at written
        cases written
      · rw [wrote] at written
        have stays := first.made _ (PathText.start_mem_trail [] (way output file))
        have rest := ih nested distinct.2 stays written
        refine rest.cons writable first fun other member same => distinct.1 ?_
        rw [target_inj same]
        exact List.mem_map_of_mem member

/-- A file that lies in the output directory is not in the way of one that lies elsewhere in it. -/
theorem liesBelow_of_mem_trail (nonempty : output ≠ "") (nested : other.IsNested)
    (standing : root.HasDirectory output) (free : root.look (target output file) ≠ some .directory)
    (member : target output file ∈ trail [] (way output other)) : other.LiesBelow file := by
  rcases (mem_trail_way nonempty nested).mp member with early | ⟨front, inside, same⟩
  · exact absurd (standing.standing _ early) free
  · rw [target, List.append_cancel_left_eq] at same
    rw [SourceFile.LiesBelow, same]
    exact inside

/-- A file that can be written still can be after another file, when neither lies below the
other. -/
theorem Writable.keep (nonempty : output ≠ "") (nested : file.IsNested) (otherToo : other.IsNested)
    (standing : root.HasDirectory output) (writable : Writable output root other)
    (before : Writable output root file) (written : Written output file root tree)
    (apart : ¬other.LiesBelow file) (apartToo : ¬file.LiesBelow other) :
    Writable output tree other := by
  refine ⟨⟨writable.passable.short, fun passed member content found => ?_⟩, fun found => ?_,
    writable.aside⟩
  · rcases written.look_cases found with ⟨rfl, _⟩ | ⟨_, isDirectory⟩ | old
    · exact apart (liesBelow_of_mem_trail nonempty otherToo standing before.free member)
    · cases isDirectory
    · exact writable.passable.free passed member content old
  · rcases written.look_cases found with ⟨_, isFile⟩ | ⟨isMade, _⟩ | old
    · cases isFile
    · exact apartToo (liesBelow_of_mem_trail nonempty nested standing writable.free isMade)
    · exact writable.free old

/-- Files can all be written when each of them can and none lies below another one. -/
theorem exists_writeFiles (standing : root.HasDirectory output)
    (nested : ∀ file ∈ files, file.IsNested)
    (apart : ∀ file ∈ files, ∀ other ∈ files, ¬file.LiesBelow other)
    (writable : ∀ file ∈ files, Writable output root file) :
    ∃ tree, writeFiles output root files = (tree, .ok ()) := by
  induction files generalizing root with
  | nil => exact ⟨root, rfl⟩
  | cons file files ih =>
      obtain ⟨isNested, nestedRest⟩ := List.forall_mem_cons.mp nested
      obtain ⟨first, rest⟩ := List.forall_mem_cons.mp writable
      rw [writeFiles_cons]
      rcases writeFile_cases standing.nonempty isNested standing.plain standing.within with
        ⟨blocked, _⟩ | ⟨_, next, written, wrote⟩
      · exact absurd first blocked
      · rw [wrote]
        apply ih
        · exact written.hasDirectory first standing
        · exact nestedRest
        · exact fun other member another memberToo =>
            apart other (List.mem_cons_of_mem _ member) another (List.mem_cons_of_mem _ memberToo)
        · intro other member
          have present := List.mem_cons_of_mem file member
          exact (rest other member).keep standing.nonempty isNested (nestedRest other member)
            standing
            first written (apart other present file List.mem_cons_self)
            (apart file List.mem_cons_self other present)

/-- In an empty directory, only the length of a name can keep a file from being written. -/
theorem writable_of_empty (standing : root.HasDirectory output)
    (empty : root.get? (walk [] (PathText.steps output)) = some (.directory []))
    (nested : file.IsNested) (short : ∀ name ∈ file.directories, FileNode.nameFault? name = none) :
    Writable output root file := by
  have nothing : root.look (target output file) = none :=
    FileNode.look_of_empty empty (PathText.parts_ne_nil file.path)
  refine ⟨⟨(short_way standing.nonempty nested).mpr ⟨standing.short, short⟩, ?_⟩, ?_, ?_⟩
  · intro passed member content found
    rcases (mem_trail_way standing.nonempty nested).mp member with early | ⟨front, inside, rfl⟩
    · rw [standing.standing passed early] at found
      cases found
    · by_cases here : front = []
      · rw [here, List.append_nil, standing.standing _ (PathText.walk_mem_trail _ _)] at found
        cases found
      · rw [FileNode.look_of_empty empty here] at found
        cases found
  · rw [nothing]
    exact Option.some_ne_none _ |>.symm
  · intro member
    rcases (mem_trail_way standing.nonempty nested).mp member with early | ⟨front, inside, same⟩
    · rw [standing.standing _ early] at nothing
      cases nothing
    · rw [target, List.append_cancel_left_eq, file.parts_eq] at same
      have longer := inside.length_le
      rw [← same, List.length_append, List.length_singleton] at longer
      omega

/-- The path of a written file leads through no other one. -/
theorem AllWritten.not_liesBelow (written : AllWritten output files root tree)
    (fileMember : file ∈ files) (otherMember : other ∈ files) : ¬file.LiesBelow other := by
  intro ⟨rest, below⟩
  have placed := written.placed file fileMember
  have inside : target output other <+: target output file := by
    rw [target, target, file.parts_eq, ← below, List.append_assoc, ← List.append_assoc]
    exact List.prefix_append _ _
  have differs : target output other ≠ target output file := by
    intro same
    rw [target, target, List.append_cancel_left_eq, file.parts_eq, ← below] at same
    simp at same
  have isDirectory := FileNode.look_above placed inside differs
  rw [written.placed other otherMember] at isDirectory
  cases isDirectory

/-- A file that has been written can be read. -/
theorem AllWritten.readText_eq_ok (written : AllWritten output files root tree)
    (nonempty : output ≠ "")
    (plain : FileNode.holdsZero output = false) (member : file ∈ files) (nested : file.IsNested)
    (short : FileNode.nameFault? (lastPart file.path) = none) :
    tree.readText (PathText.join output file.path) = .ok file.content := by
  obtain ⟨_, _, _, split, _⟩ := way_eq nonempty nested
  have placed := written.placed file member
  have named : IsName (lastPart file.path) := nested.named _ (by simp [file.parts_eq])
  have isTarget : walk [] (way output file ++ [lastPart file.path]) = target output file := by
    rw [target_eq nonempty nested, PathText.walk_append,
      PathText.walk_names (List.forall_mem_singleton.mpr named)]
  apply FileNode.readText_eq_ok (FileNode.holdsZero_join plain nested.plain) _ split
  · exact List.forall_mem_append.mpr ⟨written.short file member,
      List.forall_mem_singleton.mpr short⟩
  · exact written.made file member
  · rw [isTarget, placed]
  · intro empty
    rw [empty] at split
    have noSteps : PathText.steps "" = [] := by decide
    rw [noSteps] at split
    exact List.append_ne_nil_of_right_ne_nil _ (List.cons_ne_nil _ _) split.symm

/-- Files can all be written to an empty directory exactly when none of them lies below another one
and the directories that they lie in have no names that are too long. -/
theorem exists_writeFiles_iff (standing : root.HasDirectory output)
    (empty : root.get? (walk [] (PathText.steps output)) = some (.directory []))
    (nested : ∀ file ∈ files, file.IsNested) (distinct : (files.map (·.path)).Nodup) :
    (∃ tree, writeFiles output root files = (tree, .ok ())) ↔
      (∀ file ∈ files, ∀ other ∈ files, ¬file.LiesBelow other) ∧
        ∀ file ∈ files, ∀ name ∈ file.directories, FileNode.nameFault? name = none := by
  constructor
  · intro ⟨tree, wrote⟩
    have written :=
      writeFiles_eq_ok standing.nonempty standing.plain nested distinct standing.within wrote
    refine ⟨fun file member other memberToo => written.not_liesBelow member memberToo, ?_⟩
    intro file member
    exact ((short_way standing.nonempty (nested file member)).mp (written.short file member)).2
  · intro ⟨apart, short⟩
    apply exists_writeFiles standing nested apart
    intro file member
    exact writable_of_empty standing empty (nested file member) (short file member)

end Run

end RouteClient
