import RouteClient.Proofs.Run.Writing

/-!
# Placing files anywhere

What writing does when nothing is known of the paths but that they end with a name. The way to a
file may then lead up as well as down, out of the output directory and back into it. The file is put
at the place that its path leads to (`Run.spot`), and no other file changes (`Run.Placed`). Files
with different places are all there when they have been written (`Run.allPlaced_of_writeFiles`).
-/

namespace RouteClient

open PathText (IsName trail walk)

namespace PathText

variable {path base last : String} {above : List String}

/-- What comes before the parts of a relative path when it is joined to another path. -/
theorem exists_stem (base : String) :
    ∃ stem, ∀ path, isAbsolute path = false → parts (join base path) = stem ++ parts path := by
  by_cases closed : base = "" ∨ endsWithSlash base = true
  · have joined (path : String) (relative : isAbsolute path = false) :
        join base path = base ++ path := by
      simp [join, relative, closed]
    rcases closed with rfl | ends
    · exact ⟨[], fun path relative => by rw [joined path relative, String.empty_append]; rfl⟩
    · obtain ⟨front, rfl⟩ := eq_of_endsWithSlash ends
      exact ⟨parts front, fun path relative => by rw [joined path relative, parts_slash]⟩
  · refine ⟨parts base, fun path relative => ?_⟩
    have joined : join base path = base ++ "/" ++ path := by
      simp [join, relative, closed]
    rw [joined, parts_slash]

/-- A joined path ends with the parts of the second. -/
theorem exists_parts_join (base path : String) :
    ∃ stem, parts (join base path) = stem ++ parts path := by
  rcases relative : isAbsolute path with _ | _
  · obtain ⟨stem, joined⟩ := exists_stem base
    exact ⟨stem, joined path relative⟩
  · exact ⟨[], by rw [join, relative, if_pos rfl]; rfl⟩

/-- A slash at the end of a path leads nowhere else. -/
theorem walk_steps (place : List String) (path : String) :
    walk place (steps path) = walk place ((parts path).filter (· ≠ "")) := by
  rw [steps, walk_append]
  split_ifs <;> rfl

/-- A path that ends with a name has it as its last step. -/
theorem steps_of_name (split : parts path = above ++ [last]) (named : IsName last) :
    steps path = above.filter (· ≠ "") ++ [last] := by
  rw [steps, endsWithSlash_of_name split named, if_neg Bool.false_ne_true, List.append_nil, split,
    List.filter_append, filter_names (List.forall_mem_singleton.mpr named)]

/-- Only parts that take no step are dropped, and no empty part is kept at the end. -/
theorem dropIdle_split (turned : List String) : ∃ idle, turned = idle ++ dropIdle turned ∧
    (∀ part ∈ idle, isIdle part) ∧ (dropIdle turned).head? ≠ some "" := by
  induction turned with
  | nil => exact ⟨[], rfl, by simp, by simp [dropIdle]⟩
  | cons part rest ih =>
      cases rest with
      | nil =>
          rw [dropIdle]
          split_ifs with empty
          · exact ⟨[part], rfl, by simp [empty, isIdle], by simp⟩
          · exact ⟨[], rfl, by simp, by simpa using empty⟩
      | cons next rest =>
          rw [dropIdle]
          · split_ifs with isIdle
            · obtain ⟨idle, split, stays, noEmpty⟩ := ih
              exact ⟨part :: idle, by rw [List.cons_append, ← split],
                List.forall_mem_cons.mpr ⟨isIdle, stays⟩, noEmpty⟩
            · refine ⟨[], rfl, by simp, fun empty => isIdle ?_⟩
              rw [Option.some.inj empty]
              decide
          · exact List.cons_ne_nil next rest

/-- A path whose parts do not end with an empty one has them as its steps, without the empty
ones. -/
theorem steps_intercalate {front : List String} (nonempty : front ≠ [])
    (plain : ∀ part ∈ front, '/' ∉ part.toList) (open' : front.getLast? ≠ some "") :
    parts ("/".intercalate front) = front ∧ "/".intercalate front ≠ "" ∧
      steps ("/".intercalate front) = front.filter (· ≠ "") := by
  have same := parts_intercalate nonempty plain
  have noSlash : endsWithSlash ("/".intercalate front) = false := by
    apply Bool.eq_false_iff.mpr
    intro ends
    obtain ⟨stem, split⟩ := eq_of_endsWithSlash ends
    rw [split, parts_slash_end] at same
    exact open' (by rw [← same, List.getLast?_concat])
  refine ⟨same, fun empty => ?_, ?_⟩
  · rw [empty, parts_empty] at same
    exact open' (by rw [← same, List.getLast?_singleton])
  · rw [steps, same, noSlash, if_neg Bool.false_ne_true, List.append_nil]

/-- The path above a path takes the same steps, up to those that stay where they are, and has its
other parts but the last. -/
theorem steps_parent? (split : parts path = above ++ [last]) (named : IsName last) :
    ∃ front early late, steps ((parent? path).getD "") = front ++ early ∧
      above.filter (· ≠ "") = front ++ late ∧ (∀ step ∈ early, step = ".") ∧
      (∀ step ∈ late, step = ".") ∧
      ∀ part ∈ above, isIdle part ∨ part ∈ parts ((parent? path).getD "") := by
  obtain ⟨idle, turned, stays, noEmpty⟩ := dropIdle_split above.reverse
  obtain ⟨front, isFront⟩ : ∃ front, front = (dropIdle above.reverse).reverse := ⟨_, rfl⟩
  have whole : above = front ++ idle.reverse := by
    rw [isFront, ← List.reverse_append, ← turned, List.reverse_reverse]
  have idleAbove : ∀ part ∈ idle.reverse, isIdle part := fun part member =>
    stays part (List.mem_reverse.mp member)
  have late : ∀ step ∈ idle.reverse.filter (· ≠ ""), step = "." := by
    intro step member
    obtain ⟨listed, nonempty⟩ := List.mem_filter.mp member
    simpa [isIdle, of_decide_eq_true nonempty] using idleAbove step listed
  have reversed : (parts path).reverse = last :: above.reverse := by simp [split]
  have parent : (parent? path).getD "" = if isAbsolute path && "/".intercalate front = "" then "/"
      else "/".intercalate front := by
    simp only [parent?, reversed, dropIdle_of_name named, isFront, Option.getD_some]
  rw [parent, whole]
  -- All parts above the last may be idle. The path above is then empty, or that of the root.
  by_cases empty : front = []
  · subst empty
    refine ⟨[], steps (if isAbsolute path && "/".intercalate [] = "" then "/"
      else "/".intercalate []), idle.reverse.filter (· ≠ ""), rfl, rfl, ?_, late,
      fun part member => Or.inl (idleAbove part member)⟩
    cases isAbsolute path <;> decide
  · have plain : ∀ part ∈ front, '/' ∉ part.toList := fun part member => by
      have listed : part ∈ parts path := by
        rw [split, whole]
        exact List.mem_append_left _ (List.mem_append_left _ member)
      exact slash_not_mem_parts listed
    have open' : front.getLast? ≠ some "" := by rwa [isFront, List.getLast?_reverse]
    obtain ⟨same, nonempty, stepsFront⟩ := steps_intercalate empty plain open'
    rw [decide_eq_false nonempty, Bool.and_false, if_neg Bool.false_ne_true, same, stepsFront]
    refine ⟨_, [], _, (List.append_nil _).symm, List.filter_append _ _, by simp, late, ?_⟩
    intro part member
    exact (List.mem_append.mp member).symm.imp_left (idleAbove part)

end PathText

namespace Run

variable {output : String} {root tree : FileNode} {file other : SourceFile}

/-- The place that the path of a file leads to from the output directory. -/
def spot (output : String) (file : SourceFile) : List String :=
  walk [] (PathText.steps (PathText.join output file.path))

/-- The way to a file leads through directories that stand. -/
structure Reached (output : String) (file : SourceFile) (tree : FileNode) : Prop where
  plain : FileNode.holdsZero (directory output file) = false
  short : ∀ step ∈ way output file, FileNode.nameFault? step = none
  standing : ∀ passed ∈ trail [] (way output file), tree.look passed = some .directory

/-- The path of a file takes the way to it and the step to its name, up to steps that stay where
they are. -/
theorem way_split (named : IsName (lastPart file.path)) :
    ∃ front early late, way output file = front ++ early ∧
      PathText.steps (PathText.join output file.path) = front ++ late ++ [lastPart file.path] ∧
      (∀ step ∈ early, step = ".") ∧ (∀ step ∈ late, step = ".") ∧
      (FileNode.holdsZero (directory output file) = false →
        FileNode.holdsZero (lastPart file.path) = false →
          FileNode.holdsZero (PathText.join output file.path) = false) := by
  obtain ⟨stem, joined⟩ := PathText.exists_parts_join output file.path
  rw [file.parts_eq, ← List.append_assoc] at joined
  obtain ⟨front, early, late, stepsAbove, kept, stays, staysToo, dropped⟩ :=
    PathText.steps_parent? joined named
  refine ⟨front, early, late, stepsAbove, ?_, stays, staysToo, ?_⟩
  · rw [PathText.steps_of_name joined named, kept]
  · intro plain plainLast
    rw [FileNode.holdsZero_eq_false] at plain plainLast ⊢
    rw [PathText.mem_iff_mem_parts (by decide)] at plain ⊢
    rintro ⟨part, member, zero⟩
    rw [joined, List.mem_append, List.mem_singleton] at member
    rcases member with inside | rfl
    · rcases dropped part inside with idle | listed
      · have noZero : part = "" ∨ part = "." := by simpa [PathText.isIdle] using idle
        rcases noZero with rfl | rfl <;> exact absurd zero (by decide)
      · exact plain ⟨part, listed, zero⟩
    · exact plainLast zero

private theorem spot_eq (named : IsName (lastPart file.path)) :
    spot output file = walk [] (way output file) ++ [lastPart file.path] := by
  obtain ⟨front, early, late, isWay, whole, stays, staysToo, _⟩ := @way_split output file named
  rw [spot, whole, isWay, PathText.walk_append, PathText.walk_append, PathText.walk_append,
    PathText.walk_idle stays, PathText.walk_idle staysToo,
    PathText.walk_names (List.forall_mem_singleton.mpr named)]

/-- A file that has been reached is read from its path. -/
theorem Reached.readText_eq_ok (reached : Reached output file tree)
    (named : IsName (lastPart file.path)) (short : FileNode.nameFault? (lastPart file.path) = none)
    (plain : FileNode.holdsZero (lastPart file.path) = false)
    (placed : tree.look (spot output file) = some (.file (.text file.content))) :
    tree.readText (PathText.join output file.path) = .ok file.content := by
  obtain ⟨front, early, late, isWay, whole, stays, staysToo, noZero⟩ := @way_split output file named
  have standing := reached.standing
  have shortWay := reached.short
  rw [isWay] at standing shortWay
  apply FileNode.readText_eq_ok (noZero reached.plain plain) _ whole
  · rw [List.forall_mem_append, List.forall_mem_append, List.forall_mem_singleton]
    refine ⟨⟨fun step member => shortWay step (List.mem_append_left _ member), ?_⟩, short⟩
    intro step member
    rw [staysToo step member]
    decide
  · intro passed member
    apply standing
    rw [PathText.mem_trail_append, PathText.mem_trail_idle staysToo] at member
    exact PathText.mem_trail_append.mpr (member.imp_right
      (PathText.mem_trail_idle stays).mpr)
  · rw [← whole]
    exact placed
  · intro empty
    rw [empty] at whole
    exact List.append_ne_nil_of_right_ne_nil _ (List.cons_ne_nil _ _) whole.symm

/-- A file is written when directories can be made on the way to it and the last one receives it. -/
theorem writeFile_eq_ok {next : FileNode} {place : List String}
    (made : root.createDirectories (directory output file) = (next, .ok place))
    (wrote : next.writeText place (lastPart (PathText.join output file.path)) file.content =
      (tree, .ok ())) : writeFile output root file = (tree, .ok ()) := by
  have above : (PathText.parent? (PathText.join output file.path)).getD "" =
      directory output file := rfl
  unfold writeFile
  simp only [above, made, wrote]

/-- The tree holds a file at its place. Otherwise it has the files of another tree, and its
directories. -/
structure Placed (output : String) (file : SourceFile) (root tree : FileNode) : Prop where
  placed : tree.look (spot output file) = some (.file (.text file.content))
  reached : Reached output file tree
  stands : ∀ names, root.look names = some .directory → tree.look names = some .directory
  file_iff : ∀ names content, names ≠ spot output file →
    (tree.look names = some (.file content) ↔ root.look names = some (.file content))

/-- Writing a file places it. -/
theorem placed_of_writeFile (named : IsName (lastPart file.path))
    (within : root.look [] = some .directory)
    (wrote : writeFile output root file = (tree, .ok ())) : Placed output file root tree := by
  have isLast : lastPart (PathText.join output file.path) = lastPart file.path := by
    obtain ⟨stem, joined⟩ := PathText.exists_parts_join output file.path
    rw [lastPart, joined, List.getLast?_append_of_ne_nil _ (PathText.parts_ne_nil file.path)]
    rfl
  have above : (PathText.parent? (PathText.join output file.path)).getD "" =
      directory output file := rfl
  -- The two steps are taken one after the other. The outcome is compared part by part, since
  -- reducing it as a whole would run along the path.
  unfold writeFile at wrote
  simp only [above, isLast] at wrote
  rcases made : root.createDirectories (directory output file) with ⟨first, fault | place⟩
  · simp only [made] at wrote
    cases wrote
  simp only [made] at wrote
  unfold FileNode.createDirectories at made
  split_ifs at made with zero
  · cases made
  rcases FileNode.makeDirectories_cases within with
    ⟨_, _, _, failed⟩ | ⟨passable, next, along, makes⟩
  · rw [failed] at made
    cases made
  obtain ⟨rfl, isPlace⟩ := Prod.mk.inj (makes.symm.trans made)
  obtain rfl := Except.ok.inj isPlace
  have isSpot : spot output file =
      walk [] (PathText.steps (directory output file)) ++ [lastPart file.path] := spot_eq named
  have stands := along.made _ (PathText.walk_mem_trail [] _)
  rcases FileNode.writeText_cases stands (lastPart file.path) file.content with
    ⟨_, fault, failed⟩ | ⟨free, written, wroteText, changed⟩
  · simp only [failed] at wrote
    cases wrote
  simp only [wroteText] at wrote
  obtain rfl : written = tree := (Prod.mk.inj wrote).1
  rw [← isSpot] at changed free
  have directory (names : List String) (found : next.look names = some .directory) :
      written.look names = some .directory := by
    have differs : names ≠ spot output file := fun same => free (same ▸ found)
    rw [changed, if_neg differs, found]
  refine ⟨?_, ⟨Bool.eq_false_iff.mpr zero, passable.short, fun passed member =>
    directory passed (along.made passed member)⟩, fun names found =>
      directory names (along.kept names _ found), ?_⟩
  · rw [changed, if_pos rfl]
  · intro names content differs
    rw [changed, if_neg differs, along.file_iff]

/-- The tree holds all files of a list at their places. Otherwise it has the files of another tree,
and its directories. -/
structure AllPlaced (output : String) (files : List SourceFile) (root tree : FileNode) : Prop where
  placed : ∀ file ∈ files, tree.look (spot output file) = some (.file (.text file.content))
  reached : ∀ file ∈ files, Reached output file tree
  stands : ∀ names, root.look names = some .directory → tree.look names = some .directory
  file_iff : ∀ names content, (∀ file ∈ files, names ≠ spot output file) →
    (tree.look names = some (.file content) ↔ root.look names = some (.file content))

/-- Files are placed when the first is placed and then the others, at other places. -/
theorem AllPlaced.cons {files : List SourceFile} {next : FileNode}
    (first : Placed output file root next) (rest : AllPlaced output files next tree)
    (differs : ∀ other ∈ files, spot output file ≠ spot output other) :
    AllPlaced output (file :: files) root tree := by
  refine ⟨List.forall_mem_cons.mpr ⟨?_, rest.placed⟩, List.forall_mem_cons.mpr ⟨?_, rest.reached⟩,
    fun names found => rest.stands names (first.stands names found), ?_⟩
  · exact (rest.file_iff _ _ differs).mpr first.placed
  · exact ⟨first.reached.plain, first.reached.short,
      fun passed member => rest.stands passed (first.reached.standing passed member)⟩
  · intro names content others
    obtain ⟨other, others⟩ := List.forall_mem_cons.mp others
    rw [rest.file_iff names content others, first.file_iff names content other]

/-- Writing files places all of them, when their places are different. -/
theorem allPlaced_of_writeFiles {files : List SourceFile}
    (named : ∀ file ∈ files, IsName (lastPart file.path))
    (distinct : (files.map (spot output)).Nodup) (within : root.look [] = some .directory)
    (wrote : writeFiles output root files = (tree, .ok ())) : AllPlaced output files root tree := by
  induction files generalizing root with
  | nil =>
      obtain rfl : root = tree := (Prod.mk.inj wrote).1
      exact ⟨by simp, by simp, fun _ found => found, fun _ _ _ => Iff.rfl⟩
  | cons file files ih =>
      obtain ⟨isName, named⟩ := List.forall_mem_cons.mp named
      rw [List.map_cons, List.nodup_cons] at distinct
      rw [writeFiles_cons] at wrote
      rcases first : writeFile output root file with ⟨next, failure | done⟩
      · rw [first] at wrote
        cases wrote
      · rw [first] at wrote
        have placed := placed_of_writeFile isName within first
        have rest := ih named distinct.2 (placed.stands [] within) wrote
        exact .cons placed rest fun other member same =>
          distinct.1 (same ▸ List.mem_map_of_mem member)

end Run

end RouteClient
