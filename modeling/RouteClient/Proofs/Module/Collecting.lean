import Mathlib.Algebra.GroupWithZero.Nat
import Mathlib.Data.List.Induction
import RouteClient.Proofs.Module.Assembly

/-!
# Collecting files

A collection of generated files is built up by adding files and by sorting it, as often as one
likes. Whatever the steps were, it holds the files that have been added, and files with one path
stand in the order in which they were added (`SourceFiles.Gathers`). A sorted collection is
determined by that, so that of all sorts only the last one counts (`SourceFiles.collect_gathers`).
-/

namespace RouteClient

/-- The number of bytes of a text is counted character by character. -/
theorem Text.length_bytes (s : String) : (bytes s).length = byteCount s.toList := by
  rw [bytes_eq]
  induction s.toList with
  | nil => rfl
  | cons c cs ih =>
      rw [List.flatMap_cons, List.length_append, String.length_utf8EncodeChar, ih, byteCount]

namespace SourceFiles

/-- A step in building up a collection. -/
inductive Step where
  | add (file : SourceFile)
  | sort

/-- The collection after one more step. -/
def step (c : SourceFiles) : Step → SourceFiles
  | .add file => c.add file
  | .sort => c.sort

/-- The collection that steps lead to from an empty one. -/
def collect (steps : List Step) : SourceFiles := steps.foldl step {}

/-- The file that a step adds, if it adds one. -/
def Step.added? : Step → Option SourceFile
  | .add file => some file
  | .sort => none

/-- The files that are added by steps, in the order of their addition. -/
def added (steps : List Step) : List SourceFile := steps.filterMap Step.added?

/-- The first of several files that has a given path. -/
def IsEarliest (files : List SourceFile) (path : String) (file : SourceFile) : Prop :=
  ∃ before after, files = before ++ file :: after ∧ file.path = path ∧
    ∀ earlier ∈ before, earlier.path ≠ path

/-- A collection holds the files that were added, and those with one path stand in the order of
their addition. -/
structure Gathers (c : SourceFiles) (files : List SourceFile) : Prop where
  perm : c.files.Perm files
  inOrder : ∀ path, c.files.filter (·.path = path) = files.filter (·.path = path)

variable {c other : SourceFiles} {files : List SourceFile} {path : String}

/-- Each step gathers what it adds and keeps what has been gathered. -/
theorem Gathers.step (gathers : c.Gathers files) (s : Step) :
    (c.step s).Gathers (files ++ s.added?.toList) := by
  cases s with
  | add file =>
      refine ⟨gathers.perm.append_right [file], fun path => ?_⟩
      simp only [SourceFiles.step, SourceFiles.add, Step.added?, Option.toList_some,
        List.filter_append, gathers.inOrder]
  | sort =>
      simp only [Step.added?, Option.toList_none, List.append_nil]
      refine ⟨(sort_perm c.files).trans gathers.perm, fun path => ?_⟩
      rw [← gathers.inOrder path]
      exact Text.filter_mergeSort SourceFile.path path c.files

/-- A collection gathers the files that its steps have added. -/
theorem gathers_collect (steps : List Step) : (collect steps).Gathers (added steps) := by
  induction steps using List.reverseRecOn with
  | nil => exact ⟨.nil, fun _ => rfl⟩
  | append_singleton steps last ih =>
      have reached : collect (steps ++ [last]) = (collect steps).step last := List.foldl_concat ..
      have more : added (steps ++ [last]) = added steps ++ last.added?.toList := by
        rw [added, List.filterMap_append]
        cases last <;> rfl
      rw [reached, more]
      exact ih.step last

/-- The first file with a path is the first of those with this path. -/
theorem Gathers.find?_eq (gathers : c.Gathers files) :
    c.find? path = files.find? (·.path = path) := by
  rw [find?, ← List.head?_filter, ← List.head?_filter, gathers.inOrder]

/-- The first file that was added with a path is found there. -/
theorem Gathers.find?_eq_some (gathers : c.Gathers files) {file : SourceFile} :
    c.find? path = some file ↔ IsEarliest files path file := by
  rw [gathers.find?_eq, List.find?_eq_some_iff_append, decide_eq_true_iff]
  simp only [IsEarliest, Bool.not_eq_true', decide_eq_false_iff_not]
  constructor
  · rintro ⟨named, before, after, split, passed⟩
    exact ⟨before, after, split, named, passed⟩
  · rintro ⟨before, after, split, named, passed⟩
    exact ⟨named, before, after, split, passed⟩

/-- Nothing is found at a path with which no file was added. -/
theorem Gathers.find?_eq_none (gathers : c.Gathers files) :
    c.find? path = none ↔ ∀ file ∈ files, file.path ≠ path := by
  simp only [gathers.find?_eq, List.find?_eq_none, decide_eq_true_iff, ne_eq]

/-- The number of bytes is that of all contents. -/
theorem totalBytes_eq_sum (c : SourceFiles) :
    c.totalBytes = (c.files.map fun file => (Text.bytes file.content).length).sum := by
  rw [totalBytes]
  induction c.files with
  | nil => rfl
  | cons file rest ih => rw [List.foldr_cons, ih, List.map_cons, List.sum_cons, Text.length_bytes]

/-- The number of bytes is that of the files that were added. -/
theorem Gathers.totalBytes_eq (gathers : c.Gathers files) :
    c.totalBytes = (files.map fun file => (Text.bytes file.content).length).sum := by
  rw [totalBytes_eq_sum]
  exact (gathers.perm.map _).sum_nat

/-- Of files in the order of their paths, the first one has the least path. -/
theorem le_path_of_mem {first file : SourceFile} {rest : List SourceFile}
    (ascending : (first :: rest).Pairwise fun a b => a.path ≤ b.path)
    (member : file ∈ first :: rest) : first.path ≤ file.path := by
  rcases List.mem_cons.mp member with rfl | later
  · exact String.le_refl _
  · exact (List.pairwise_cons.mp ascending).1 file later

private theorem mem_iff_of_inOrder {first second : List SourceFile}
    (same : ∀ path, first.filter (·.path = path) = second.filter (·.path = path))
    (file : SourceFile) : file ∈ first ↔ file ∈ second := by
  have listed := congrArg (file ∈ ·) (same file.path)
  simpa using listed

/-- A list of files in the order of their paths is determined by the files with each path. -/
theorem eq_of_inOrder {first second : List SourceFile}
    (ascending : first.Pairwise fun a b => a.path ≤ b.path)
    (ascendingToo : second.Pairwise fun a b => a.path ≤ b.path)
    (same : ∀ path, first.filter (·.path = path) = second.filter (·.path = path)) :
    first = second := by
  have shared := mem_iff_of_inOrder same
  induction first generalizing second with
  | nil =>
      refine (List.eq_nil_iff_forall_not_mem.mpr fun file member => ?_).symm
      exact List.not_mem_nil ((shared file).mpr member)
  | cons a first ih =>
      cases second with
      | nil => exact absurd ((shared a).mp List.mem_cons_self) List.not_mem_nil
      | cons b second =>
          have level : a.path = b.path := String.le_antisymm
            (le_path_of_mem ascending ((shared b).mpr List.mem_cons_self))
            (le_path_of_mem ascendingToo ((shared a).mp List.mem_cons_self))
          -- Both lists begin with the first file of this path.
          have heads := same a.path
          simp only [List.filter_cons, level, decide_true, ↓reduceIte, List.cons.injEq] at heads
          obtain ⟨rfl, _⟩ := heads
          have rests (path : String) :
              first.filter (·.path = path) = second.filter (·.path = path) := by
            have both := same path
            by_cases here : a.path = path <;> simpa [List.filter_cons, here] using both
          rw [ih (List.pairwise_cons.mp ascending).2 (List.pairwise_cons.mp ascendingToo).2 rests
            (mem_iff_of_inOrder rests)]

/-- Collections of the same files are the same when they are sorted. -/
theorem Gathers.sort_eq (gathers : c.Gathers files) (gathersToo : other.Gathers files) :
    c.sort = other.sort := by
  refine congrArg SourceFiles.mk
    (eq_of_inOrder (sort_pairwise c.files) (sort_pairwise other.files) ?_)
  intro path
  have sorted := (gathers.step .sort).inOrder path
  exact sorted.trans ((gathersToo.step .sort).inOrder path).symm

private theorem collect_sort (steps : List Step) :
    collect (steps ++ [.sort]) = (collect steps).sort :=
  List.foldl_concat ..

/-- **A collection holds what was added to it.** Whatever steps led to it, its files are those that
were added; it counts them and their bytes, finds the file that was added first with a path, and
keeps files with one path in the order of their addition. Once it is sorted, it does not tell how
often it has been sorted before. -/
theorem collect_gathers (steps : List Step) :
    (collect steps).files.Perm (added steps) ∧
    (collect steps).count = (added steps).length ∧
    (collect steps).totalBytes =
      ((added steps).map fun file => (Text.bytes file.content).length).sum ∧
    (∀ path file, (collect steps).find? path = some file ↔
      IsEarliest (added steps) path file) ∧
    (∀ path, (collect steps).find? path = none ↔ ∀ file ∈ added steps, file.path ≠ path) ∧
    (∀ path, (collect steps).files.filter (·.path = path) =
      (added steps).filter (·.path = path)) ∧
    (collect (steps ++ [.sort])).files.Pairwise (fun a b => a.path ≤ b.path) ∧
    ∀ other, added other = added steps →
      collect (other ++ [.sort]) = collect (steps ++ [.sort]) := by
  have gathers := gathers_collect steps
  refine ⟨gathers.perm, gathers.perm.length_eq, gathers.totalBytes_eq,
    fun path file => gathers.find?_eq_some, fun path => gathers.find?_eq_none, gathers.inOrder,
    ?_, ?_⟩
  · rw [collect_sort]
    exact sort_pairwise _
  · intro other same
    rw [collect_sort, collect_sort]
    exact (same ▸ gathers_collect other).sort_eq gathers

/-- Steps that add two files with one path and sort in between. -/
def shopSteps : List Step :=
  [.add ⟨"shop/index.ts", "first"⟩, .sort, .add ⟨"index.ts", "root"⟩, .sort, .sort,
   .add ⟨"shop/index.ts", "second"⟩]

/-- Steps that add the same files and do not sort. -/
def shopAdditions : List Step :=
  [.add ⟨"shop/index.ts", "first"⟩, .add ⟨"index.ts", "root"⟩, .add ⟨"shop/index.ts", "second"⟩]

/-- Files that are added in one order come to the same when they are sorted in between. -/
theorem collect_shopSteps : added shopAdditions = added shopSteps ∧
    collect (shopAdditions ++ [.sort]) = collect (shopSteps ++ [.sort]) := by
  have same : added shopAdditions = added shopSteps := by rfl
  exact ⟨same, (collect_gathers shopSteps).2.2.2.2.2.2.2 shopAdditions same⟩

end SourceFiles

end RouteClient
