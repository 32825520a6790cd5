import RouteClient.Files.Tree
import RouteClient.Proofs.Files.PathSteps

/-!
# Entries of file trees

What a file tree holds is told by its entries: at each list of names a file with its content, a
directory, or nothing. Setting an entry that is no directory leaves all others as they are
(`FileNode.look_set`), so that a file that is written is the only one to change
(`FileNode.writeText_cases`).
-/

namespace RouteClient

/-- What stands at a place of a file tree. -/
inductive Entry where
  | file (content : Content)
  | directory
  deriving DecidableEq

namespace FileNode

/-- What a node is as an entry. -/
def entry : FileNode → Entry
  | .file content => .file content
  | .directory _ => .directory

/-- The entry at given names, if anything stands there. -/
def look (root : FileNode) (names : List String) : Option Entry := (root.get? names).map entry

variable {root new : FileNode} {place names front : List String} {name : String}

/-- Names lead on from where the names above lead. -/
theorem get?_append (root : FileNode) (above below : List String) :
    root.get? (above ++ below) = (root.get? above).bind (get? · below) := by
  induction above generalizing root with
  | nil => rw [List.nil_append, get?, Option.bind_some]
  | cons name above ih =>
      cases root with
      | file content => rfl
      | directory entries =>
          rw [List.cons_append, get?, get?, Option.bind_assoc]
          simp only [ih]

/-- A directory stands where there is one with some entries. -/
theorem look_eq_directory :
    root.look names = some .directory ↔ ∃ entries, root.get? names = some (.directory entries) := by
  rw [look, Option.map_eq_some_iff]
  refine ⟨fun ⟨node, found, isDirectory⟩ => ?_, fun ⟨entries, found⟩ => ⟨_, found, rfl⟩⟩
  cases node with
  | file content => cases isDirectory
  | directory entries => exact ⟨entries, found⟩

/-- Something stands only in directories. -/
theorem look_above {e : Entry} (found : root.look names = some e) (inside : front <+: names)
    (differs : front ≠ names) : root.look front = some .directory := by
  obtain ⟨below, rfl⟩ := inside
  obtain ⟨node, reached, _⟩ := Option.map_eq_some_iff.mp found
  rw [get?_append, Option.bind_eq_some_iff] at reached
  obtain ⟨above, isAbove, reached⟩ := reached
  cases below with
  | nil => exact absurd (List.append_nil front).symm differs
  | cons name below =>
      cases above with
      | file content => cases reached
      | directory entries => exact look_eq_directory.mpr ⟨entries, isAbove⟩

/-- In a directory stand its entries. -/
theorem look_child {entries : List (String × FileNode)}
    (found : root.get? place = some (.directory entries)) (name : String) :
    root.look (place ++ [name]) = (child? entries name).map entry := by
  rw [look, get?_append, found, Option.bind_some, get?]
  cases child? entries name <;> rfl

/-- Nothing stands below an empty directory. -/
theorem look_of_empty (empty : root.get? place = some (.directory [])) (nonempty : names ≠ []) :
    root.look (place ++ names) = none := by
  obtain ⟨name, rest, rfl⟩ := List.exists_cons_of_ne_nil nonempty
  rw [look, get?_append, empty]
  rfl

private theorem child?_setEntry (entries : List (String × FileNode)) (name other : String) :
    child? (setEntry name new entries) other =
      if other = name then some new else child? entries other := by
  induction entries with
  | nil =>
      by_cases same : name = other
      · simp [setEntry, child?, same]
      · simp [setEntry, child?, same, Ne.symm same]
  | cons first entries ih =>
      obtain ⟨key, old⟩ := first
      unfold child? at ih
      by_cases replaced : key = name
      · by_cases same : name = other
        · simp [setEntry, child?, replaced, same]
        · simp [setEntry, child?, replaced, same, Ne.symm same]
      · by_cases same : key = other
        · have kept : other ≠ name := same ▸ replaced
          simp [setEntry, child?, same, kept]
        · simp [setEntry, child?, replaced, same, ih]

private theorem look_cons (entries : List (String × FileNode)) (name : String)
    (names : List String) :
    (directory entries).look (name :: names) = (child? entries name).bind (·.look names) := by
  rw [look, get?, Option.map_bind]
  rfl

private theorem set_cons {entries : List (String × FileNode)} {child : FileNode}
    (nonempty : names ≠ [])
    (found : child? entries name = some child) : set new (name :: names) (.directory entries) =
      .directory (setEntry name (set new names child) entries) := by
  cases names with
  | nil => exact absurd rfl nonempty
  | cons next names => rw [set, found]; simp

/-- Where no directory stands, a node that holds nothing can be put into a directory. It is then the
one entry that has changed. -/
theorem look_set (new : FileNode) (leaf : ∀ name names, new.get? (name :: names) = none)
    (within : root.look place = some .directory)
    (free : root.look (place ++ [name]) ≠ some .directory) (other : List String) :
    (set new (place ++ [name]) root).look other =
      if other = place ++ [name] then some new.entry else root.look other := by
  obtain ⟨entries, found⟩ := look_eq_directory.mp within
  induction place generalizing root other with
  | nil =>
      obtain rfl : root = .directory entries := Option.some.inj found
      rw [List.nil_append, set]
      cases other with
      | nil => simp [look, get?, entry]
      | cons first rest =>
          rw [look_cons, look_cons, child?_setEntry]
          by_cases same : first = name
          · subst first
            cases rest with
            | nil => simp [look, get?]
            | cons next rest =>
                have empty : new.look (next :: rest) = none := by rw [look, leaf, Option.map_none]
                rw [if_pos rfl, Option.bind_some, empty, if_neg (by simp), ← look_cons]
                -- Nothing was below the place before, since it held no directory.
                apply Eq.symm
                apply Option.eq_none_iff_forall_ne_some.mpr
                intro e found
                exact free (look_above found ⟨next :: rest, rfl⟩ (by simp))
          · simp [same]
  | cons step place ih =>
      cases root with
      | file content => cases found
      | directory siblings =>
          obtain ⟨child, isChild, below⟩ := Option.bind_eq_some_iff.mp found
          have down (names : List String) : (directory siblings).look (step :: names) =
              child.look names := by rw [look_cons, isChild, Option.bind_some]
          rw [List.cons_append, set_cons (by simp) isChild]
          cases other with
          | nil => simp [look, get?, entry]
          | cons first rest =>
              rw [look_cons, child?_setEntry]
              by_cases same : first = step
              · subst first
                have isDirectory := look_eq_directory.mpr ⟨entries, below⟩
                have changed := ih isDirectory (down _ ▸ free) rest below
                simp [changed, down]
              · simp [same, look_cons]

/-- A directory stands in a directory. -/
theorem look_dropLast (within : root.look place = some .directory) :
    root.look place.dropLast = some .directory := by
  by_cases same : place.dropLast = place
  · rwa [same]
  · exact look_above within (List.dropLast_prefix place) same

/-- A text is written where no directory stands, and no other entry changes. -/
theorem writeText_cases (within : root.look place = some .directory) (name text : String) :
    (root.look (place ++ [name]) = some .directory ∧
      ∃ fault, writeText root place name text = (root, .error fault)) ∨
    root.look (place ++ [name]) ≠ some .directory ∧
      ∃ tree, writeText root place name text = (tree, .ok ()) ∧ ∀ names, tree.look names =
        if names = place ++ [name] then some (.file (.text text)) else root.look names := by
  unfold writeText
  by_cases taken : root.look (place ++ [name]) = some .directory
  · obtain ⟨entries, found⟩ := look_eq_directory.mp taken
    rw [found]
    exact Or.inl ⟨taken, _, rfl⟩
  · refine Or.inr ⟨taken, set (file (.text text)) (place ++ [name]) root, ?_, ?_⟩
    · split
      · next entries found => exact absurd (look_eq_directory.mpr ⟨entries, found⟩) taken
      · rfl
    · exact look_set _ (fun _ _ => rfl) within taken

end FileNode

end RouteClient
