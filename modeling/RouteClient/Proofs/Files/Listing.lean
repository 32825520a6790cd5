import Mathlib.Data.List.Sort
import RouteClient.Proofs.Files.Entries
import RouteClient.Proofs.Text.ByteOrder

/-!
# Listing the JSON files of a directory

What `FileNode.jsonFiles` lists is told without the walk: `Listing` says which names lead to a
listed file and that the names ascend, compared name by name and byte by byte. A tree has one
listing only (`Listing.unique`), the walk gives it (`exists_listing`), and the order in which
directories hold their entries has no influence on it (`Relisted.jsonFiles_eq`).
-/

namespace RouteClient

namespace FileNode

mutual

/-- No directory of the tree holds two entries of one name. -/
def Proper : FileNode → Prop
  | .file _ => True
  | .directory entries => (entries.map (·.1)).Nodup ∧ ProperEntries entries

/-- All nodes among the entries are proper. -/
def ProperEntries : List (String × FileNode) → Prop
  | [] => True
  | (_, node) :: entries => node.Proper ∧ ProperEntries entries

end

/-- The trees hold the same, and each directory may have its entries in another order. -/
inductive Relisted : FileNode → FileNode → Prop where
  | file (content : Content) : Relisted (.file content) (.file content)
  | directory {entries others : List (String × FileNode)}
      (names : (entries.map (·.1)).Perm (others.map (·.1)))
      (each : ∀ name node other, (name, node) ∈ entries → (name, other) ∈ others →
        Relisted node other) :
      Relisted (.directory entries) (.directory others)

/-- The last of the names has the extension `json`, with something in front of it. -/
def IsJson (names : List String) : Prop :=
  ∃ front stem, stem ≠ "" ∧ names = front ++ [stem ++ ".json"]

/-- The JSON files below a node, by the names that lead to them, with ascending names. -/
structure Listing (node : FileNode) (listed : List (List String × Content)) : Prop where
  mem_iff : ∀ names content, (names, content) ∈ listed ↔
    node.get? names = some (.file content) ∧ IsJson names
  ascending : listed.Pairwise fun first second =>
    first.1.map Text.bytes < second.1.map Text.bytes

/-- A listed file with its path, where `dir` is the path of the directory. -/
def placed (dir : String) (file : List String × Content) : String × FileNode :=
  (file.1.foldl PathText.join dir, .file file.2)

variable {node other : FileNode} {entries : List (String × FileNode)} {name : String}
  {names : List String} {listed again : List (List String × Content)} {content : Content}

private theorem ProperEntries.of_mem (proper : ProperEntries entries)
    (member : (name, node) ∈ entries) :
    node.Proper := by
  induction entries with
  | nil => cases member
  | cons first entries ih =>
      rcases List.mem_cons.mp member with rfl | later
      · exact proper.1
      · exact ih proper.2 later

private theorem mem_of_child?_eq_some (found : child? entries name = some node) :
    (name, node) ∈ entries := by
  obtain ⟨⟨key, node⟩, first, rfl⟩ := Option.map_eq_some_iff.mp found
  have same : key = name := by simpa using List.find?_some first
  exact same ▸ List.mem_of_find?_eq_some first

private theorem child?_eq_some (distinct : (entries.map (·.1)).Nodup) :
    child? entries name = some node ↔ (name, node) ∈ entries := by
  refine ⟨mem_of_child?_eq_some, fun member => ?_⟩
  induction entries with
  | nil => cases member
  | cons first entries ih =>
      rw [List.map_cons, List.nodup_cons] at distinct
      rcases List.mem_cons.mp member with rfl | later
      · simp [child?]
      · have differs : first.1 ≠ name := by
          intro same
          exact distinct.1 (same ▸ List.mem_map_of_mem (f := (·.1)) later)
        have found := ih distinct.2 later
        unfold child? at found ⊢
        rw [List.find?_cons_of_neg (by simpa using differs), found]

private theorem child?_isSome : (child? entries name).isSome = true ↔ name ∈ entries.map (·.1) := by
  rw [child?, Option.isSome_map, List.find?_isSome]
  simp

/-- What stands in a proper tree is proper. -/
theorem Proper.get? (proper : node.Proper) (found : node.get? names = some other) :
    other.Proper := by
  induction names generalizing node with
  | nil => exact Option.some.inj found ▸ proper
  | cons name names ih =>
      cases node with
      | file content => cases found
      | directory entries =>
          obtain ⟨child, isChild, below⟩ := Option.bind_eq_some_iff.mp found
          exact ih (proper.2.of_mem (mem_of_child?_eq_some isChild)) below

section Names

/-- A name has the extension when it has something in front of it. -/
theorem hasJsonExtension_iff : hasJsonExtension name = true ↔ ∃ stem, stem ≠ "" ∧
    name = stem ++ ".json" := by
  unfold hasJsonExtension
  constructor
  · intro extension
    split at extension
    next c rest reversed =>
      refine ⟨String.ofList (c :: rest).reverse, by simp, ?_⟩
      apply String.toList_injective
      rw [← List.reverse_reverse name.toList, reversed]
      simp
    next => cases extension
  · rintro ⟨stem, nonempty, rfl⟩
    obtain ⟨c, rest, reversed⟩ : ∃ c rest, stem.toList.reverse = c :: rest := by
      apply List.exists_cons_of_ne_nil
      simpa using nonempty
    have whole : (stem ++ ".json").toList.reverse =
        'n' :: 'o' :: 's' :: 'j' :: '.' :: c :: rest := by
      rw [String.toList_append, List.reverse_append, reversed]
      rfl
    rw [whole]
    rfl

private theorem isJson_singleton : IsJson [name] ↔ hasJsonExtension name = true := by
  rw [hasJsonExtension_iff]
  constructor
  · rintro ⟨front, stem, nonempty, split⟩
    cases front with
    | nil => exact ⟨stem, nonempty, (List.cons.inj split).1⟩
    | cons first front => simp at split
  · rintro ⟨stem, nonempty, rfl⟩
    exact ⟨[], stem, nonempty, rfl⟩

private theorem isJson_cons (inside : names ≠ []) : IsJson (name :: names) ↔ IsJson names := by
  constructor
  · rintro ⟨front, stem, nonempty, split⟩
    cases front with
    | nil => exact absurd (List.cons.inj split).2 inside
    | cons first front => exact ⟨front, stem, nonempty, (List.cons.inj split).2⟩
  · rintro ⟨front, stem, nonempty, rfl⟩
    exact ⟨name :: front, stem, nonempty, rfl⟩

end Names

/-- A tree has one listing. -/
theorem Listing.unique (listing : Listing node listed) (second : Listing node again) :
    listed = again := by
  have antisymm : Std.Antisymm fun first second : List String × Content =>
      first.1.map Text.bytes < second.1.map Text.bytes :=
    ⟨fun _ _ before after => absurd (List.lt_trans before after) (List.lt_irrefl _)⟩
  have irrefl : Std.Irrefl fun first second : List String × Content =>
      first.1.map Text.bytes < second.1.map Text.bytes := ⟨fun _ => List.lt_irrefl _⟩
  apply List.Pairwise.eq_of_mem_iff listing.ascending second.ascending
  intro file
  rw [listing.mem_iff, second.mem_iff]

/-- A listing has no file twice. -/
theorem Listing.nodup (listing : Listing node listed) : (listed.map (·.1)).Nodup := by
  rw [List.Nodup, List.pairwise_map]
  refine listing.ascending.imp fun before same => ?_
  rw [same] at before
  exact List.lt_irrefl _ before

private theorem get?_directory (distinct : (entries.map (·.1)).Nodup) :
    (directory entries).get? names = some (.file content) ↔
      ∃ e ∈ entries, (directory [e]).get? names = some (.file content) := by
  cases names with
  | nil => simp [FileNode.get?]
  | cons name names =>
      simp only [FileNode.get?, Option.bind_eq_some_iff, child?_eq_some distinct]
      constructor
      · intro reached
        obtain ⟨node, member, below⟩ := reached
        exact ⟨(name, node), member, node, by simp [child?], below⟩
      · intro reached
        obtain ⟨e, member, node, found, below⟩ := reached
        obtain rfl := List.mem_singleton.mp (mem_of_child?_eq_some found)
        exact ⟨node, member, below⟩

section Walk

variable {e : String × FileNode} {file : List String × Content}

private theorem get?_singleton (name : String) (node : FileNode) (first : String)
    (below : List String) :
    (directory [(name, node)]).get? (first :: below) =
      if name = first then node.get? below else none := by
  by_cases same : name = first <;> simp [FileNode.get?, child?, same]

/-- The names of a listed file begin with that of the entry that it stands in. -/
theorem Listing.begins (listing : Listing (.directory [e]) listed) (member : file ∈ listed) :
    ∃ below, file.1 = e.1 :: below := by
  have found := ((listing.mem_iff file.1 file.2).mp member).1
  cases names : file.1 with
  | nil =>
      rw [names] at found
      cases found
  | cons first below =>
      rw [names, get?_singleton] at found
      split at found
      next same => exact ⟨below, by rw [same]⟩
      next => cases found

/-- What is listed of a file in a directory. -/
def fileListing (name : String) (content : Content) : List (List String × Content) :=
  if hasJsonExtension name then [([name], content)] else []

private theorem listing_fileEntry (name : String) (content : Content) :
    Listing (.directory [(name, .file content)]) (fileListing name content) := by
  unfold fileListing
  refine ⟨fun names read => ?_, by split <;> simp⟩
  cases names with
  | nil => split <;> simp [FileNode.get?]
  | cons first below =>
      rw [get?_singleton]
      cases below with
      | nil =>
          rw [isJson_singleton]
          by_cases same : name = first
          · subst same
            split
            next extension => simp [FileNode.get?, extension, eq_comm]
            next extension => simp [extension]
          · split <;> simp [Ne.symm same]
      | cons second below => split <;> simp [FileNode.get?]

/-- The listing of a directory as an entry of another one. -/
theorem Listing.below (listing : Listing (.directory entries) listed) (name : String) :
    Listing (.directory [(name, .directory entries)])
      (listed.map fun file => (name :: file.1, file.2)) := by
  refine ⟨fun names content => ?_, ?_⟩
  · cases names with
    | nil => simp [FileNode.get?]
    | cons first below =>
        rw [get?_singleton, List.mem_map]
        constructor
        · intro listedBelow
          obtain ⟨⟨below, content⟩, member, same⟩ := listedBelow
          cases same
          have found := (listing.mem_iff _ _).mp member
          have inside : below ≠ [] := by
            rintro rfl
            cases found.1
          rw [if_pos rfl, isJson_cons inside]
          exact found
        · intro reached
          obtain ⟨found, extension⟩ := reached
          split at found
          next same =>
            have inside : below ≠ [] := by
              rintro rfl
              cases found
            subst same
            exact ⟨(below, content), (listing.mem_iff _ _).mpr
              ⟨found, (isJson_cons inside).mp extension⟩, rfl⟩
          next => cases found
  · rw [List.pairwise_map]
    exact listing.ascending.imp fun before => List.cons_lt_cons_iff.mpr (Or.inr ⟨rfl, before⟩)

/-- Entries of a directory with the listing of each of them. -/
abbrev Groups := List ((String × FileNode) × List (List String × Content))

/-- The groups in ascending order of the names of their entries. -/
def Groups.inOrder (groups : Groups) : Groups :=
  groups.mergeSort fun first second => decide (first.1.1 ≤ second.1.1)

private theorem Groups.inOrder_ascending {groups : Groups} (distinct : (groups.map (·.1.1)).Nodup) :
    groups.inOrder.Pairwise fun first second => first.1.1 < second.1.1 := by
  have sorted := Text.pairwise_mergeSort (fun g : (String × FileNode) × _ => g.1.1) groups
  have apart : (groups.inOrder.map (·.1.1)).Nodup :=
    ((List.mergeSort_perm groups _).map (·.1.1)).nodup_iff.mpr distinct
  refine (sorted.and (List.pairwise_map.mp apart)).imp fun both => ?_
  exact lt_of_le_of_ne both.1 both.2

/-- The listings of the entries, in the order of the names of the entries, make the listing of the
directory. -/
theorem Groups.listing {groups : Groups} (distinct : (groups.map (·.1.1)).Nodup)
    (each : ∀ g ∈ groups, Listing (.directory [g.1]) g.2) :
    Listing (.directory (groups.map (·.1))) (groups.inOrder.flatMap (·.2)) := by
  have same (g : (String × FileNode) × List (List String × Content)) :
      g ∈ groups.inOrder ↔ g ∈ groups := (List.mergeSort_perm groups _).mem_iff
  refine ⟨fun names content => ?_, ?_⟩
  · rw [get?_directory (by rwa [List.map_map])]
    simp only [List.mem_flatMap, same]
    constructor
    · intro grouped
      obtain ⟨g, member, listed⟩ := grouped
      have found := ((each g member).mem_iff _ _).mp listed
      exact ⟨⟨g.1, List.mem_map_of_mem member, found.1⟩, found.2⟩
    · intro reached
      obtain ⟨⟨e, member, found⟩, extension⟩ := reached
      obtain ⟨g, present, rfl⟩ := List.mem_map.mp member
      exact ⟨g, present, ((each g present).mem_iff _ _).mpr ⟨found, extension⟩⟩
  · rw [List.pairwise_flatMap]
    refine ⟨fun g member => (each g ((same g).mp member)).ascending, ?_⟩
    refine (Groups.inOrder_ascending distinct).imp_of_mem ?_
    intro g h inG inH before file listed later listedLater
    obtain ⟨_, names⟩ := (each g ((same g).mp inG)).begins listed
    obtain ⟨_, namesLater⟩ := (each h ((same h).mp inH)).begins listedLater
    rw [names, namesLater, List.map_cons, List.map_cons]
    exact List.cons_lt_cons_iff.mpr (Or.inl (Text.bytes_lt_iff.mpr before))

mutual

/-- The walk through a directory gives its listing, with the path of each file. -/
theorem exists_listing (dir : String) : (node : FileNode) → node.Proper →
    ∃ listed, Listing node listed ∧ jsonFiles dir node = listed.map (placed dir)
  | .file content, _ => by
      refine ⟨[], ⟨fun names read => ?_, List.Pairwise.nil⟩, rfl⟩
      cases names with
      | nil =>
          simp only [List.not_mem_nil, false_iff, not_and]
          rintro _ ⟨front, stem, _, split⟩
          simp at split
      | cons first below => simp [FileNode.get?]
  | .directory entries, ⟨distinct, proper⟩ => by
      obtain ⟨groups, rfl, each, walked⟩ := exists_groups dir entries proper
      rw [List.map_map] at distinct
      refine ⟨groups.inOrder.flatMap (·.2), Groups.listing distinct each, ?_⟩
      rw [jsonFiles, walked, inNameOrder, ← List.map_mergeSort (by intros; rfl), List.flatMap_map,
        List.map_flatMap]
      rfl

/-- The walk through the entries of a directory gives the listing of each of them. -/
theorem exists_groups (dir : String) :
    (entries : List (String × FileNode)) → ProperEntries entries →
    ∃ groups : Groups, groups.map (·.1) = entries ∧
      (∀ g ∈ groups, Listing (.directory [g.1]) g.2) ∧
      entryFiles dir entries = groups.map fun g => (g.1.1, g.2.map (placed dir))
  | [], _ => ⟨[], rfl, nofun, rfl⟩
  | (name, .file content) :: entries, ⟨_, proper⟩ => by
      obtain ⟨groups, rfl, each, walked⟩ := exists_groups dir entries proper
      refine ⟨((name, .file content), fileListing name content) :: groups, rfl,
        List.forall_mem_cons.mpr ⟨listing_fileEntry name content, each⟩, ?_⟩
      rw [entryFiles, walked, List.map_cons, fileListing]
      split <;> rfl
  | (name, .directory inner) :: entries, ⟨properNode, proper⟩ => by
      obtain ⟨listed, listing, inside⟩ :=
        exists_listing (PathText.join dir name) (.directory inner) properNode
      obtain ⟨groups, rfl, each, walked⟩ := exists_groups dir entries proper
      refine ⟨((name, .directory inner), _) :: groups, rfl,
        List.forall_mem_cons.mpr ⟨listing.below name, each⟩, ?_⟩
      rw [entryFiles, walked, inside, List.map_cons, List.map_map]
      rfl

end

end Walk

section Orders

private theorem properEntries_of_forall
    (proper : ∀ name node, (name, node) ∈ entries → node.Proper) :
    ProperEntries entries := by
  induction entries with
  | nil => trivial
  | cons first entries ih =>
      obtain ⟨name, node⟩ := first
      exact ⟨proper name node List.mem_cons_self,
        ih fun name node member => proper name node (List.mem_cons_of_mem _ member)⟩

private theorem child?_isSome_congr {others : List (String × FileNode)}
    (names : (entries.map (·.1)).Perm (others.map (·.1))) (name : String) :
    (child? others name).isSome = (child? entries name).isSome := by
  rw [Bool.eq_iff_iff, child?_isSome, child?_isSome, names.mem_iff]

private theorem Relisted.proper (relisted : Relisted node other) (proper : node.Proper) :
    other.Proper := by
  induction relisted with
  | file content => trivial
  | @directory entries others names _ ih =>
      refine ⟨names.nodup_iff.mp proper.1, properEntries_of_forall fun name other member => ?_⟩
      have named : name ∈ entries.map (·.1) := names.mem_iff.mpr (List.mem_map_of_mem member)
      obtain ⟨⟨_, node⟩, present, rfl⟩ := List.mem_map.mp named
      exact ih _ node other present member (proper.2.of_mem present)

/-- What the same names lead to is relisted as well. -/
theorem Relisted.get? (relisted : Relisted node other) (names : List String) :
    Option.Rel Relisted (node.get? names) (other.get? names) := by
  induction names generalizing node other with
  | nil => exact .some relisted
  | cons name names ih =>
      cases relisted with
      | file content => exact .none
      | @directory entries others same each =>
          have both := child?_isSome_congr same name
          cases found : child? entries name with
          | none =>
              rw [found, Option.isSome_none, Option.isSome_eq_false_iff,
                Option.isNone_iff_eq_none] at both
              simp only [FileNode.get?, found, both]
              exact .none
          | some node =>
              rw [found, Option.isSome_some, Option.isSome_iff_exists] at both
              obtain ⟨other, foundOther⟩ := both
              simp only [FileNode.get?, found, foundOther]
              exact ih (each name node other (mem_of_child?_eq_some found)
                (mem_of_child?_eq_some foundOther))

/-- The same files stand in directories whose entries are listed in another order. -/
theorem Relisted.get?_eq_file (relisted : Relisted node other) (names : List String)
    (content : Content) :
    other.get? names = some (.file content) ↔ node.get? names = some (.file content) := by
  have related := relisted.get? names
  generalize node.get? names = found, other.get? names = foundOther at related ⊢
  cases related with
  | none => exact Iff.rfl
  | some same =>
      cases same with
      | file content => exact Iff.rfl
      | directory => simp

/-- The order in which directories hold their entries does not change what is listed. -/
theorem Relisted.jsonFiles_eq (relisted : Relisted node other) (proper : node.Proper)
    (dir : String) : jsonFiles dir other = jsonFiles dir node := by
  obtain ⟨listed, listing, walked⟩ := exists_listing dir node proper
  obtain ⟨again, second, walkedAgain⟩ := exists_listing dir other (relisted.proper proper)
  have moved : Listing node again := by
    refine ⟨fun names content => ?_, second.ascending⟩
    rw [second.mem_iff, relisted.get?_eq_file]
  rw [walked, walkedAgain, listing.unique moved]

/-- Steps lead to the same names when the entries are listed in another order. -/
theorem Relisted.follow_eq (relisted : Relisted node other) (place steps : List String) :
    other.follow place steps = node.follow place steps := by
  induction steps generalizing place with
  | nil => rfl
  | cons step steps ih =>
      have related := relisted.get? place
      rw [follow, follow]
      generalize node.get? place = found, other.get? place = foundOther at related ⊢
      cases related with
      | none => rfl
      | some same =>
          cases same with
          | file content => rfl
          | directory names each => simp only [ih, child?_isSome_congr names step]

/-- A path fails to lead anywhere in both trees, or leads to nodes that hold the same. -/
theorem Relisted.lookUp (relisted : Relisted node other) (path : String) :
    (∃ fault, node.lookUp path = .error fault ∧ other.lookUp path = .error fault) ∨
      ∃ found foundOther, node.lookUp path = .ok found ∧ other.lookUp path = .ok foundOther ∧
        Relisted found foundOther := by
  unfold FileNode.lookUp
  rw [relisted.follow_eq]
  split_ifs
  · exact Or.inl ⟨_, rfl, rfl⟩
  · exact Or.inl ⟨_, rfl, rfl⟩
  · cases node.follow [] (PathText.steps path) with
    | error fault => exact Or.inl ⟨fault, rfl, rfl⟩
    | ok place =>
        have related := relisted.get? place
        simp only [bind, Except.bind]
        generalize node.get? place = found, other.get? place = foundOther at related ⊢
        cases related with
        | none => exact Or.inl ⟨_, rfl, rfl⟩
        | some same => exact Or.inr ⟨_, _, rfl, rfl, same⟩

end Orders

end FileNode

end RouteClient
