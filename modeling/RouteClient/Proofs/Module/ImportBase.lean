import RouteClient.Proofs.Module.Confinement
import RouteClient.Proofs.Module.Resolution

/-!
# Where imports lead

A module file imports the helpers from a place that it names by steps upwards: one for each segment
of its module, and one more. From the directory of the file these steps lead to the directory above
that of all module files, whatever the module is (`SourceFile.OfUnit.importPlace_eq`). This is the
output directory exactly when the directory of module files comes down to a single name
(`importPlace_eq_nil_iff`).
-/

namespace RouteClient

namespace PathText

/-- Takes one more part of a path. A part that takes no step is dropped, and `..` is cancelled with
the part before it, if there is one that leads down. -/
def reduceStep (reduced : List String) (part : String) : List String :=
  if isIdle part then reduced
  else if part = ".." ∧ reduced.getLast?.any (· ≠ "..") then reduced.dropLast
  else reduced ++ [part]

/-- The parts of a path that are left when each `..` has been cancelled with the part before it. -/
def reduce (parts : List String) : List String := parts.foldl reduceStep []

variable {reduced names : List String} {name : String}

private theorem reduceStep_name (named : IsName name) :
    reduceStep reduced name = reduced ++ [name] := by
  have takesStep : isIdle name = false := by simp [isIdle, named.1, named.2.1]
  simp [reduceStep, takesStep, named.2.2]

/-- A step up takes the name before it away. -/
theorem reduceStep_up (down : name ≠ "..") : reduceStep (reduced ++ [name]) ".." = reduced := by
  have takesStep : isIdle ".." = false := by decide
  simp [reduceStep, takesStep, down]

private theorem foldl_reduceStep_names (named : ∀ name ∈ names, IsName name) :
    names.foldl reduceStep reduced = reduced ++ names := by
  induction names generalizing reduced with
  | nil => rw [List.foldl_nil, List.append_nil]
  | cons name names ih =>
      obtain ⟨isName, named⟩ := List.forall_mem_cons.mp named
      rw [List.foldl_cons, reduceStep_name isName, ih named, List.append_assoc,
        List.singleton_append]

/-- As many steps upwards as there are names lead back. -/
theorem foldl_reduceStep_up (named : ∀ name ∈ names, IsName name) :
    (List.replicate names.length "..").foldl reduceStep (reduced ++ names) = reduced := by
  -- The first step upwards cancels the last name.
  induction names using List.reverseRecOn with
  | nil => rw [List.length_nil, List.replicate_zero, List.foldl_nil, List.append_nil]
  | append_singleton names name ih =>
      have last : IsName name := named name (by simp)
      rw [List.length_append, List.length_singleton, List.replicate_succ, List.foldl_cons,
        ← List.append_assoc, reduceStep_up last.2.2]
      exact ih fun other member => named other (List.mem_append_left [name] member)

/-- One step upwards leads to the start exactly from a single name. -/
theorem reduceStep_up_eq_nil :
    reduceStep reduced ".." = [] ↔ ∃ name, name ≠ ".." ∧ reduced = [name] := by
  rcases List.eq_nil_or_concat reduced with rfl | ⟨front, last, rfl⟩
  · simp [reduceStep, isIdle]
  rw [List.concat_eq_append]
  by_cases down : last = ".."
  · have takesStep : isIdle ".." = false := by decide
    have longer : reduceStep (front ++ [last]) ".." = front ++ [last] ++ [".."] := by
      simp [reduceStep, takesStep, down]
    rw [longer]
    refine iff_of_false (by simp) ?_
    rintro ⟨name, notUp, same⟩
    have isLast : last = name := by
      have lasts := congrArg List.getLast? same
      rwa [List.getLast?_concat, List.getLast?_singleton, Option.some.injEq] at lasts
    exact notUp (isLast ▸ down)
  · rw [reduceStep_up down]
    constructor
    · rintro rfl
      exact ⟨last, down, rfl⟩
    · rintro ⟨name, _, same⟩
      have fronts := congrArg List.dropLast same
      rwa [List.dropLast_concat] at fronts

private theorem parts_ups (count : Nat) :
    parts (String.join (List.replicate count "../")) = List.replicate count ".." ++ [""] := by
  induction count with
  | zero => decide
  | succ count ih =>
      have step : parts ".." = [".."] := by decide
      have split (rest : String) : "../" ++ rest = ".." ++ "/" ++ rest := rfl
      rw [List.replicate_succ, String.join_cons, split, parts_slash, step, ih, List.replicate_succ]
      rfl

end PathText

open PathText (reduce reduceStep)

/-- The prefix of imports has one step up for the module and one for each of its segments. -/
theorem ModulePath.parts_importBase (m : ModulePath) :
    PathText.parts m.importBase = "." :: List.replicate (m.depth + 1) ".." ++ [""] := by
  have here : PathText.parts "." = ["."] := by decide
  have split (rest : String) : "./" ++ rest = "." ++ "/" ++ rest := rfl
  rw [ModulePath.importBase, split, PathText.parts_slash, here, PathText.parts_ups]
  rfl

/-- The directory of module files comes down to a single name, so that it lies in the output
directory itself. -/
def Settings.HasSingleDirectory (s : Settings) : Prop :=
  ∃ name, name ≠ ".." ∧ reduce (PathText.parts s.functionalDir) = [name]

/-- The place that a file of a module imports the helpers from, seen from the output directory. -/
def SourceFile.importPlace (file : SourceFile) (m : ModulePath) : List String :=
  reduce (PathText.parts (PathText.directory file.path ++ "/" ++ m.importBase))

variable {s : Settings} {routes : List Route} {file other : SourceFile} {u v : ModuleUnit}

/-- The segments of a generated module are names. -/
theorem SourceFile.OfUnit.named_segments (ofUnit : file.OfUnit s routes u) :
    ∀ segment ∈ u.path.segments, PathText.IsName segment := by
  obtain ⟨plan, planned, _⟩ := ofUnit.planned
  have tree := ModulePlan.treeOf_ofRoutes planned
  have member := ofUnit.mem_modules planned
  intro segment listed
  exact ((ModulePlan.admitted_ofRoutes planned).harmless tree member listed).isName

/-- Imports lead to the directory above that of all module files. -/
theorem SourceFile.OfUnit.importPlace_eq (ofUnit : file.OfUnit s routes u) :
    file.importPlace u.path = reduceStep (reduce (PathText.parts s.functionalDir)) ".." := by
  have directory : PathText.parts (PathText.directory file.path) =
      PathText.parts s.functionalDir ++ u.path.segments := by
    have split := ofUnit.parts_eq
    rw [← List.append_assoc] at split
    exact PathText.parts_directory split
      (List.append_ne_nil_of_left_ne_nil (PathText.parts_ne_nil _) _)
  have named := ofUnit.named_segments
  have stays (part : String) (idle : PathText.isIdle part = true) (reduced : List String) :
      reduceStep reduced part = reduced := by rw [reduceStep, if_pos idle]
  have base : PathText.parts u.path.importBase =
      "." :: (List.replicate u.path.segments.length ".." ++ ["..", ""]) := by
    rw [ModulePath.parts_importBase, ModulePath.depth, List.replicate_succ']
    simp
  rw [importPlace, PathText.parts_slash, directory, base, reduce, reduce]
  simp only [List.foldl_append, List.foldl_cons, List.foldl_nil, stays "." (by decide),
    stays "" (by decide), PathText.foldl_reduceStep_names named, PathText.foldl_reduceStep_up named]

/-- **Where imports lead.** All module files import the helpers from one place, and it is the output
directory exactly when the directory of module files comes down to a single name. -/
theorem importPlace_eq_nil_iff (ofUnit : file.OfUnit s routes u)
    (otherOf : other.OfUnit s routes v) :
    (file.importPlace u.path = [] ↔ s.HasSingleDirectory) ∧
      file.importPlace u.path = other.importPlace v.path := by
  rw [ofUnit.importPlace_eq, otherOf.importPlace_eq]
  exact ⟨PathText.reduceStep_up_eq_nil, rfl⟩

/-- Settings in which the directory of module files is named by a detour. -/
def Settings.byDetour : Settings := { functionalDir := "./src/../functional/" }

/-- Imports lead to the output directory although the directory of module files is named by a
detour. -/
theorem importPlace_shopItems : ∃ (file other : SourceFile) (u v : ModuleUnit),
    file.OfUnit .byDetour Route.shopItemsApart u ∧ other.OfUnit .byDetour Route.shopItemsApart v ∧
      u.path = ⟨["shop", "items"]⟩ ∧ v.path = .root ∧
        file.importPlace u.path = [] ∧ other.importPlace v.path = [] := by
  have planned : ModulePlan.ofRoutes Route.shopItemsApart =
      .ok [⟨.root, [], ["shop", "shop-items"]⟩, ⟨⟨["shop"]⟩, [], ["items"]⟩,
        ⟨⟨["shop", "items"]⟩, [.bare "list" .get "/shop/items"], []⟩,
        ⟨⟨["shop-items"]⟩, [.bare "find" .get "/shop-items"], []⟩] := by rfl
  have texts : ∀ r ∈ Route.shopItemsApart, ∃ text, r.unitText .byDetour = .ok text := by
    simp only [Route.shopItemsApart, List.forall_mem_cons]
    exact ⟨⟨_, by rfl⟩, ⟨_, by rfl⟩, by simp⟩
  obtain ⟨files, made⟩ := exists_generate_of_texts planned texts (by decide)
  obtain ⟨file, u, ofUnit, path⟩ :=
    exists_ofUnit (m := ⟨["shop", "items"]⟩) made planned (by decide)
  obtain ⟨other, v, otherOf, otherPath⟩ := exists_ofUnit (m := .root) made planned (by decide)
  obtain ⟨single, same⟩ := importPlace_eq_nil_iff ofUnit otherOf
  have leads : file.importPlace u.path = [] := single.mpr ⟨"functional", by decide, by decide⟩
  exact ⟨file, other, u, v, ofUnit, otherOf, path, otherPath, leads, same ▸ leads⟩

/-- Settings in which the directory of module files lies in another directory. -/
def Settings.nested : Settings := { functionalDir := "src/functional" }

/-- A route of the root. -/
def Route.health : List Route := [.bare "health" .get "/"]

/-- It has a module of its own. -/
theorem Route.planned_health :
    ModulePlan.ofRoutes Route.health = .ok [⟨.root, [.bare "health" .get "/"], []⟩] := by
  rfl

/-- From below another directory, imports lead to this directory and not to that of the output. -/
theorem nested_importPlace : Settings.validate .nested = .ok () ∧
    ∃ (files : SourceFiles) (file : SourceFile) (u : ModuleUnit),
      generate .nested Route.health = .ok files ∧ file ∈ files.files ∧
      file.OfUnit .nested Route.health u ∧ file.path = "src/functional/index.ts" ∧
        u.path.importBase = "./../" ∧ file.importPlace u.path = ["src"] := by
  have planned := Route.planned_health
  have texts : ∀ r ∈ Route.health, ∃ text, r.unitText .nested = .ok text := by
    simp only [Route.health, List.forall_mem_cons]
    exact ⟨⟨_, by rfl⟩, by simp⟩
  obtain ⟨files, made⟩ := exists_generate_of_texts planned texts (by decide)
  obtain ⟨file, u, ofUnit, path⟩ := exists_ofUnit (m := .root) made planned (by decide)
  refine ⟨by rfl, files, file, u, made, (mem_files_iff made).mpr ⟨u, ofUnit⟩, ofUnit, ?_, ?_, ?_⟩
  · rw [ofUnit.path_eq, path]
    decide
  · rw [path]
    decide
  · rw [ofUnit.importPlace_eq]
    decide

end RouteClient
