import RouteClient.Files.PathText
import RouteClient.Module.File
import RouteClient.Proofs.Module.Tree
import RouteClient.Proofs.Text.Splitting

/-!
# Paths of module files

The path of a module's file has as its parts those of the directory of all module files, the
segments of the module and the name of the file (`ModulePath.parts_filePath`). Segments come from
between the slashes of a route path, so that different modules have different files
(`ModulePath.filePath_inj`).
-/

namespace RouteClient

namespace PathText

/-- Every path has a part. -/
theorem parts_ne_nil (path : String) : parts path ≠ [] := Text.splitAt_ne_nil '/' path

/-- No part of a path holds a slash. -/
theorem slash_not_mem_parts {path part : String} (member : part ∈ parts path) :
    '/' ∉ part.toList := Text.not_mem_of_mem_splitAt member

/-- A path with a slash in it has the parts of both sides. -/
theorem parts_slash (above below : String) :
    parts (above ++ "/" ++ below) = parts above ++ parts below :=
      Text.splitAt_append '/' above below

/-- A path without slashes is its only part. -/
theorem parts_of_not_mem {part : String} (plain : '/' ∉ part.toList) : parts part = [part] :=
  Text.splitAt_of_not_mem plain

/-- The file of a module is a part of its own. -/
theorem parts_index (directory : String) :
    parts (directory ++ "/index.ts") = parts directory ++ ["index.ts"] := by
  have fileName : parts "index.ts" = ["index.ts"] := by decide
  rw [← fileName, ← parts_slash, String.append_assoc]
  rfl

/-- Segments that are joined to a path are its parts. -/
theorem parts_intercalate {segments : List String} (nonempty : segments ≠ [])
    (plain : ∀ segment ∈ segments, '/' ∉ segment.toList) :
    parts ("/".intercalate segments) = segments := Text.splitAt_intercalate nonempty plain

/-- The parts of a path determine it. -/
theorem parts_inj {a b : String} (same : parts a = parts b) : a = b := Text.splitAt_inj '/' same

/-- The parts of a path come first in those of the paths below it. -/
theorem parts_prefix_iff {above path : String} :
    parts above <+: parts path ↔ path = above ∨ ∃ rest, path = above ++ "/" ++ rest :=
  Text.splitAt_prefix_iff

end PathText

namespace ModulePath

/-- A module whose segments hold no slashes. -/
def Segmented (m : ModulePath) : Prop := ∀ segment ∈ m.segments, '/' ∉ segment.toList

/-- The segments that a path is cut into hold no slashes. -/
theorem segmented_ofRoutePath (path : String) : (ofRoutePath path).Segmented := by
  intro segment member
  obtain ⟨chars, kept, rfl⟩ := List.mem_map.mp member
  rw [String.toList_ofList]
  exact not_mem_of_mem_splitOn (List.mem_filter.mp kept).1

variable {m other : ModulePath} {s : Settings}

/-- A name without slashes can be added as a segment. -/
theorem Segmented.child (segmented : m.Segmented) {name : String} (plain : '/' ∉ name.toList) :
    (m.child name).Segmented := by
  intro segment member
  rcases List.mem_append.mp member with above | last
  · exact segmented segment above
  · rw [List.mem_singleton.mp last]
    exact plain

/-- The parts of a file's path tell the module. -/
theorem parts_filePath (segmented : m.Segmented) : PathText.parts (m.filePath s) =
    PathText.parts s.functionalDir ++ (m.segments ++ ["index.ts"]) := by
  unfold filePath isRoot
  cases empty : m.segments with
  | nil => rw [List.isEmpty_nil, if_pos rfl, PathText.parts_index, List.nil_append]
  | cons first rest =>
      have joined : PathText.parts m.directory = first :: rest := by
        rw [directory, PathText.parts_intercalate (empty ▸ List.cons_ne_nil _ _) segmented, empty]
      rw [List.isEmpty_cons, if_neg Bool.false_ne_true, PathText.parts_index, PathText.parts_slash,
        joined, List.append_assoc]

/-- Different modules have different files. -/
theorem filePath_inj (segmented : m.Segmented) (otherToo : other.Segmented)
    (same : m.filePath s = other.filePath s) : m = other := by
  have parts := congrArg PathText.parts same
  rw [parts_filePath segmented, parts_filePath otherToo, List.append_cancel_left_eq,
    List.append_cancel_right_eq] at parts
  exact congrArg ModulePath.mk parts

end ModulePath

/-- The segments of planned modules hold no slashes. -/
theorem ModulePlan.TreeOf.segmented {routes : List Route} {plan : ModulePlan}
    (tree : ModulePlan.TreeOf routes plan) {m : ModulePath} (member : m ∈ plan.modules) :
    m.Segmented := by
  obtain ⟨r, _, covers⟩ := (tree.covered m).mp member
  intro segment listed
  exact ModulePath.segmented_ofRoutePath r.path segment (covers.subset listed)

end RouteClient
