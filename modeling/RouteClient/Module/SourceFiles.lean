import RouteClient.Text.Bytes

/-!
# Generated files

The files of a generated client, with their paths below the output directory.
-/

namespace RouteClient

/-- A generated file. -/
structure SourceFile where
  /-- The path below the output directory, with slashes between its parts. -/
  path : String
  content : String
  deriving DecidableEq

/-- A collection of generated files. -/
structure SourceFiles where
  files : List SourceFile := []
  deriving DecidableEq

namespace SourceFiles

/-- The collection with one more file at the end. -/
def add (c : SourceFiles) (file : SourceFile) : SourceFiles :=
  ⟨c.files ++ [file]⟩

/-- The number of files. -/
def count (c : SourceFiles) : Nat := c.files.length

/-- The first file with a given path. -/
def find? (c : SourceFiles) (path : String) : Option SourceFile :=
  c.files.find? (·.path = path)

/-- The size of all contents in bytes. -/
def totalBytes (c : SourceFiles) : Nat :=
  c.files.foldr (fun file bytes => Text.byteCount file.content.toList + bytes) 0

/-- The files in the order of their paths. Files with equal paths keep their order. -/
def sort (c : SourceFiles) : SourceFiles :=
  ⟨c.files.mergeSort fun a b => decide (a.path ≤ b.path)⟩

end SourceFiles

end RouteClient
