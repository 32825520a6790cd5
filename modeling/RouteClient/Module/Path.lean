import RouteClient.Text.Control

/-!
# Module paths

A route belongs to the module named by the literal segments of its path. Modules form a tree: the
parent of a module is the module without its last segment, and the module without segments is the
root.
-/

namespace RouteClient

/-- The path of a module from the root of the module tree. -/
structure ModulePath where
  segments : List String
  deriving DecidableEq

namespace ModulePath

/-- The root of the module tree. -/
def root : ModulePath := ⟨[]⟩

/-- Whether a segment of a route path belongs to the module path: it is neither empty nor opened by
a colon. -/
def isLiteralSegment (segment : List Char) : Bool :=
  match segment with
  | [] => false
  | c :: _ => c ≠ ':'

/-- The module of a route path. -/
def ofRoutePath (path : String) : ModulePath :=
  ⟨((path.toList.splitOn '/').filter isLiteralSegment).map String.ofList⟩

/-- The number of segments. -/
def depth (m : ModulePath) : Nat := m.segments.length

/-- Whether a module is the root. -/
def isRoot (m : ModulePath) : Bool := m.segments.isEmpty

/-- The last segment; the root has none. -/
def last? (m : ModulePath) : Option String := m.segments.getLast?

/-- The module that contains a module; the root has none. -/
def parent? (m : ModulePath) : Option ModulePath :=
  if m.isRoot then none else some ⟨m.segments.dropLast⟩

/-- The modules above a module, from its parent up to the root. -/
def ancestors (m : ModulePath) : List ModulePath :=
  ((List.range m.depth).map fun n => ⟨m.segments.take n⟩).reverse

/-- The submodule with one more segment. -/
def child (m : ModulePath) (segment : String) : ModulePath := ⟨m.segments ++ [segment]⟩

/-- The dotted name of a module below a base name. Empty parts are left out. -/
def dotted (m : ModulePath) (base : String) : String :=
  ".".intercalate ((base :: m.segments).filter (· ≠ ""))

/-- The relative directory of a module, empty for the root. -/
def directory (m : ModulePath) : String := "/".intercalate m.segments

/-- A module as messages name it. -/
def text (m : ModulePath) : String := "/" ++ m.directory

/-- A character that no directory name may hold: a quote, a backslash or a control character. -/
def isForbidden (c : Char) : Bool :=
  c = '\x22' || c = '\x27' || c = '\x60' || c = '\\' || Text.isControl c

/-- Whether a segment can name a directory. -/
def isDirectorySegment (segment : String) : Bool :=
  segment ≠ "." && segment ≠ ".." && segment.toList.all (!isForbidden ·)

/-- The first segment that cannot name a directory. -/
def invalidSegment? (m : ModulePath) : Option String :=
  m.segments.find? (!isDirectorySegment ·)

/-- Modules are ordered by their segments: at the first difference the smaller segment decides, and
a module comes before the modules below it. -/
instance : LT ModulePath := ⟨fun a b => a.segments < b.segments⟩

/-- Paths are ordered as their lists of segments. -/
instance : LE ModulePath := ⟨fun a b => ¬b < a⟩

/-- The order of paths can be decided. -/
instance (a b : ModulePath) : Decidable (a < b) :=
  inferInstanceAs (Decidable (a.segments < b.segments))

instance (a b : ModulePath) : Decidable (a ≤ b) :=
  inferInstanceAs (Decidable ¬b < a)

/-- A list of modules in ascending order. -/
def sort (modules : List ModulePath) : List ModulePath :=
  modules.mergeSort fun a b => decide (a ≤ b)

end ModulePath

end RouteClient
