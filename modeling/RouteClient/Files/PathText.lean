/-!
# Paths as texts

Paths are texts with slashes between their parts. They are joined as they are written, so that
messages show a path in the way it was given.
-/

namespace RouteClient

namespace PathText

/-- Whether a path begins at the root. -/
def isAbsolute (path : String) : Bool :=
  path.toList.head? = some '/'

/-- Whether a path ends with a slash. -/
def endsWithSlash (path : String) : Bool :=
  path.toList.getLast? = some '/'

/-- A path below another one. An absolute path replaces the other. -/
def join (base path : String) : String :=
  if isAbsolute path then path
  else if base = "" || endsWithSlash base then base ++ path
  else base ++ "/" ++ path

/-- The parts of a path between its slashes. -/
def parts (path : String) : List String :=
  (path.toList.splitOn '/').map String.ofList

/-- Whether a part of a path, behind the first one, takes no step. -/
def isIdle (part : String) : Bool :=
  part = "" || part = "."

/-- The parts, last one first, without those at the end that take no step. The first part of a path
is kept, since it tells where the path begins. -/
def dropIdle : List String → List String
  | [] => []
  | [part] => if part = "" then [] else [part]
  | part :: rest => if isIdle part then dropIdle rest else part :: rest

/-- The path of the directory that a path lies in, as it is written in the path. The root and the
empty path lie in none. -/
def parent? (path : String) : Option String :=
  let absolute := isAbsolute path
  match dropIdle (parts path).reverse with
  | [] => none
  | _ :: above =>
    let kept := "/".intercalate (dropIdle above).reverse
    some (if absolute && kept = "" then "/" else kept)

/-- The steps of a path. A slash at its end is a step into the directory itself. -/
def steps (path : String) : List String :=
  (parts path).filter (· ≠ "") ++ (if endsWithSlash path then ["."] else [])

end PathText

end RouteClient
