import RouteClient.Files.Tree
import RouteClient.Route.Document
import RouteClient.Run.Trouble

/-!
# Loading routes

The inputs of a run are files and directories. A directory stands for the JSON files below it.
-/

namespace RouteClient

namespace Run

/-- The files that an input stands for. -/
def inputFiles (root : FileNode) (input : String) : Except Trouble (List (String × FileNode)) :=
  match root.lookUp input with
  | .error _ => .error (.other ("input not found: " ++ input))
  | .ok (.file content) => .ok [(input, .file content)]
  | .ok (.directory entries) => .ok (FileNode.jsonFiles input (.directory entries))

/-- The routes of a file. -/
def fileRoutes (path : String) (node : FileNode) : Except Trouble (List Route) :=
  match node.textOf with
  | .error fault => .error (.of (.io path fault.message))
  | .ok text => (parseRoutes text).mapError (Trouble.failure ["failed to parse " ++ path])

/-- The routes of an input. -/
def inputRoutes (root : FileNode) (input : String) : Except Trouble (List Route) := do
  let files ← inputFiles root input
  return (← files.mapM fun (path, node) => fileRoutes path node).flatten

/-- The routes of all inputs, in the order in which the inputs are given. -/
def loadRoutes (root : FileNode) (inputs : List String) : Except Trouble (List Route) := do
  return (← inputs.mapM (inputRoutes root)).flatten

end Run

end RouteClient
