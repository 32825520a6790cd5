import RouteClient.CommandLine.Program

/-!
# The command line

The program works on a file tree. Here the tree is read from the file system, as far as a run asks
for it, and what the program has put into the tree is written back.
-/

namespace RouteClient

namespace Main

/-- Reads the content of a file. A file that cannot be read counts as one that holds no text. -/
def readContent (path : String) : IO Content := do
  match ← (IO.FS.readBinFile path).toBaseIO with
  | .error _ => return .bytes []
  | .ok data =>
    match String.fromUTF8? data with
    | some text => return .text text
    | none => return .bytes data.toList

/-- Reads the file or the directory at a path, if something is there. -/
partial def readNode? (path : String) : IO (Option FileNode) := do
  let place := (← IO.currentDir) / path
  if ← place.isDir then
    let entries ← (← place.readDir).toList.filterMapM fun entry => do
      return (← readNode? (PathText.join path entry.fileName)).map fun node =>
        (entry.fileName, node)
    return some (.directory entries)
  else if ← place.pathExists then
    return some (.file (← readContent path))
  else
    return none

/-- Adds what is at a path to a file tree. -/
def addPath (root : FileNode) (path : String) : IO FileNode := do
  match ← readNode? path, root.createDirectories path with
  | some node, (root, .ok place) => return FileNode.set node place root
  | _, _ => return root

/-- Reads what the arguments ask for: the project file, then the inputs. -/
def readTree (environment : Option String) (args : List String) (cwd : String) : IO FileNode := do
  match Arguments.parse environment args with
  | .ok { command := .generate options, .. } =>
    let root ← addPath (.directory []) (RunPlan.projectCandidate options cwd)
    match RunPlan.resolve options cwd root with
    | .ok plan => plan.inputs.foldlM addPath root
    | .error _ => return root
  | _ => return .directory []

/-- Writes a file, with the directories above it. -/
def writeBack : String × Content → IO Unit
  | (path, .text text) => do
    IO.FS.createDirAll ((PathText.parent? path).getD "/")
    IO.FS.writeFile path text
  | (_, .bytes _) => return ()

/-- Writes what a run has put into the file tree, then prints what the run has printed. Gives the
exit code of the program. -/
def finish (before : FileNode) (outcome : Program.Outcome) : IO ExitCode := do
  match ← ((FileNode.changes "/" before outcome.root).forM writeBack).toBaseIO with
  | .error _ => return .failed
  | .ok () =>
    IO.print outcome.printed
    return outcome.exit

end Main

end RouteClient

/-- Runs the program. -/
def main (args : List String) : IO UInt32 := do
  let environment ← IO.getEnv "SDKGEN_CONFIG"
  let cwd := (← IO.currentDir).toString
  let colored := (← (← IO.getStdout).isTty) && (← IO.getEnv "NO_COLOR").isNone
  let root ← RouteClient.Main.readTree environment args cwd
  let outcome := RouteClient.Program.run environment colored args cwd root
  return (← RouteClient.Main.finish root outcome).toNat.toUInt32
