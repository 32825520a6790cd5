import RouteClient.Files.Tree
import RouteClient.Project.File
import RouteClient.Run.Trouble

/-!
# Resolving options

The options of the command line and the project file together say what a run reads, leaves out and
writes. Options take precedence: an output directory replaces that of the file, inputs replace all
inputs of the file, and excluded entries are added to those of the file. Paths of the command line
are taken from the working directory, paths in a file from the directory of the file.
-/

namespace RouteClient

/-- The options of the generate command. -/
structure GenerateOptions where
  inputs : List String := []
  out : Option String := none
  exclude : List String := []
  config : Option String := none
  dryRun : Bool := false
  deriving DecidableEq

/-- What a run reads, leaves out and writes. -/
structure RunPlan where
  inputs : List String
  output : String
  exclude : List String
  settings : Settings
  deriving DecidableEq

namespace RunPlan

/-- The project file looked for in the working directory. -/
def defaultFile : String := "sdkgen.toml"

/-- The path at which the project file of a run is looked for. -/
def projectCandidate (options : GenerateOptions) (cwd : String) : String :=
  PathText.join cwd (options.config.getD defaultFile)

/-- The project file of a run: the one that is named, or else the one in the working directory if it
is there. -/
def projectPath? (options : GenerateOptions) (cwd : String) (root : FileNode) : Option String :=
  let path := projectCandidate options cwd
  if options.config.isSome || root.isFile path then some path else none

/-- A project file with its paths taken from a directory. -/
def relocate (base : String) (file : ProjectFile) : ProjectFile :=
  { file with
    input := file.input.map (PathText.join base)
    output := file.output.map (PathText.join base) }

/-- Reads the project file at a path. -/
def loadProject (root : FileNode) (path : String) : Except Trouble ProjectFile :=
  match root.readText path with
  | .error fault => .error (.other ("failed to read config file " ++ path ++ ": " ++ fault.message))
  | .ok text =>
    match ProjectFile.parse text with
    | .error f => .error (.failure ["invalid config file " ++ path] f)
    | .ok file => .ok (relocate ((PathText.parent? path).getD "") file)

/-- The plan of a run that has inputs. -/
def withInputs (plan : RunPlan) : Except Trouble RunPlan :=
  if plan.inputs.isEmpty then .error (.of (.configuration .noInput)) else .ok plan

/-- The plan of a run with a project file. -/
def withProject (options : GenerateOptions) (cwd : String) (file : ProjectFile) :
    Except Trouble RunPlan :=
  match (options.out.map (PathText.join cwd)).or file.output with
  | none => .error (.of (.configuration .noOutput))
  | some output =>
    withInputs
      { inputs :=
          if options.inputs.isEmpty then file.input else options.inputs.map (PathText.join cwd)
        output
        exclude := file.exclude ++ options.exclude
        settings := file.settings }

/-- The plan of a run without a project file. -/
def withoutProject (options : GenerateOptions) (cwd : String) : Except Trouble RunPlan :=
  match options.out with
  | none => .error (.of (.configuration .noOutputOption))
  | some out =>
    withInputs
      { inputs := options.inputs.map (PathText.join cwd)
        output := PathText.join cwd out
        exclude := options.exclude
        settings := {} }

/-- The plan of a run with given options in a working directory. -/
def resolve (options : GenerateOptions) (cwd : String) (root : FileNode) :
    Except Trouble RunPlan :=
  match projectPath? options cwd root with
  | some path => do withProject options cwd (← loadProject root path)
  | none => withoutProject options cwd

end RunPlan

end RouteClient
