import RouteClient.Module.File
import RouteClient.Project.Exclusion
import RouteClient.Run.Load
import RouteClient.Run.Resolve

/-!
# Generation runs

A run resolves its options, loads the routes, leaves out the excluded ones and generates the files
of the client. Only when all files are generated are they written, in the order of their paths; a
dry run writes nothing.
-/

namespace RouteClient

/-- What a run reports. -/
structure RunSummary where
  outputDir : String
  /-- The number of routes that were generated. -/
  routes : Nat
  /-- The number of routes that were left out. -/
  excluded : Nat
  /-- The paths of the generated files below the output directory. -/
  files : List String
  bytes : Nat
  dryRun : Bool
  deriving DecidableEq

/-- The summary as it is reported. -/
def RunSummary.toJson (s : RunSummary) : Json :=
  .object [("output_dir", .string s.outputDir), ("routes", .number s.routes),
    ("excluded", .number s.excluded), ("files", .array (s.files.map .string)),
    ("bytes", .number s.bytes), ("dry_run", .bool s.dryRun)]

namespace Run

/-- What a run has prepared before anything is written. -/
structure Prepared where
  plan : RunPlan
  /-- The number of routes that were loaded. -/
  loaded : Nat
  /-- The routes that are not left out. -/
  routes : List Route
  code : SourceFiles

/-- The files that were rendered behind those that are there, in their order, or the first
failure. -/
def collect : SourceFiles → List (Except Failure SourceFile) → Except Failure SourceFiles
  | code, [] => .ok code
  | code, file :: files => do collect (code.add (← file)) files

/-- Renders the files of all modules, each of them by itself. -/
def renderModules (s : Settings) (routes : List Route) : Except Failure SourceFiles := do
  s.validate
  let plan ← ModulePlan.ofRoutes routes
  let code ← collect {} (plan.map (ModuleUnit.file s))
  return code.sort

/-- The routes that are not left out. -/
def remaining (exclude : List String) (routes : List Route) : List Route :=
  routes.filter fun r => !isExcluded exclude r.path

/-- Generates the files of a run from the routes that were loaded. -/
def prepareFrom (plan : RunPlan) (loaded : List Route) : Except Trouble Prepared := do
  let routes := remaining plan.exclude loaded
  let code ← liftFailure (renderModules plan.settings routes)
  return { plan, loaded := loaded.length, routes, code }

/-- Does all of a run that comes before writing. -/
def prepare (options : GenerateOptions) (cwd : String) (root : FileNode) :
    Except Trouble Prepared := do
  let plan ← RunPlan.resolve options cwd root
  prepareFrom plan (← loadRoutes root plan.inputs)

/-- The summary of a run that has been prepared. -/
def Prepared.summary (p : Prepared) (dryRun : Bool) : RunSummary :=
  { outputDir := p.plan.output
    routes := p.routes.length
    excluded := p.loaded - p.routes.length
    files := p.code.files.map (·.path)
    bytes := p.code.totalBytes
    dryRun }

/-- The last part of a path. -/
def lastPart (path : String) : String :=
  ((PathText.parts path).getLast?).getD ""

/-- Writes a generated file below the output directory, with the directories that it needs. -/
def writeFile (output : String) (root : FileNode) (file : SourceFile) :
    FileNode × Except Failure Unit :=
  let path := PathText.join output file.path
  let above := (PathText.parent? path).getD ""
  match root.createDirectories above with
  | (root, .error fault) => (root, .error (.io above fault.message))
  | (root, .ok place) =>
    match root.writeText place (lastPart path) file.content with
    | (root, .error fault) => (root, .error (.io path fault.message))
    | (root, .ok ()) => (root, .ok ())

/-- Writes generated files one after the other, up to the first that cannot be written. -/
def writeFiles (output : String) : FileNode → List SourceFile → FileNode × Except Failure Unit
  | root, [] => (root, .ok ())
  | root, file :: files =>
    match writeFile output root file with
    | (root, .ok ()) => writeFiles output root files
    | (root, .error f) => (root, .error f)

/-- Performs a generation run on a file tree. Gives the tree that it leaves, and its summary or why
it failed. -/
def perform (options : GenerateOptions) (cwd : String) (root : FileNode) :
    FileNode × Except Trouble RunSummary :=
  match prepare options cwd root with
  | .error trouble => (root, .error trouble)
  | .ok prepared =>
    let summary := prepared.summary options.dryRun
    if options.dryRun then (root, .ok summary)
    else
      match writeFiles prepared.plan.output root prepared.code.files with
      | (root, .ok ()) => (root, .ok summary)
      | (root, .error f) => (root, .error (.of f))

end Run

end RouteClient
