import RouteClient.Client.FunctionText
import RouteClient.Code.ExportName
import RouteClient.Module.Plan
import RouteClient.Module.SourceFiles
import RouteClient.Module.Template

/-!
# Module files

Each unit of a module plan becomes one file. It imports the helpers, re-exports the submodules and
holds the code of the module's routes. `generate` makes the files of all modules of a list of
routes.
-/

namespace RouteClient

/-- The re-export of a submodule: the name it gets and its directory. -/
structure ReExport where
  name : String
  child : String
  deriving DecidableEq

/-- A re-export as it is written. -/
def ReExport.text (e : ReExport) : String :=
  "export * as " ++ e.name ++ " from " ++ Json.quote ("./" ++ e.child) ++ ";"

namespace ModulePath

/-- The way from the directory of a module's file to the root of the generated client. -/
def importBase (m : ModulePath) : String :=
  "./" ++ String.join (List.replicate (m.depth + 1) "../")

/-- The path of a module's file below the output directory. -/
def filePath (m : ModulePath) (s : Settings) : String :=
  if m.isRoot then s.functionalDir ++ "/index.ts"
  else s.functionalDir ++ "/" ++ m.directory ++ "/index.ts"

end ModulePath

namespace ModuleUnit

/-- The re-exports of a module, one for each submodule. -/
def reExports (u : ModuleUnit) : List ReExport :=
  u.children.map fun child => ⟨Code.exportName child, child⟩

/-- The first route that is called like a re-export. -/
def collision? (u : ModuleUnit) : Option Route :=
  u.routes.find? fun r => u.reExports.any (·.name = r.name)

/-- The section of the re-exports, if there are any. -/
def reExportSection (u : ModuleUnit) : List String :=
  if u.reExports.isEmpty then []
  else ["\n".intercalate (u.reExports.map ReExport.text)]

/-- The sections of a module: its re-exports, then the code of each route. -/
def sections (u : ModuleUnit) (s : Settings) : Except Failure (List String) := do
  let units ← u.routes.mapM (Route.unitText s)
  return u.reExportSection ++ units

/-- The texts for the template of a module's file. -/
def templateText (u : ModuleUnit) (s : Settings) (sections : List String) :
    TemplateVariable → String
  | .moduleName => u.path.dotted s.moduleName
  | .importBase => u.path.importBase
  | .encryptor => s.encryptor
  | .fetcher => s.fetcher
  | .primitive => s.primitive
  | .connectionType => s.connectionType
  | .sections => sectionBreak.intercalate sections

/-- The file of a module. A route that is called like a submodule is reported before any fault of a
route. -/
def file (s : Settings) (u : ModuleUnit) : Except Failure SourceFile :=
  match u.collision? with
  | some r => .error (.invalidRoute r.name (.submoduleName u.path.text))
  | none => do
    let sections ← u.sections s
    return ⟨u.path.filePath s, Template.fill moduleTemplate (u.templateText s sections)⟩

end ModuleUnit

/-- The files of all units of a plan, in the order of their paths. -/
def ModulePlan.files (s : Settings) (plan : ModulePlan) : Except Failure SourceFiles := do
  let files ← plan.mapM (ModuleUnit.file s)
  return (SourceFiles.mk files).sort

/-- The files generated for a list of routes, with settings that are valid. -/
def generate (s : Settings) (routes : List Route) : Except Failure SourceFiles := do
  (← ModulePlan.ofRoutes routes).files s

end RouteClient
