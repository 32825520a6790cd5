import RouteClient.Failure
import RouteClient.Module.Path
import RouteClient.Route.Basic

/-!
# Planning modules

Routes are grouped by module. The plan of a list of routes has a unit for every module that has a
route and for every module above one, in ascending order of the modules; a unit lists the routes of
its module in the order of the input and the names of the modules directly below it.
-/

namespace RouteClient

/-- The routes and the submodules of one module. -/
structure ModuleUnit where
  path : ModulePath
  /-- The routes of the module in the order of the input. -/
  routes : List Route
  /-- The last segments of the modules directly below, in ascending order. -/
  children : List String
  deriving DecidableEq

namespace ModuleUnit

/-- The unit of a module without routes and submodules. -/
def bare (path : ModulePath) : ModuleUnit := ⟨path, [], []⟩

/-- Puts a text into an ascending list of texts, unless it is there already. -/
def insertName (name : String) : List String → List String
  | [] => [name]
  | first :: rest =>
    if first = name then first :: rest
    else if name < first then name :: first :: rest
    else first :: insertName name rest

/-- The unit with one more route at the end. -/
def addRoute (u : ModuleUnit) (r : Route) : ModuleUnit :=
  { u with routes := u.routes ++ [r] }

/-- The unit with a submodule. -/
def addChild (u : ModuleUnit) (name : String) : ModuleUnit :=
  { u with children := insertName name u.children }

end ModuleUnit

/-- The units of a module tree, in ascending order of their modules. -/
abbrev ModulePlan := List ModuleUnit

namespace ModulePlan

/-- Changes the unit of a module, which is added at its place when it is not there yet. -/
def update (path : ModulePath) (change : ModuleUnit → ModuleUnit) : ModulePlan → ModulePlan
  | [] => [change (.bare path)]
  | u :: plan =>
    if u.path = path then change u :: plan
    else if path < u.path then change (.bare path) :: u :: plan
    else u :: update path change plan

/-- The routes of a module. -/
def routesOf (plan : ModulePlan) (path : ModulePath) : List Route :=
  ((plan.find? (·.path = path)).map (·.routes)).getD []

/-- Enters the module `⟨above ++ below⟩` as a submodule of each module above it, from `above` on
downwards. -/
def link (above : List String) : (below : List String) → ModulePlan → ModulePlan
  | [], plan => plan
  | segment :: below, plan =>
    (link (above ++ [segment]) below plan).update ⟨above⟩ (·.addChild segment)

/-- The plan with one more route. -/
def addRoute (plan : ModulePlan) (r : Route) : ModulePlan :=
  let path := ModulePath.ofRoutePath r.path
  link [] path.segments (plan.update path (·.addRoute r))

/-- Why a route cannot be added to a plan, if it cannot: a segment of its path names no directory,
or its module has a route of the same name. -/
def refusal? (plan : ModulePlan) (r : Route) : Option Failure :=
  let path := ModulePath.ofRoutePath r.path
  match path.invalidSegment? with
  | some segment => some (.invalidRoute r.name (.unusableSegment segment r.path))
  | none =>
    if (plan.routesOf path).any (·.name = r.name) then some (.duplicateRoute path.text r.name)
    else none

/-- Adds a route to a plan, or reports why it cannot be added. -/
def add (plan : ModulePlan) (r : Route) : Except Failure ModulePlan :=
  match plan.refusal? r with
  | some failure => .error failure
  | none => .ok (plan.addRoute r)

/-- The plan of a list of routes. -/
def ofRoutes (routes : List Route) : Except Failure ModulePlan :=
  routes.foldlM add []

end ModulePlan

end RouteClient
