import RouteClient.Code.Identifier
import RouteClient.Failure
import RouteClient.Route.Basic

/-!
# Names of a route

The name of a route becomes that of a function, the names of its parameters those of the function's
parameters, next to the connection handle that comes first.
-/

namespace RouteClient

/-- The name of the connection handle, the first parameter of every generated function. -/
def connectionName : String := "connection"

namespace Route

/-- Why a parameter's name is refused behind the parameters named `before`, if it is. -/
def parameterFault? (before : List String) (name : String) : Option RouteFault :=
  if !Code.isUsableName name then some (.unusableParameter name)
  else if name = connectionName then some (.connectionParameter name)
  else if before.contains name then some (.repeatedParameter name)
  else none

/-- The first fault among the names of parameters that stand behind those named `before`. -/
def parametersFault? (before : List String) : List Parameter → Option RouteFault
  | [] => none
  | p :: ps =>
    match parameterFault? before p.name with
    | some fault => some fault
    | none => parametersFault? (before ++ [p.name]) ps

/-- The first fault among the names of a route: its own, then those of its parameters in order. -/
def namesFault? (r : Route) : Option RouteFault :=
  if Code.isUsableName r.name then parametersFault? [] r.parameters
  else some (.unusableName r.name)

/-- Accepts a route whose names can all be used. -/
def checkNames (r : Route) : Except Failure Unit :=
  match r.namesFault? with
  | none => .ok ()
  | some fault => .error (.invalidRoute r.name fault)

end Route

end RouteClient
