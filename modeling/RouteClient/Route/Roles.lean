import RouteClient.Failure
import RouteClient.Route.Basic

/-!
# Roles of parameters

A route has at most one query and at most one payload parameter; all others fill placeholders of its
path. The path builder of a route takes the path-segment parameters in the order of their
declaration and the query parameter after them.
-/

namespace RouteClient

/-- The parameters of a route by role. -/
structure Roles where
  query : Option Parameter := none
  payload : Option Parameter := none
  /-- The path-segment parameters in the order of their declaration. -/
  pathSegments : List Parameter := []
  deriving DecidableEq

namespace Roles

/-- The parameters of the path builder, in the order in which it takes them. -/
def callOrder (roles : Roles) : List Parameter :=
  roles.pathSegments ++ roles.query.toList

/-- The failure of a parameter whose role is taken. -/
def taken (route : String) (p : Parameter) : Failure :=
  .duplicateRole route p.category.name p.name

/-- The roles with one more parameter. -/
def add (route : String) (roles : Roles) (p : Parameter) : Except Failure Roles :=
  match p.category with
  | .pathSegment => .ok { roles with pathSegments := roles.pathSegments ++ [p] }
  | .query =>
    if roles.query.isSome then .error (taken route p) else .ok { roles with query := some p }
  | .payload =>
    if roles.payload.isSome then .error (taken route p) else .ok { roles with payload := some p }

end Roles

/-- The parameters of a route by role. The first parameter whose role is taken is reported. -/
def Route.roles (r : Route) : Except Failure Roles :=
  r.parameters.foldlM (Roles.add r.name) {}

end RouteClient
