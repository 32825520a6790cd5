/-!
# Excluded routes

A route is excluded when its path begins with an excluded entry at a segment boundary. Slashes at
the end of an entry do not count.
-/

namespace RouteClient

namespace Exclusion

/-- The rest of a text behind another one that it begins with. -/
def restBehind? : (front text : List Char) → Option (List Char)
  | [], text => some text
  | _ :: _, [] => none
  | c :: front, d :: text => if c = d then restBehind? front text else none

/-- An entry without the slashes at its end. -/
def trimmed (entry : List Char) : List Char :=
  (entry.reverse.dropWhile (· = '/')).reverse

/-- Whether a text is empty or goes on with a slash. -/
def atBoundary : List Char → Bool
  | [] => true
  | c :: _ => c = '/'

/-- Whether an entry excludes a route path. -/
def covers (entry path : String) : Bool :=
  match restBehind? (trimmed entry.toList) path.toList with
  | some rest => atBoundary rest
  | none => false

end Exclusion

/-- Whether some entry excludes a route path. -/
def isExcluded (entries : List String) (path : String) : Bool :=
  entries.any (Exclusion.covers · path)

end RouteClient
