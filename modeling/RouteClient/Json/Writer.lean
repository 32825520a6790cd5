import RouteClient.Json.Basic
import RouteClient.Json.Quoted

/-!
# Writing JSON

A value is written compactly on one line, or indented with one member or item a line and two spaces
for each level. An empty array or object stays on its line in both forms.
-/

namespace RouteClient

namespace Json

mutual

/-- A value on one line, without blanks. -/
def compact : Json → String
  | .null => "null"
  | .bool b => if b then "true" else "false"
  | .number n => toString n
  | .string s => quote s
  | .array items => "[" ++ ",".intercalate (compactItems items) ++ "]"
  | .object members => "\x7b" ++ ",".intercalate (compactMembers members) ++ "\x7d"

/-- The items of an array, each on one line. -/
def compactItems : List Json → List String
  | [] => []
  | item :: items => item.compact :: compactItems items

/-- The members of an object, each on one line. -/
def compactMembers : List (String × Json) → List String
  | [] => []
  | (key, value) :: members => (quote key ++ ":" ++ value.compact) :: compactMembers members

end

/-- Lines with a text put before the first of them. -/
def openedWith (start : String) (lines : List String) : List String :=
  lines.modifyHead (start ++ ·)

/-- Lines with a comma behind the last of them. -/
def closedWithComma (lines : List String) : List String :=
  lines.dropLast ++ (lines.getLast?.map (· ++ ",")).toList

/-- The lines of several entries, with commas between the entries. -/
def separated : List (List String) → List String
  | [] => []
  | [entry] => entry
  | entry :: entries => closedWithComma entry ++ separated entries

/-- Entries between brackets: on one line when there are none, otherwise on lines between the
brackets, two spaces further in. -/
def bracketed (left right : String) (entries : List (List String)) : List String :=
  if entries.isEmpty then [left ++ right]
  else left :: (separated entries).map ("  " ++ ·) ++ [right]

mutual

/-- The lines of an indented value. -/
def lines : Json → List String
  | .null => ["null"]
  | .bool b => [if b then "true" else "false"]
  | .number n => [toString n]
  | .string s => [quote s]
  | .array items => bracketed "[" "]" (itemLines items)
  | .object members => bracketed "\x7b" "\x7d" (memberLines members)

/-- The lines of each item of an array. -/
def itemLines : List Json → List (List String)
  | [] => []
  | item :: items => item.lines :: itemLines items

/-- The lines of each member of an object. -/
def memberLines : List (String × Json) → List (List String)
  | [] => []
  | (key, value) :: members =>
    openedWith (quote key ++ ": ") value.lines :: memberLines members

end

/-- A value in its indented form. -/
def indented (value : Json) : String :=
  "\n".intercalate value.lines

end Json

end RouteClient
