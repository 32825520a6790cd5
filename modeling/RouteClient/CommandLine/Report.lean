import RouteClient.Failure
import RouteClient.Json.Writer

/-!
# Reports

A command reports its result as a JSON value, in one of three formats: indented JSON, compact JSON,
or a pretty form for the eye. The pretty form has the layout of indented JSON, sorts the members of
objects by their keys, shows strings as they are, and can colour them.
-/

namespace RouteClient

/-- The format of a report. -/
inductive ReportFormat where
  | json
  | text
  | pretty
  deriving DecidableEq

namespace ReportFormat

/-- All formats. -/
def all : List ReportFormat := [.json, .text, .pretty]

/-- The name of a format. -/
def name : ReportFormat → String
  | .json => "json"
  | .text => "text"
  | .pretty => "pretty"

/-- The format with a given name, in whatever case its letters are. Lower case is that of ASCII: no
other character has a letter of these names as its lower case. -/
def parse (name : String) : Except Failure ReportFormat :=
  match all.find? (·.name = String.ofList (name.toList.map Char.toLower)) with
  | some format => .ok format
  | none => .error (.invalidArgument
      ("invalid output format: '" ++ name ++ "' (expected: json, text, or pretty)"))

end ReportFormat

namespace Report

/-- What the pretty form sets off by colour. -/
inductive Part where
  | null
  | bool
  | number
  | string
  | key
  deriving DecidableEq

/-- The parameters of the terminal sequence that begins a colour. -/
def Part.color : Part → String
  | .null => "2"
  | .bool => "33"
  | .number => "36"
  | .string => "32"
  | .key => "1;34"

/-- The terminal sequence that ends all colours. -/
def colorEnd : List Char := ['\x1b', '[', '0', 'm']

/-- A text that is shown in a colour: where the text itself ends all colours, the colour, which
begins with the sequence `start`, begins again. -/
def keepColor (start : List Char) : List Char → List Char
  | [] => []
  | '\x1b' :: '[' :: '0' :: 'm' :: cs => colorEnd ++ start ++ keepColor start cs
  | c :: cs => c :: keepColor start cs

/-- A text in the colour of a part, when colours are on. -/
def paint (colored : Bool) (part : Part) (text : String) : String :=
  let start := "\x1b[" ++ part.color ++ "m"
  if colored then
    start ++ String.ofList (keepColor start.toList text.toList) ++ String.ofList colorEnd
  else text

/-- The indentation of a level. -/
def indentation (depth : Nat) : String :=
  String.join (List.replicate depth "  ")

/-- Entries between brackets, one a line; the brackets stand at the level `depth`. -/
def block (left right : String) (depth : Nat) (entries : List String) : String :=
  left ++ "\n" ++
    ",\n".intercalate (entries.map (indentation (depth + 1) ++ ·)) ++
    "\n" ++ indentation depth ++ right

mutual

/-- The pretty form of a value at the level `depth`. -/
def prettyAt (colored : Bool) (depth : Nat) : Json → String
  | .null => paint colored .null "null"
  | .bool b => paint colored .bool (if b then "true" else "false")
  | .number n => paint colored .number (toString n)
  | .string s => "\x22" ++ paint colored .string s ++ "\x22"
  | .array [] => "[]"
  | .object [] => "\x7b\x7d"
  | .array (item :: items) => block "[" "]" depth (prettyItems colored (depth + 1) (item :: items))
  | .object (member :: members) =>
    block "\x7b" "\x7d" depth (prettyMembers colored (depth + 1) (member :: members))

/-- The pretty forms of items at the level `depth`. -/
def prettyItems (colored : Bool) (depth : Nat) : List Json → List String
  | [] => []
  | item :: items => prettyAt colored depth item :: prettyItems colored depth items

/-- The pretty forms of members at the level `depth`. -/
def prettyMembers (colored : Bool) (depth : Nat) : List (String × Json) → List String
  | [] => []
  | (key, value) :: members =>
    ("\x22" ++ paint colored .key key ++ "\x22: " ++ prettyAt colored depth value) ::
      prettyMembers colored depth members

end

/-- The pretty form of a value. -/
def pretty (colored : Bool) (value : Json) : String :=
  prettyAt colored 0 value.sorted

/-- A value in a format. -/
def render (format : ReportFormat) (colored : Bool) (value : Json) : String :=
  match format with
  | .json => value.indented
  | .text => value.compact
  | .pretty => pretty colored value

end Report

end RouteClient
