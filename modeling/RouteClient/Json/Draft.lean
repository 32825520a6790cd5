import RouteClient.Json.Basic
import RouteClient.Json.Numeral

/-!
# Documents as far as they can be read

`Draft` is the tree of a JSON text up to the first place where the text is malformed. Its nodes keep
the text they begin with and the text behind them, so that whoever reads meaning into the tree can
say where something does not fit, and faults of both kinds are reported in the order of the text.
-/

namespace RouteClient

namespace Json

/-- The text from a node on, and the text behind it. -/
structure Span where
  start : List Char
  stop : List Char
  deriving DecidableEq

/-- The key of a member: its text or what is wrong with it, the text behind it, the text behind the
blanks that follow, and what is wrong with the colon, if anything. -/
structure Key where
  text : Except Malformed String
  stop : List Char
  gap : List Char
  colon : Option Malformed

/-- A JSON text as far as it can be read. Where it is malformed inside an array or object, the items
or members before that place are followed by the break. -/
inductive Draft where
  | null (span : Span)
  | bool (span : Span) (b : Bool)
  | number (span : Span) (n : Numeral)
  | string (span : Span) (text : Except Malformed String)
  | array (span : Span) (items : List Draft) (fault : Option Break)
  | object (span : Span) (members : List (Key × Draft)) (fault : Option Break)
  | broken (start : List Char) (fault : Break)

/-- A key with nothing wrong. -/
def Key.text? (key : Key) : Option String :=
  match key.text, key.colon with
  | .ok text, none => some text
  | _, _ => none

namespace Draft

mutual

/-- The value of a document in which nothing is malformed and all numbers are whole. -/
def value? : Draft → Option Json
  | .null _ => some .null
  | .bool _ b => some (.bool b)
  | .number _ (.whole n) => some (.number n)
  | .number _ _ => none
  | .string _ (.ok s) => some (.string s)
  | .string _ (.error _) => none
  | .array _ items none => (values? items).map .array
  | .array _ _ (some _) => none
  | .object _ members none => (memberValues? members).map .object
  | .object _ _ (some _) => none
  | .broken _ _ => none

/-- The values of items. -/
def values? : List Draft → Option (List Json)
  | [] => some []
  | item :: items => do return (← item.value?) :: (← values? items)

/-- The keys and values of members. -/
def memberValues? : List (Key × Draft) → Option (List (String × Json))
  | [] => some []
  | (key, value) :: members => do
    return (← key.text?, ← value.value?) :: (← memberValues? members)

end

mutual

/-- The first fault met when a value is skipped. -/
def skipFault? : Draft → Option Malformed
  | .array _ items fault => (itemsSkipFault? items).or (fault.map (·.skipped))
  | .object _ members fault => (membersSkipFault? members).or (fault.map (·.skipped))
  | .broken _ fault => some fault.skipped
  | _ => none

/-- The first fault met when items are skipped. -/
def itemsSkipFault? : List Draft → Option Malformed
  | [] => none
  | item :: items => item.skipFault?.or (itemsSkipFault? items)

/-- The first fault met when members are skipped. -/
def membersSkipFault? : List (Key × Draft) → Option Malformed
  | [] => none
  | (key, value) :: members =>
    (key.colon.or value.skipFault?).or (membersSkipFault? members)

end

end Draft

end Json

end RouteClient
