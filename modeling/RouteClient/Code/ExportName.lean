import RouteClient.Code.Identifier

/-!
# Names of re-exported modules

A directory of the module tree is re-exported under an identifier made from its name. The name is
first put into camel case; what is then still no usable name has its foreign characters replaced
by `_`, and gets a leading `_` when that alone does not help.
-/

namespace RouteClient

namespace Code

/-- The characters that separate the words of a name. -/
def isWordBreak (c : Char) : Bool :=
  c = '_' || c = '-' || c = '.' || c = ' '

/-- Camel case of the rest of a name. `started` says that a character has been kept already and
`raised` that a word break came after it, so that the next letter opens a new word. -/
def camelFrom (started raised : Bool) : List Char → List Char
  | [] => []
  | c :: cs =>
    if isWordBreak c then camelFrom started started cs
    else (if raised then c.toUpper else c) :: camelFrom true false cs

/-- A name in camel case: word breaks go, and each word but the first begins with a capital. Only
ASCII letters have capitals here. -/
def camelCase (name : String) : String :=
  String.ofList (camelFrom false false name.toList)

/-- A character as it may stand inside an identifier, `_` for any other. -/
def identifierChar (c : Char) : Char :=
  if c.isAlphanum || c = '$' then c else '_'

/-- The identifier under which the directory `segment` is re-exported. -/
def exportName (segment : String) : String :=
  let camel := camelCase segment
  if isUsableName camel then
    camel
  else
    let plain := String.ofList (camel.toList.map identifierChar)
    if isUsableName plain then plain else "_" ++ plain

end Code

end RouteClient
