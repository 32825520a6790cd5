/-!
# Identifiers of the generated code

Functions, parameters and imported helpers of a generated client are named by plain ASCII
identifiers. A name is usable for a function or a parameter when it is an identifier and not a
word that the target language keeps for itself.
-/

namespace RouteClient

namespace Code

/-- A character that may open an identifier: an ASCII letter, `_` or `$`. -/
def opensIdentifier (c : Char) : Bool :=
  c.isAlpha || c = '_' || c = '$'

/-- A character that may follow in an identifier: an ASCII letter or digit, `_` or `$`. -/
def continuesIdentifier (c : Char) : Bool :=
  c.isAlphanum || c = '_' || c = '$'

/-- The shape of an identifier, on characters. -/
def identifierShape : List Char → Bool
  | [] => false
  | c :: cs => opensIdentifier c && cs.all continuesIdentifier

/-- Whether a text is a plain ASCII identifier. -/
def isIdentifier (name : String) : Bool :=
  identifierShape name.toList

/-- The words that cannot name a function or a parameter in a strict-mode module. -/
def reservedWords : List String :=
  ["await", "break", "case", "catch", "class", "const", "continue", "debugger", "default",
   "delete", "do", "else", "enum", "export", "extends", "false", "finally", "for", "function",
   "if", "implements", "import", "in", "instanceof", "interface", "let", "new", "null",
   "package", "private", "protected", "public", "return", "static", "super", "switch", "this",
   "throw", "true", "try", "typeof", "var", "void", "while", "with", "yield"]

/-- Whether a text is a reserved word. -/
def isReserved (name : String) : Bool :=
  reservedWords.contains name

/-- A name is usable when it is an identifier and not reserved. -/
def isUsableName (name : String) : Bool :=
  isIdentifier name && !isReserved name

end Code

end RouteClient
