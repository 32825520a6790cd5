/-!
# What is wrong with a text that is no JSON text

The ways in which a JSON text can be malformed, with their wording. Values that nobody asks for are
only skipped, and skipping is laxer than reading in a few respects, so a place where a text breaks
off has two names, one for each way of passing it.
-/

namespace RouteClient

namespace Json

/-- What is wrong with a text that is no JSON text. -/
inductive Malformed where
  | endInValue
  | endInList
  | endInObject
  | endInString
  | noValue
  | misspelt
  | noColon
  | noListSeparator
  | noObjectSeparator
  | trailingComma
  | keyNotString
  | trailingText
  | number
  | numberTooLarge
  | escape
  | endOfHexEscape
  | loneSurrogate
  | controlCharacter
  deriving DecidableEq

/-- What is wrong, in words. -/
def Malformed.message : Malformed → String
  | .endInValue => "EOF while parsing a value"
  | .endInList => "EOF while parsing a list"
  | .endInObject => "EOF while parsing an object"
  | .endInString => "EOF while parsing a string"
  | .noValue => "expected value"
  | .misspelt => "expected ident"
  | .noColon => "expected \x60:\x60"
  | .noListSeparator => "expected \x60,\x60 or \x60]\x60"
  | .noObjectSeparator => "expected \x60,\x60 or \x60\x7d\x60"
  | .trailingComma => "trailing comma"
  | .keyNotString => "key must be a string"
  | .trailingText => "trailing characters"
  | .number => "invalid number"
  | .numberTooLarge => "number out of range"
  | .escape => "invalid escape"
  | .endOfHexEscape => "unexpected end of hex escape"
  | .loneSurrogate => "lone leading surrogate in hex escape"
  | .controlCharacter => "control character (\\u0000-\\u001F) found while parsing a string"

/-- A place where a text is malformed: what it is called where the value is read, and where the
value is skipped. -/
structure Break where
  read : Malformed
  skipped : Malformed
  deriving DecidableEq

/-- A break with one name. -/
def Break.same (m : Malformed) : Break := ⟨m, m⟩

end Json

end RouteClient
