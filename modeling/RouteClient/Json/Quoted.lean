/-!
# Quoted strings

A string is written between double quotes with `"`, `\` and the characters below U+0020 escaped,
the common ones by a letter and the others by four hexadecimal digits. All other characters stand
for themselves.
-/

namespace RouteClient

namespace Json

/-- The hexadecimal digit, in lower case, of a number below sixteen. -/
def hexDigit (n : Nat) : Char :=
  Char.ofNat (if n < 10 then 48 + n else 87 + n)

/-- A character as it is written inside a quoted string. -/
def escapeChar (c : Char) : List Char :=
  if c = '\x22' then ['\\', '\x22']
  else if c = '\\' then ['\\', '\\']
  else if c = '\x08' then ['\\', 'b']
  else if c = '\x0c' then ['\\', 'f']
  else if c = '\n' then ['\\', 'n']
  else if c = '\r' then ['\\', 'r']
  else if c = '\t' then ['\\', 't']
  else if c.toNat < 32 then
    ['\\', 'u', '0', '0', hexDigit (c.toNat / 16), hexDigit (c.toNat % 16)]
  else [c]

/-- The characters of a quoted string with its quotes. -/
def quoteChars (text : List Char) : List Char :=
  '\x22' :: text.flatMap escapeChar ++ ['\x22']

/-- A text as a quoted string. -/
def quote (text : String) : String :=
  String.ofList (quoteChars text.toList)

end Json

end RouteClient
