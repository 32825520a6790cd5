import RouteClient.Text.Invisible

/-!
# Texts shown in messages

A text that a message quotes stands between double quotes. Quotes, backslashes, line ends, tabs and
NUL are written as escapes, and a character without a shape of its own by its number in hexadecimal
digits.
-/

namespace RouteClient

namespace Text

/-- A character as it is shown inside a quoted text. -/
def showChar (c : Char) : List Char :=
  if c = '\x22' then ['\\', '\x22']
  else if c = '\\' then ['\\', '\\']
  else if c = '\n' then ['\\', 'n']
  else if c = '\r' then ['\\', 'r']
  else if c = '\t' then ['\\', 't']
  else if c = '\x00' then ['\\', '0']
  else if isInvisible c then '\\' :: 'u' :: '\x7b' :: Nat.toDigits 16 c.toNat ++ ['\x7d']
  else [c]

/-- A text as a message quotes it. -/
def shown (text : String) : String :=
  String.ofList ('\x22' :: text.toList.flatMap showChar ++ ['\x22'])

end Text

end RouteClient
