/-!
# Strings of configuration files

Strings stand between double quotes, where a backslash begins an escape, or between single quotes,
where every character stands for itself. Three quotes enclose a text of several lines; a line feed
right behind the opening quotes does not belong to it.
-/

namespace RouteClient

namespace Toml

/-- Whether a character is blank within a line. -/
def isBlank (c : Char) : Bool := c = ' ' || c = '\t'

/-- The text behind blanks. -/
def skipBlanks (cs : List Char) : List Char := cs.dropWhile isBlank

/-- The text behind a line end, if the text begins with one. -/
def lineEnd? : List Char → Option (List Char)
  | '\n' :: cs => some cs
  | '\r' :: '\n' :: cs => some cs
  | _ => none

/-- Whether a character may stand within a line: control characters may not, except the tab. -/
def isPrintable (c : Char) : Bool :=
  c = '\t' || (0x20 ≤ c.toNat && c.toNat ≠ 0x7f)

/-- The value of hexadecimal digits. -/
def hexValue? (digits : List Char) : Option Nat :=
  digits.foldlM (fun n d =>
    if '0' ≤ d && d ≤ '9' then some (n * 16 + (d.toNat - 48))
    else if 'a' ≤ d && d ≤ 'f' then some (n * 16 + (d.toNat - 87))
    else if 'A' ≤ d && d ≤ 'F' then some (n * 16 + (d.toNat - 55))
    else none) 0

/-- The character whose number is given by the first `count` characters of a text. -/
def numbered (count : Nat) (cs : List Char) : Option (Char × List Char) := do
  if cs.length < count then none
  let n ← hexValue? (cs.take count)
  if n.isValidChar then some (Char.ofNat n, cs.drop count) else none

/-- Reads an escape from behind its backslash. -/
def escape : List Char → Option (Char × List Char)
  | [] => none
  | c :: cs =>
    if c = '\x22' || c = '\\' then some (c, cs)
    else if c = 'b' then some ('\x08', cs)
    else if c = 't' then some ('\t', cs)
    else if c = 'n' then some ('\n', cs)
    else if c = 'f' then some ('\x0c', cs)
    else if c = 'r' then some ('\r', cs)
    else if c = 'e' then some ('\x1b', cs)
    else if c = 'x' then numbered 2 cs
    else if c = 'u' then numbered 4 cs
    else if c = 'U' then numbered 8 cs
    else none

/-- What has been read, with one more character in front. -/
def push (c : Char) (read : Option (List Char × List Char)) : Option (List Char × List Char) :=
  read.map fun (cs, rest) => (c :: cs, rest)

/-- Reads a string of one line from behind its opening double quote. -/
def basicBody : (fuel : Nat) → List Char → Option (List Char × List Char)
  | 0, _ | _, [] => none
  | fuel + 1, c :: cs =>
    if c = '\x22' then some ([], cs)
    else if c = '\\' then do
      let (char, cs) ← escape cs
      push char (basicBody fuel cs)
    else if isPrintable c then push c (basicBody fuel cs)
    else none

/-- Reads a string of one line from behind its opening single quote. -/
def literalBody : List Char → Option (List Char × List Char)
  | [] => none
  | c :: cs =>
    if c = '\x27' then some ([], cs)
    else if isPrintable c then push c (literalBody cs)
    else none

/-- The number of times a quote is repeated at the beginning of a text. -/
def quoteRun (quote : Char) (cs : List Char) : Nat :=
  (cs.takeWhile (· = quote)).length

/-- Reads three quotes at the end of a text of several lines. Up to two quotes before them belong to
the text. -/
def closing? (quote : Char) (cs : List Char) : Option (List Char × List Char) :=
  let run := min (quoteRun quote cs) 5
  if run < 3 then none else some (List.replicate (run - 3) quote, cs.drop run)

/-- The text behind blanks and line ends. -/
def skipSpace : List Char → List Char
  | [] => []
  | '\r' :: '\n' :: cs => skipSpace cs
  | c :: cs => if isBlank c || c = '\n' then skipSpace cs else c :: cs

/-- Reads a text of several lines from behind its opening double quotes. A backslash at the end of a
line drops the line end and the blanks that follow. -/
def basicLines : (fuel : Nat) → List Char → Option (List Char × List Char)
  | 0, _ => none
  | fuel + 1, cs =>
    match closing? '\x22' cs with
    | some closed => some closed
    | none =>
      match cs with
      | [] => none
      | '\r' :: '\n' :: cs => push '\r' (push '\n' (basicLines fuel cs))
      | c :: cs =>
        if c = '\\' then
          if (lineEnd? (skipBlanks cs)).isSome then basicLines fuel (skipSpace cs)
          else do
            let (char, cs) ← escape cs
            push char (basicLines fuel cs)
        else if isPrintable c || c = '\n' then push c (basicLines fuel cs)
        else none

/-- Reads a text of several lines from behind its opening single quotes. -/
def literalLines : (fuel : Nat) → List Char → Option (List Char × List Char)
  | 0, _ => none
  | fuel + 1, cs =>
    match closing? '\x27' cs with
    | some closed => some closed
    | none =>
      match cs with
      | [] => none
      | '\r' :: '\n' :: cs => push '\r' (push '\n' (literalLines fuel cs))
      | c :: cs =>
        if isPrintable c || c = '\n' then push c (literalLines fuel cs) else none

/-- The text behind a line end that stands at its beginning. -/
def skipFirstLineEnd (cs : List Char) : List Char :=
  (lineEnd? cs).getD cs

/-- Reads a string of any form. -/
def string : List Char → Option (String × List Char)
  | '\x22' :: '\x22' :: '\x22' :: cs =>
    (basicLines (cs.length + 1) (skipFirstLineEnd cs)).map fun (s, rest) => (String.ofList s, rest)
  | '\x27' :: '\x27' :: '\x27' :: cs =>
    (literalLines (cs.length + 1) (skipFirstLineEnd cs)).map fun (s, rest) =>
      (String.ofList s, rest)
  | '\x22' :: cs => (basicBody (cs.length + 1) cs).map fun (s, rest) => (String.ofList s, rest)
  | '\x27' :: cs => (literalBody cs).map fun (s, rest) => (String.ofList s, rest)
  | _ => none

end Toml

end RouteClient
