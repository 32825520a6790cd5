import RouteClient.Toml.Scalar
import RouteClient.Toml.Text

/-!
# Configuration files

A configuration file is a list of statements: headers that open a table, and assignments of a value
to a key. Values are strings, arrays, tables between braces, and scalars of which only the form
matters. Between braces and brackets, lines may end wherever blanks may stand, except inside a key.
-/

namespace RouteClient

namespace Toml

/-- A value of a configuration file. A table between braces keeps its assignments in order. -/
inductive Value where
  | text (s : String)
  /-- A truth value, a number or a time. -/
  | scalar
  | array (items : List Value)
  | table (entries : List (List String × Value))

/-- A statement of a configuration file. -/
inductive Statement where
  /-- The assignments that follow belong to this table. -/
  | header (path : List String)
  /-- The assignments that follow belong to a new table at the end of this array. -/
  | element (path : List String)
  | assign (path : List String) (value : Value)

/-- Whether a character may stand in a key without quotes. -/
def isKeyChar (c : Char) : Bool :=
  c.isAlphanum || c = '_' || c = '-'

/-- Reads a key with or without quotes. -/
def key (cs : List Char) : Option (String × List Char) :=
  match cs with
  | '\x22' :: rest =>
    (basicBody (rest.length + 1) rest).map fun (s, rest) => (String.ofList s, rest)
  | '\x27' :: rest => (literalBody rest).map fun (s, rest) => (String.ofList s, rest)
  | _ =>
    match cs.takeWhile isKeyChar with
    | [] => none
    | name => some (String.ofList name, cs.dropWhile isKeyChar)

/-- Reads keys with dots between them, and the blanks behind them. -/
def path : (fuel : Nat) → List Char → Option (List String × List Char)
  | 0, _ => none
  | fuel + 1, cs => do
    let (first, cs) ← key cs
    match skipBlanks cs with
    | '.' :: cs =>
      let (rest, cs) ← path fuel (skipBlanks cs)
      return (first :: rest, cs)
    | cs => return ([first], cs)

/-- The text behind blanks, line ends and comments; none when a comment holds a control
character. -/
def skipTrivia (comment : Bool) : List Char → Option (List Char)
  | [] => some []
  | '\r' :: '\n' :: cs => skipTrivia false cs
  | c :: cs =>
    if c = '\n' then skipTrivia false cs
    else if comment then if isPrintable c then skipTrivia true cs else none
    else if c = '#' then skipTrivia true cs
    else if isBlank c then skipTrivia false cs
    else some (c :: cs)

/-- Whether of two paths neither leads through the other. -/
def areApart (p q : List String) : Bool :=
  !p.isPrefixOf q && !q.isPrefixOf p

/-- Whether no two assignments of a table are in each other's way. -/
def pathsApart : List (List String × Value) → Bool
  | [] => true
  | entry :: entries => entries.all (areApart entry.1 ·.1) && pathsApart entries

namespace Value

mutual

/-- Whether in all tables of a value no two assignments are in each other's way. -/
def isSound : Value → Bool
  | .text _ => true
  | .scalar => true
  | .array items => areSound items
  | .table entries => pathsApart entries && entriesAreSound entries

/-- Whether all values are sound. -/
def areSound : List Value → Bool
  | [] => true
  | item :: items => item.isSound && areSound items

/-- Whether all assigned values are sound. -/
def entriesAreSound : List (List String × Value) → Bool
  | [] => true
  | (_, value) :: entries => value.isSound && entriesAreSound entries

end

mutual

/-- Whether arrays and tables are nested at most so many levels deep in a value. -/
def fits : (levels : Nat) → Value → Bool
  | _, .text _ => true
  | _, .scalar => true
  | 0, .array _ => false
  | 0, .table _ => false
  | levels + 1, .array items => allFit levels items
  | levels + 1, .table entries => entriesFit levels entries

/-- Whether all values fit. -/
def allFit (levels : Nat) : List Value → Bool
  | [] => true
  | item :: items => fits levels item && allFit levels items

/-- Whether all assigned values fit. -/
def entriesFit (levels : Nat) : List (List String × Value) → Bool
  | [] => true
  | (_, value) :: entries => fits levels value && entriesFit levels entries

end

end Value

/-- How many levels deep arrays and tables may be nested. -/
def maxLevels : Nat := 80

mutual

/-- Reads a value. -/
def value : (fuel : Nat) → List Char → Option (Value × List Char)
  | 0, _ => none
  | fuel + 1, cs =>
    match cs with
    | '[' :: cs => (items fuel cs).map fun (items, rest) => (.array items, rest)
    | '\x7b' :: cs => (entries fuel cs).map fun (entries, rest) => (.table entries, rest)
    | '\x22' :: _ => (string cs).map fun (s, rest) => (.text s, rest)
    | '\x27' :: _ => (string cs).map fun (s, rest) => (.text s, rest)
    | cs => (scalar cs).map fun rest => (.scalar, rest)

/-- Reads the items of an array up to its closing bracket. -/
def items : (fuel : Nat) → List Char → Option (List Value × List Char)
  | 0, _ => none
  | fuel + 1, cs => do
    match ← skipTrivia false cs with
    | ']' :: cs => return ([], cs)
    | cs =>
      let (item, cs) ← value fuel cs
      match ← skipTrivia false cs with
      | ']' :: cs => return ([item], cs)
      | ',' :: cs =>
        let (rest, cs) ← items fuel cs
        return (item :: rest, cs)
      | _ => none

/-- Reads the assignments of a table up to its closing brace. -/
def entries : (fuel : Nat) → List Char → Option (List (List String × Value) × List Char)
  | 0, _ => none
  | fuel + 1, cs => do
    match ← skipTrivia false cs with
    | '\x7d' :: cs => return ([], cs)
    | cs =>
      let (keys, cs) ← path (cs.length + 1) cs
      match ← skipTrivia false cs with
      | '=' :: cs =>
        let (v, cs) ← value fuel (← skipTrivia false cs)
        match ← skipTrivia false cs with
        | '\x7d' :: cs => return ([(keys, v)], cs)
        | ',' :: cs =>
          let (rest, cs) ← entries fuel cs
          return ((keys, v) :: rest, cs)
        | _ => none
      | _ => none

end

/-- Reads an assignment that stands on a line of its own. -/
def assignment (cs : List Char) : Option (Statement × List Char) := do
  let (keys, cs) ← path (cs.length + 1) cs
  match cs with
  | '=' :: cs =>
    let (v, cs) ← value (2 * cs.length + 2) (skipBlanks cs)
    if v.isSound && v.fits maxLevels then return (.assign keys v, cs) else none
  | _ => none

/-- Reads the path of a header up to its closing bracket. -/
def headerPath (cs : List Char) : Option (List String × List Char) := do
  let (keys, cs) ← path (cs.length + 1) (skipBlanks cs)
  match cs with
  | ']' :: cs => return (keys, cs)
  | _ => none

/-- Reads a statement. -/
def statement (cs : List Char) : Option (Statement × List Char) :=
  match cs with
  | '[' :: '[' :: cs => do
    let (keys, cs) ← headerPath cs
    match cs with
    | ']' :: cs => return (.element keys, cs)
    | _ => none
  | '[' :: cs => (headerPath cs).map fun (keys, rest) => (.header keys, rest)
  | cs => assignment cs

/-- Reads the rest of a line behind a statement: blanks, a comment and the line end. -/
def restOfLine (cs : List Char) : Option (List Char) :=
  match skipBlanks cs with
  | [] => some []
  | '#' :: cs => skipTrivia true cs
  | cs => lineEnd? cs

/-- Reads statements up to the end of the text. -/
def statementsFrom : (fuel : Nat) → List Char → Option (List Statement)
  | 0, _ => none
  | fuel + 1, cs => do
    match ← skipTrivia false cs with
    | [] => return []
    | cs =>
      let (first, cs) ← statement cs
      let rest ← statementsFrom fuel (← restOfLine cs)
      return first :: rest

/-- The statements of a configuration file. A byte order mark in front is skipped. -/
def statements (text : String) : Option (List Statement) :=
  match text.toList with
  | '\ufeff' :: cs => statementsFrom (cs.length + 1) cs
  | cs => statementsFrom (cs.length + 1) cs

end Toml

end RouteClient
