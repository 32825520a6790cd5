import RouteClient.Code.Identifier
import RouteClient.Text.Bytes

/-!
# Placeholders of a route path

A placeholder is a colon and an identifier at the beginning of a path segment. A path is read from
left to right into characters and placeholders; `PathToken.scan` is the reader and
`placeholders` lists the placeholders with their places in bytes.
-/

namespace RouteClient

/-- A part of a route path: a character that stands for itself, or a placeholder. -/
inductive PathToken where
  | char (c : Char)
  | slot (name : List Char)
  deriving DecidableEq

namespace PathToken

/-- What the reader of a path knows of the place it has reached. -/
inductive Place where
  /-- A segment begins here. -/
  | opening
  /-- Inside a segment, outside a placeholder. -/
  | inside
  /-- Inside a placeholder, whose name so far is kept in reverse. -/
  | naming (reversed : List Char)

/-- The place behind a character that stands for itself. -/
def Place.after (c : Char) : Place :=
  if c = '/' then .opening else .inside

/-- Reads a path from a place on. -/
def scanFrom : Place → List Char → List PathToken
  | .naming name, [] => [.slot name.reverse]
  | _, [] => []
  | .naming name, c :: cs =>
    if Code.continuesIdentifier c then scanFrom (.naming (c :: name)) cs
    else .slot name.reverse :: .char c :: scanFrom (Place.after c) cs
  | .inside, c :: cs => .char c :: scanFrom (Place.after c) cs
  | .opening, [c] => [.char c]
  | .opening, c :: d :: cs =>
    if c = ':' && Code.opensIdentifier d then scanFrom (.naming [d]) cs
    else .char c :: scanFrom (Place.after c) (d :: cs)

/-- Reads a path into characters and placeholders. -/
def scan (path : List Char) : List PathToken :=
  scanFrom .opening path

/-- The characters a token was read from. -/
def chars : PathToken → List Char
  | .char c => [c]
  | .slot name => ':' :: name

end PathToken

/-- A placeholder of a path: its name without the colon, and the bytes it takes up with it. -/
structure Placeholder where
  name : String
  start : Nat
  stop : Nat
  deriving DecidableEq

/-- The placeholders among the tokens of a path, where the first token begins at byte `start`. -/
def placeholdersFrom (start : Nat) : List PathToken → List Placeholder
  | [] => []
  | .char c :: ts => placeholdersFrom (start + c.utf8Size) ts
  | .slot name :: ts =>
    let stop := start + Text.byteCount (':' :: name)
    ⟨String.ofList name, start, stop⟩ :: placeholdersFrom stop ts

/-- The placeholders of a path in order of appearance. -/
def placeholders (path : String) : List Placeholder :=
  placeholdersFrom 0 (PathToken.scan path.toList)

end RouteClient
