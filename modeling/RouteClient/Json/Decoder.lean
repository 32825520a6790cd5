import RouteClient.Json.Reader
import RouteClient.Text.Shown

/-!
# Decoding documents

A decoder reads a value of a type from a draft. Where the draft has another shape the decoder says
what it found, what it expected and how much of the text had been read by then; where the draft
breaks off, it names the break. Of several faults the first in the order of the text is reported.

Records are decoded from objects, or from arrays that list their fields in order and may leave out
fields at the end.
-/

namespace RouteClient

namespace Json

/-- In what respect a well-formed value does not fit. -/
inductive Misfit where
  | wrongType (found expected : String)
  | missingField (key : String)
  | repeatedField (key : String)
  | unknownField (key : String) (known : List String)
  | unknownVariant (name : String) (known : List String)
  | wrongLength (length : Nat) (expected : String)
  deriving DecidableEq

/-- A word between backticks. -/
def ticked (word : String) : String := "\x60" ++ word ++ "\x60"

/-- Several words between backticks. -/
def tickedList (words : List String) : String := ", ".intercalate (words.map ticked)

/-- What does not fit, in words. -/
def Misfit.message : Misfit → String
  | .wrongType found expected => "invalid type: " ++ found ++ ", expected " ++ expected
  | .missingField key => "missing field " ++ ticked key
  | .repeatedField key => "duplicate field " ++ ticked key
  | .unknownField key known =>
    "unknown field " ++ ticked key ++ ", expected one of " ++ tickedList known
  | .unknownVariant name known =>
    "unknown variant " ++ ticked name ++ ", expected one of " ++ tickedList known
  | .wrongLength length expected =>
    "invalid length " ++ toString length ++ ", expected " ++ expected

/-- Why a document cannot be decoded. A misfit comes with the text that was still to be read. -/
inductive Fault where
  | malformed (what : Malformed)
  | misfit (what : Misfit) (rest : List Char)
  deriving DecidableEq

/-- The line and the column, in bytes, behind a text. -/
def position (consumed : List Char) : Nat × Nat :=
  (consumed.count '\n' + 1,
   Text.byteCount (consumed.reverse.takeWhile (· ≠ '\n')))

/-- A fault in words. Misfits are followed by their place in the text. -/
def Fault.message (text : String) : Fault → String
  | .malformed what => what.message
  | .misfit what rest =>
    let (line, column) := position (text.toList.take (text.toList.length - rest.length))
    what.message ++ " at line " ++ toString line ++ " column " ++ toString column

/-- A decoder of values of a type. -/
abbrev Decoder (α : Type) := Draft → Except Fault α

/-- The fault of a draft that stands where something else was expected. -/
def unexpected (expected : String) : Draft → Fault
  | .null span => .misfit (.wrongType "null" expected) span.stop
  | .bool span b =>
    .misfit (.wrongType ("boolean " ++ ticked (if b then "true" else "false")) expected) span.stop
  | .number span n =>
    match n.description? with
    | some found => .misfit (.wrongType found expected) span.stop
    | none => .malformed .numberTooLarge
  | .string _ (.error what) => .malformed what
  | .string span (.ok s) => .misfit (.wrongType ("string " ++ Text.shown s) expected) span.stop
  | .array span .. => .misfit (.wrongType "sequence" expected) span.start
  | .object span .. => .misfit (.wrongType "map" expected) span.start
  | .broken _ fault => .malformed fault.read

namespace Decoder

variable {α σ : Type}

/-- Decodes a string. -/
def string : Decoder String
  | .string _ (.ok s) => .ok s
  | draft => .error (unexpected "a string" draft)

/-- Decodes a truth value. -/
def bool : Decoder Bool
  | .bool _ b => .ok b
  | draft => .error (unexpected "a boolean" draft)

/-- Decodes a value that may be null. -/
def nullable (decode : Decoder α) : Decoder (Option α)
  | .null _ => .ok none
  | draft => (decode draft).map some

/-- Goes on where nothing is wrong. -/
def passFault (fault : Option Malformed) : Except Fault Unit :=
  match fault with
  | none => .ok ()
  | some what => .error (.malformed what)

/-- Decodes a list. -/
def list (decode : Decoder α) : Decoder (List α)
  | .array _ items fault => do
    let values ← items.mapM decode
    passFault (fault.map (·.read))
    return values
  | draft => .error (unexpected "a sequence" draft)

/-- Decodes nothing. -/
def unit : Decoder Unit
  | .null _ => .ok ()
  | draft => .error (unexpected "unit" draft)

/-- Whether a text begins with a quote. -/
def beginsQuoted : List Char → Bool
  | c :: _ => c = '\x22'
  | [] => false

/-- What is wrong behind the one member of an object that stands for a word. -/
def behindWord (more : List (Key × Draft)) (fault : Option Break) : Option Malformed :=
  match more, fault with
  | [], none => none
  | [], some fault => some (if fault.read = .endInObject then .endInObject else .noValue)
  | _ :: _, _ => some .noValue

/-- Finds the value that a word stands for. -/
def lookUp (find : String → Option α) (known : List String) (name : String) (rest : List Char) :
    Except Fault α :=
  match find name with
  | some value => .ok value
  | none => .error (.misfit (.unknownVariant name known) rest)

/-- Decodes one of several words, also from an object with the word as its only key and null as its
value. -/
def word (find : String → Option α) (known : List String) : Decoder α
  | .string span (.ok name) => lookUp find known name span.stop
  | .string _ (.error what) => .error (.malformed what)
  | .object _ [] fault => .error (.malformed ((fault.map (·.read)).getD .noValue))
  | .object _ ((key, value) :: more) fault => do
    match key.text with
    | .error what => .error (.malformed what)
    | .ok name =>
      let result ← lookUp find known name key.stop
      passFault key.colon
      unit value
      passFault (behindWord more fault)
      return result
  | .broken start fault =>
    .error (.malformed (if start.isEmpty || beginsQuoted start then fault.read else .noValue))
  | _ => .error (.malformed .noValue)

/-- A field of a record: its key, whether it may be left out, and how its value is put into the
record that is being built. -/
structure Field (σ : Type) where
  key : String
  required : Bool
  read : Draft → σ → Except Fault σ

/-- A field whose value is decoded and then stored. -/
def Field.of (key : String) (required : Bool) (decode : Decoder α) (store : α → σ → σ) : Field σ :=
  { key, required, read := fun draft record => (decode draft).map (store · record) }

/-- A kind of record: its name, its fields in order, and whether unknown keys are refused. -/
structure Schema (σ : Type) where
  name : String
  strict : Bool
  fields : List (Field σ)

namespace Schema

/-- The keys of a kind of record. -/
def keys (schema : Schema σ) : List String := schema.fields.map (·.key)

/-- The text behind a key that is refused: blanks go with it, and so does the bracket that closes
the object. -/
def behindRefused (key : Key) : List Char :=
  match key.gap with
  | '\x7d' :: rest => rest
  | rest => rest

/-- Reads the value of a member whose key is none of the record's. -/
def unknownMember (schema : Schema σ) (name : String) (key : Key) (value : Draft) :
    Except Fault Unit :=
  if schema.strict then .error (.misfit (.unknownField name schema.keys) (behindRefused key))
  else do
    passFault key.colon
    passFault value.skipFault?

/-- Reads a member of a record. `seen` are the keys read so far. -/
def member (schema : Schema σ) (seen : List String) (record : σ) (key : Key) (value : Draft) :
    Except Fault (List String × σ) :=
  match key.text with
  | .error what => .error (.malformed what)
  | .ok name =>
    match schema.fields.find? (·.key = name) with
    | none => do
      schema.unknownMember name key value
      return (seen, record)
    | some field =>
      if seen.contains name then .error (.misfit (.repeatedField name) (behindRefused key))
      else do
        passFault key.colon
        let record ← field.read value record
        return (name :: seen, record)

/-- Reads the members of a record. -/
def members (schema : Schema σ) :
    (seen : List String) → (record : σ) → List (Key × Draft) → Except Fault (List String × σ)
  | seen, record, [] => .ok (seen, record)
  | seen, record, (key, value) :: rest => do
    let (seen, record) ← schema.member seen record key value
    schema.members seen record rest

/-- The first required field that has not been read. -/
def missing? (schema : Schema σ) (seen : List String) : Option (Field σ) :=
  schema.fields.find? fun field => field.required && !seen.contains field.key

/-- What is wrong behind the last field of a record that is written as an array. -/
def behindFields (more : List Draft) (fault : Option Break) : Option Malformed :=
  match more, fault with
  | [], none => none
  | [], some fault =>
    some (if fault.read = .trailingComma || fault.read = .endInList then fault.read
      else .trailingText)
  | _ :: _, _ => some .trailingText

/-- The end of an array before field number `index`: the fields from there on must not be
required. -/
def atEnd (schema : Schema σ) (stop : List Char) (index : Nat) (fields : List (Field σ)) :
    Except Fault Unit :=
  match fields.findIdx? (·.required) with
  | none => .ok ()
  | some offset =>
    .error (.misfit (.wrongLength (index + offset)
      ("struct " ++ schema.name ++ " with " ++ toString schema.fields.length ++ " elements")) stop)

/-- Reads the fields from number `index` on from the items of an array. -/
def items (schema : Schema σ) (stop : List Char) (fault : Option Break) :
    (index : Nat) → (record : σ) → List (Field σ) → List Draft → Except Fault σ
  | _, record, [], more => do
    passFault (behindFields more fault)
    return record
  | index, record, field :: fields, [] => do
    passFault (fault.map (·.read))
    schema.atEnd stop index (field :: fields)
    return record
  | index, record, field :: fields, item :: more => do
    let record ← field.read item record
    schema.items stop fault (index + 1) record fields more

/-- Decodes a record, beginning with one that has the value of every field that is left out. -/
def decode (schema : Schema σ) (start : σ) : Decoder σ
  | .object span entries fault => do
    let (seen, record) ← schema.members [] start entries
    passFault (fault.map (·.read))
    match schema.missing? seen with
    | some field => .error (.misfit (.missingField field.key) span.stop)
    | none => .ok record
  | .array span entries fault => schema.items span.stop fault 0 start schema.fields entries
  | draft => .error (unexpected ("struct " ++ schema.name) draft)

end Schema

/-- Decodes the one value of a text. -/
def run (decode : Decoder α) (text : List Char) : Except Fault α := do
  let (draft, rest) := Draft.read text
  let value ← decode draft
  if (skipGap (rest.getD [])).isEmpty then return value
  else .error (.malformed .trailingText)

end Decoder

end Json

end RouteClient
