import RouteClient.Json.StringReader

/-!
# Reading JSON

A text is read into a draft from left to right. Each reader is given the text from a place on and
returns what it has read with the text behind it, or without one where reading cannot go on. The
nesting of a text is bounded by its length, from which comes the fuel that `Draft.read` starts with.
-/

namespace RouteClient

namespace Json

/-- Whether a character may stand between the tokens of a JSON text. -/
def isGap (c : Char) : Bool :=
  c = ' ' || c = '\t' || c = '\n' || c = '\r'

/-- The text from its first token on. -/
def skipGap (cs : List Char) : List Char :=
  cs.dropWhile isGap

/-- What a reader has read, and the text behind it unless it stopped. -/
abbrev Reading (α : Type) := α × Option (List Char)

/-- Reads the rest of a literal word. -/
def wordRest : (word cs : List Char) → Except Malformed (List Char)
  | [], cs => .ok cs
  | _ :: _, [] => .error .endInValue
  | w :: word, c :: cs => if c = w then wordRest word cs else .error .misspelt

/-- Reads a literal word from `start`, behind its first character. -/
def word (start rest : List Char) (letters : List Char) (node : Span → Draft) : Reading Draft :=
  match wordRest letters rest with
  | .ok stop => (node ⟨start, stop⟩, some stop)
  | .error fault => (.broken start (.same fault), none)

/-- Reads a number as a node. -/
def numberNode (start : List Char) : Reading Draft :=
  match numeral start with
  | .ok (n, stop) => (.number ⟨start, stop⟩ n, some stop)
  | .error fault => (.broken start fault, none)

/-- The break of a string that cannot be passed. -/
def StringBody.break (body : StringBody) (fault : Malformed) : Break :=
  match body.chars with
  | .error read => ⟨read, fault⟩
  | .ok _ => .same fault

/-- Reads a string as a node; `rest` is the text behind its opening quote. -/
def stringNode (start rest : List Char) : Reading Draft :=
  let body := stringBody rest
  match body.ending with
  | .closed stop => (.string ⟨start, stop⟩ (body.chars.map String.ofList), some stop)
  | .broken fault => (.broken start (body.break fault), none)

/-- Reads the colon behind a key. -/
def colon : List Char → Except Malformed (List Char)
  | ':' :: cs => .ok cs
  | [] => .error .endInObject
  | _ => .error .noColon

/-- The items of an array or the members of an object, the break behind them, and the text behind
the closing bracket. -/
structure Entries (α : Type) where
  list : List α
  fault : Option Break
  rest : Option (List Char)

namespace Entries

variable {α : Type}

/-- No entries, and the closing bracket. -/
def close (rest : List Char) : Entries α := ⟨[], none, some rest⟩

/-- No entries, and a break. -/
def breakOff (fault : Break) : Entries α := ⟨[], some fault, none⟩

/-- One entry in which reading stopped. -/
def stop (entry : α) : Entries α := ⟨[entry], none, none⟩

/-- One more entry in front. -/
def push (entry : α) (entries : Entries α) : Entries α :=
  { entries with list := entry :: entries.list }

/-- An array with its items. -/
def arrayNode (start : List Char) (entries : Entries Draft) : Reading Draft :=
  (.array ⟨start, entries.rest.getD []⟩ entries.list entries.fault, entries.rest)

/-- An object with its members. -/
def objectNode (start : List Char) (entries : Entries (Key × Draft)) : Reading Draft :=
  (.object ⟨start, entries.rest.getD []⟩ entries.list entries.fault, entries.rest)

end Entries

/-- Where an entry of an array begins, or how the array ends there. `first` tells that no entry
stands before. -/
def nextItem (first : Bool) (cs : List Char) : Entries Draft ⊕ List Char :=
  match skipGap cs with
  | [] => .inl (.breakOff (.same .endInList))
  | ']' :: rest => .inl (.close rest)
  | c :: rest =>
    if first then .inr (c :: rest)
    else if c = ',' then
      match skipGap rest with
      | [] => .inl (.breakOff (.same .endInValue))
      | ']' :: _ => .inl (.breakOff ⟨.trailingComma, .noValue⟩)
      | next => .inr next
    else .inl (.breakOff (.same .noListSeparator))

/-- Where a key of an object begins behind its quote, or how the object ends there. -/
def nextKey (first : Bool) (cs : List Char) : Entries (Key × Draft) ⊕ List Char :=
  match skipGap cs with
  | [] => .inl (.breakOff (.same .endInObject))
  | '\x7d' :: rest => .inl (.close rest)
  | c :: rest =>
    if first then
      if c = '\x22' then .inr rest else .inl (.breakOff (.same .keyNotString))
    else if c = ',' then
      match skipGap rest with
      | [] => .inl (.breakOff ⟨.endInValue, .endInObject⟩)
      | '\x22' :: next => .inr next
      | '\x7d' :: _ => .inl (.breakOff ⟨.trailingComma, .keyNotString⟩)
      | _ => .inl (.breakOff (.same .keyNotString))
    else .inl (.breakOff (.same .noObjectSeparator))

mutual

/-- Reads a value from a text that begins with its first character. -/
def valueNode : Nat → List Char → Reading Draft
  | 0, start => (.broken start (.same .endInValue), none)
  | _ + 1, [] => (.broken [] (.same .endInValue), none)
  | fuel + 1, c :: cs =>
    if c = 'n' then word (c :: cs) cs ['u', 'l', 'l'] .null
    else if c = 't' then word (c :: cs) cs ['r', 'u', 'e'] (.bool · true)
    else if c = 'f' then word (c :: cs) cs ['a', 'l', 's', 'e'] (.bool · false)
    else if c = '-' || c.isDigit then numberNode (c :: cs)
    else if c = '\x22' then stringNode (c :: cs) cs
    else if c = '[' then (itemNodes fuel true cs).arrayNode (c :: cs)
    else if c = '\x7b' then (memberNodes fuel true cs).objectNode (c :: cs)
    else (.broken (c :: cs) (.same .noValue), none)

/-- Reads the items of an array up to its closing bracket. -/
def itemNodes : Nat → Bool → List Char → Entries Draft
  | 0, _, _ => .breakOff (.same .endInList)
  | fuel + 1, first, cs =>
    match nextItem first cs with
    | .inl entries => entries
    | .inr start =>
      match valueNode fuel start with
      | (item, none) => .stop item
      | (item, some rest) => (itemNodes fuel false rest).push item

/-- Reads the members of an object up to its closing bracket. -/
def memberNodes : Nat → Bool → List Char → Entries (Key × Draft)
  | 0, _, _ => .breakOff (.same .endInObject)
  | fuel + 1, first, cs =>
    match nextKey first cs with
    | .inl entries => entries
    | .inr start =>
      let body := stringBody start
      match body.ending with
      | .broken fault => .breakOff (body.break fault)
      | .closed stop =>
        let text := body.chars.map String.ofList
        match colon (skipGap stop) with
        | .error fault =>
          .stop (⟨text, stop, skipGap stop, some fault⟩, .broken (skipGap stop) (.same fault))
        | .ok rest =>
          let key : Key := ⟨text, stop, skipGap stop, none⟩
          match valueNode fuel (skipGap rest) with
          | (value, none) => .stop (key, value)
          | (value, some rest) => (memberNodes fuel false rest).push (key, value)

end

namespace Draft

/-- Reads the value at the beginning of a text, behind blanks. -/
def read (text : List Char) : Reading Draft :=
  valueNode (2 * text.length + 1) (skipGap text)

end Draft

/-- The value of a text that is one JSON value with whole numbers and nothing else. -/
def parse? (text : String) : Option Json :=
  match Draft.read text.toList with
  | (draft, some rest) => if skipGap rest = [] then draft.value? else none
  | (_, none) => none

end Json

end RouteClient
