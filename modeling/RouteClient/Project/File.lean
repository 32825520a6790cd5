import RouteClient.Settings
import RouteClient.Toml.Reader

/-!
# Project files

A project file names the inputs, the excluded path entries and the output directory of a client, and
the settings of the generated code in a table of their own. Every key is given at most once, and no
other keys occur.
-/

namespace RouteClient

/-- What a project file says. -/
structure ProjectFile where
  input : List String := []
  exclude : List String := []
  output : Option String := none
  settings : Settings := {}
  deriving DecidableEq

namespace ProjectFile

open Toml (Value Statement)

/-- What has been read of a project file so far. -/
structure Draft where
  file : ProjectFile := {}
  /-- The keys that have been given a value at the top. -/
  keys : List String := []
  /-- The settings that have been given, in whatever form. -/
  settings : List Setting := []
  /-- Whether the header of the table of settings has been read. -/
  opened : Bool := false

/-- A text. -/
def text? : Value → Option String
  | .text s => some s
  | _ => none

/-- A list of texts. -/
def texts? : Value → Option (List String)
  | .array items => items.mapM text?
  | _ => none

/-- The draft with a setting that is given for the first time. -/
def giveSetting (d : Draft) (key : String) (value : Value) : Option Draft := do
  let setting ← Setting.ofKey? key
  let text ← text? value
  if d.settings.contains setting then none
  else some { d with
    file := { d.file with settings := d.file.settings.set setting text }
    settings := setting :: d.settings }

/-- The draft with the settings of a table between braces. -/
def giveTable (d : Draft) : List (List String × Value) → Option Draft
  | [] => some d
  | ([key], value) :: rest => do giveTable (← giveSetting d key value) rest
  | _ => none

/-- The draft with settings listed in their order. -/
def giveList (d : Draft) : List Setting → List Value → Option Draft
  | setting :: settings, value :: values => do
    giveList (← giveSetting d setting.key value) settings values
  | _, _ => some d

/-- The draft with a key that is given at the top for the first time. -/
def giveKey (d : Draft) (key : String) (store : ProjectFile → ProjectFile) : Option Draft :=
  if d.keys.contains key then none
  else some { d with file := store d.file, keys := key :: d.keys }

/-- The key of the table of settings. -/
def settingsKey : String := "generator"

/-- The draft with all settings given in one value. -/
def giveSettings (d : Draft) (value : Value) : Option Draft := do
  if d.opened || !d.settings.isEmpty then none
  let d ← giveKey d settingsKey id
  match value with
  | .table entries => giveTable d entries
  | .array items => giveList d Setting.all items
  | .text _ => none
  | .scalar => none

/-- The draft with an assignment that stands before all headers. -/
def assignTop (d : Draft) (path : List String) (value : Value) : Option Draft :=
  match path with
  | [key] =>
    if key = "input" then do
      let texts ← texts? value
      giveKey d key ({ · with input := texts })
    else if key = "exclude" then do
      let texts ← texts? value
      giveKey d key ({ · with exclude := texts })
    else if key = "output" then do
      let text ← text? value
      giveKey d key ({ · with output := some text })
    else if key = settingsKey then giveSettings d value
    else none
  | [table, key] =>
    if table = settingsKey && !d.keys.contains settingsKey then giveSetting d key value else none
  | _ => none

/-- The draft with one more statement. -/
def add (d : Draft) : Statement → Option Draft
  | .header path =>
    if path = [settingsKey] && !d.opened && d.settings.isEmpty && !d.keys.contains settingsKey then
      some { d with opened := true }
    else none
  | .element _ => none
  | .assign path value =>
    if d.opened then
      match path with
      | [key] => giveSetting d key value
      | _ => none
    else assignTop d path value

/-- What the text of a project file says, if it is a project file. -/
def read? (text : String) : Option ProjectFile := do
  let statements ← Toml.statements text
  return (← statements.foldlM add {}).file

/-- Reads a project file. Its settings must be valid. -/
def parse (text : String) : Except Failure ProjectFile :=
  match read? text with
  | none => .error (.configuration .unreadable)
  | some file => do
    file.settings.validate
    return file

end ProjectFile

end RouteClient
