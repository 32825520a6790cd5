import RouteClient.Code.Identifier
import RouteClient.Failure

/-!
# Settings of the generated code

The fixed texts and helper names that go into every generated module. Settings are plain texts until
`Settings.validate` has accepted them.
-/

namespace RouteClient

/-- The texts and names that the generated code is written with. -/
structure Settings where
  /-- What the documentation says of the connection parameter. -/
  connectionDescription : String :=
    "connection Information of the remote HTTP(s) server with headers (+encryption password)"
  /-- The line that opens the trailer of the documentation. -/
  attribution : String := "@sdkgen Generated by sdkgen"
  /-- The imported helper that sends a request. -/
  fetcher : String := "Fetcher"
  /-- The imported helper that encrypts payloads. -/
  encryptor : String := "AesPkcs5"
  /-- The imported type that projects a type to its transmitted form. -/
  primitive : String := "Primitive"
  /-- The imported type of the connection handle. -/
  connectionType : String := "IConnection"
  /-- The dotted name of the root module. -/
  moduleName : String := "api.functional"
  /-- The directory of the module files below the output directory. -/
  functionalDir : String := "functional"
  deriving DecidableEq

/-- One of the settings. -/
inductive Setting where
  | connectionDescription
  | attribution
  | fetcher
  | encryptor
  | primitive
  | connectionType
  | moduleName
  | functionalDir
  deriving DecidableEq

namespace Setting

/-- All settings, in the order in which documents list them. -/
def all : List Setting :=
  [.connectionDescription, .attribution, .fetcher, .encryptor, .primitive, .connectionType,
   .moduleName, .functionalDir]

/-- The key of a setting in documents and messages. -/
def key : Setting → String
  | .connectionDescription => "connection_description"
  | .attribution => "attribution"
  | .fetcher => "fetcher"
  | .encryptor => "encryptor"
  | .primitive => "primitive"
  | .connectionType => "connection_type"
  | .moduleName => "module_prefix"
  | .functionalDir => "functional_dir"

/-- The setting with a given key. -/
def ofKey? (key : String) : Option Setting :=
  all.find? (·.key = key)

end Setting

namespace Settings

/-- The value of one setting. -/
def get (s : Settings) : Setting → String
  | .connectionDescription => s.connectionDescription
  | .attribution => s.attribution
  | .fetcher => s.fetcher
  | .encryptor => s.encryptor
  | .primitive => s.primitive
  | .connectionType => s.connectionType
  | .moduleName => s.moduleName
  | .functionalDir => s.functionalDir

/-- The settings with one of them replaced. -/
def set (s : Settings) (setting : Setting) (value : String) : Settings :=
  match setting with
  | .connectionDescription => { s with connectionDescription := value }
  | .attribution => { s with attribution := value }
  | .fetcher => { s with fetcher := value }
  | .encryptor => { s with encryptor := value }
  | .primitive => { s with primitive := value }
  | .connectionType => { s with connectionType := value }
  | .moduleName => { s with moduleName := value }
  | .functionalDir => { s with functionalDir := value }

/-- Whether a text fits on one line. -/
def isSingleLine (text : String) : Bool :=
  text.toList.all fun c => c ≠ '\n' && c ≠ '\r'

/-- Whether a text names a directory below another one: it is not empty and does not begin with a
slash. -/
def isRelativeDirectory (text : String) : Bool :=
  match text.toList with
  | [] => false
  | c :: _ => c ≠ '/'

/-- What is wrong with one setting, if anything. -/
def faultOf (s : Settings) (setting : Setting) : Option SettingsFault :=
  let value := s.get setting
  match setting with
  | .fetcher | .encryptor | .primitive | .connectionType =>
    if Code.isIdentifier value then none else some (.notIdentifier setting.key value)
  | .attribution | .connectionDescription =>
    if isSingleLine value then none else some (.severalLines setting.key)
  | .functionalDir => if isRelativeDirectory value then none else some (.notRelative value)
  | .moduleName => none

/-- The order in which settings are checked. -/
def checkOrder : List Setting :=
  [.fetcher, .encryptor, .primitive, .connectionType, .attribution, .connectionDescription,
   .functionalDir]

/-- Accepts settings in which nothing is wrong, and otherwise reports the first fault. -/
def validate (s : Settings) : Except Failure Unit :=
  match checkOrder.findSome? s.faultOf with
  | none => .ok ()
  | some fault => .error (.configuration fault)

end Settings

end RouteClient
