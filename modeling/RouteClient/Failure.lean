import RouteClient.Text.Shown

/-!
# Failures

Every way in which reading routes or settings, planning modules or writing a client can fail. A
failure records its cause; `Failure.message` is the one place where causes are put into words, and
`Failure.exitCode` the one place where they become an exit code.
-/

namespace RouteClient

/-- Why a route is refused on its own account. -/
inductive RouteFault where
  /-- The route's name cannot name a function. -/
  | unusableName (name : String)
  /-- A parameter's name cannot name a parameter. -/
  | unusableParameter (parameter : String)
  /-- A parameter is called like the connection handle. -/
  | connectionParameter (parameter : String)
  /-- Two parameters have one name. -/
  | repeatedParameter (parameter : String)
  /-- Two parameters fill one placeholder. -/
  | sharedPlaceholder (first second field : String)
  /-- A literal segment of the path cannot name a directory. -/
  | unusableSegment (segment path : String)
  /-- The route is called like a submodule of its module. -/
  | submoduleName (module : String)
  /-- A reason given in words. -/
  | described (reason : String)
  deriving DecidableEq

namespace RouteFault

/-- The reason in words. -/
def message : RouteFault → String
  | .unusableName name => "route name '" ++ name ++ "' is not a usable TypeScript identifier"
  | .unusableParameter parameter =>
    "parameter name '" ++ parameter ++ "' is not a usable TypeScript identifier"
  | .connectionParameter parameter =>
    "parameter name '" ++ parameter ++ "' collides with the connection handle"
  | .repeatedParameter parameter => "parameter '" ++ parameter ++ "' is declared twice"
  | .sharedPlaceholder first second field =>
    "parameters '" ++ first ++ "' and '" ++ second ++ "' both bind placeholder ':" ++ field ++ "'"
  | .unusableSegment segment path =>
    "path segment " ++ Text.shown segment ++ " of '" ++ path ++ "' cannot name a module directory"
  | .submoduleName module => "name collides with a submodule of " ++ module
  | .described reason => reason

end RouteFault

/-- Why settings are refused. -/
inductive SettingsFault where
  /-- A helper's name is no identifier. -/
  | notIdentifier (setting value : String)
  /-- A text that has to fit on a line has several. -/
  | severalLines (setting : String)
  /-- The directory of the module files is empty or absolute. -/
  | notRelative (value : String)
  /-- The project file cannot be read as settings. -/
  | unreadable
  /-- Neither the command line nor the project file names an output directory. -/
  | noOutput
  /-- There is no project file, and the command line names no output directory. -/
  | noOutputOption
  /-- No input is named. -/
  | noInput
  /-- A reason given in words. -/
  | described (reason : String)
  deriving DecidableEq

namespace SettingsFault

/-- The reason in words. -/
def message : SettingsFault → String
  | .notIdentifier setting value =>
    setting ++ " must be a TypeScript identifier, got '" ++ value ++ "'"
  | .severalLines setting => setting ++ " must fit on one line"
  | .notRelative value => "functional_dir must be a relative directory, got '" ++ value ++ "'"
  | .unreadable => "failed to parse configuration"
  | .noOutput => "output path is not specified"
  | .noOutputOption =>
    "output directory is not specified. Add the --out <output_directory> option."
  | .noInput => "input is not specified. Pass route descriptor files or directories."
  | .described reason => reason

end SettingsFault

/-- A failure of the library. -/
inductive Failure where
  /-- A route is malformed. -/
  | invalidRoute (route : String) (fault : RouteFault)
  /-- A path-segment parameter names no placeholder, or one that occurs more than once. -/
  | missingPlaceholder (route parameter field : String)
  /-- A second parameter claims the query or the payload role. -/
  | duplicateRole (route role parameter : String)
  /-- Two routes of one module have the same name. -/
  | duplicateRoute (module name : String)
  /-- Settings are incomplete or invalid. -/
  | configuration (fault : SettingsFault)
  /-- A document or a template cannot be processed; `source` is the message of what caused it. -/
  | serialization (description : String) (source : Option String)
  /-- A file or directory cannot be read or written. -/
  | io (path cause : String)
  /-- An argument has no meaning. -/
  | invalidArgument (description : String)
  deriving DecidableEq

namespace Failure

/-- The failure in words. -/
def message : Failure → String
  | .invalidRoute route fault => "Invalid route '" ++ route ++ "': " ++ fault.message
  | .missingPlaceholder route parameter field =>
    "Route '" ++ route ++ "': parameter '" ++ parameter ++ "' has no unique placeholder ':" ++
      field ++ "' in its path"
  | .duplicateRole route role parameter =>
    "Route '" ++ route ++ "': parameter '" ++ parameter ++ "' is a second " ++ role ++ " parameter"
  | .duplicateRoute module name =>
    "Module '" ++ module ++ "' defines route '" ++ name ++ "' more than once"
  | .configuration fault => "Configuration error: " ++ fault.message
  | .serialization description _ => "Serialization error: " ++ description
  | .io path cause => "I/O error on '" ++ path ++ "': " ++ cause
  | .invalidArgument description => "Invalid argument: " ++ description

/-- Whether a route breaks the contract of descriptors. -/
def isContractViolation : Failure → Bool
  | .invalidRoute .. | .missingPlaceholder .. | .duplicateRole .. | .duplicateRoute .. => true
  | _ => false

/-- Whether settings are at fault. -/
def isConfiguration : Failure → Bool
  | .configuration _ => true
  | _ => false

/-- Whether a document or a template is at fault. -/
def isSerialization : Failure → Bool
  | .serialization .. => true
  | _ => false

/-- Whether the file system is at fault. -/
def isIo : Failure → Bool
  | .io .. => true
  | _ => false

end Failure

/-- The outcome of a run as its caller sees it. -/
inductive ExitCode where
  | success
  | failed
  | invalidInput
  | invalidRoute
  deriving DecidableEq

namespace ExitCode

/-- The number a process ends with. -/
def toNat : ExitCode → Nat
  | .success => 0
  | .failed => 1
  | .invalidInput => 2
  | .invalidRoute => 3

/-- Whether the run did its work. -/
def isSuccess (code : ExitCode) : Bool :=
  code = .success

end ExitCode

/-- The exit code of a failure: routes that break their contract, input that cannot be used, and
all else. -/
def Failure.exitCode (failure : Failure) : ExitCode :=
  if failure.isContractViolation then .invalidRoute
  else match failure with
    | .configuration _ | .invalidArgument _ | .serialization .. => .invalidInput
    | _ => .failed

end RouteClient
