import RouteClient.Run.Resolve

/-!
# Command-line arguments

The program has two commands, `generate` and `completions`. Options come in a long and a short
spelling; a value stands in the same argument or in the next one, and short options may share an
argument. Two options are known before and after the command; given in both places, the later one
counts. An option or flag may be given once in each place, except `--exclude`. Two dashes end the
options.

An option keeps waiting for its value until the value is there; it is checked and stored when the
next option or positional argument begins, or at the end.
-/

namespace RouteClient

namespace Arguments

/-- What is wrong with the arguments, or what is asked for in place of a command. -/
inductive Refusal where
  /-- There are no arguments. -/
  | noArguments
  /-- There is no command. -/
  | noCommand
  | unknownCommand
  | unknownArgument
  | invalidValue
  /-- Something that may be given once is given again. -/
  | repeated
  /-- A flag is given a value. -/
  | unexpectedValue
  | missingArgument
  | help
  | version
  deriving DecidableEq

/-- The shells that completion scripts are asked for. -/
inductive Shell where
  | bash
  | elvish
  | fish
  | powershell
  | zsh
  deriving DecidableEq

namespace Shell

/-- All shells. -/
def all : List Shell := [.bash, .elvish, .fish, .powershell, .zsh]

/-- The name of a shell. -/
def name : Shell → String
  | .bash => "bash"
  | .elvish => "elvish"
  | .fish => "fish"
  | .powershell => "powershell"
  | .zsh => "zsh"

/-- The shell with a given name. -/
def ofName? (name : String) : Option Shell :=
  all.find? (·.name = name)

end Shell

/-- The places that take arguments of their own: before the command, and behind each command. -/
inductive Level where
  | program
  | generate
  | completions
  deriving DecidableEq

/-- What can be given on the command line. -/
inductive Item where
  | verbose
  | format
  | out
  | exclude
  | config
  | dryRun
  | help
  | version
  | inputs
  | shell
  deriving DecidableEq

namespace Item

/-- The long spelling of an option. -/
def long? : Item → Option String
  | .verbose => some "verbose"
  | .format => some "format"
  | .out => some "out"
  | .exclude => some "exclude"
  | .config => some "config"
  | .dryRun => some "dry-run"
  | .help => some "help"
  | .version => some "version"
  | .inputs | .shell => none

/-- The short spelling of an option. -/
def short? : Item → Option Char
  | .verbose => some 'v'
  | .out => some 'o'
  | .exclude => some 'e'
  | .config => some 'c'
  | .help => some 'h'
  | .version => some 'V'
  | .format | .dryRun | .inputs | .shell => none

/-- Whether an option has a value. -/
def takesValue : Item → Bool
  | .format | .out | .exclude | .config => true
  | _ => false

end Item

namespace Level

/-- The options known at a level. -/
def options : Level → List Item
  | .program => [.verbose, .format, .help, .version]
  | .generate => [.out, .exclude, .config, .dryRun, .verbose, .format, .help]
  | .completions => [.verbose, .format, .help]

/-- The option with a given long spelling. -/
def long? (level : Level) (name : String) : Option Item :=
  level.options.find? (·.long? = some name)

/-- The option with a given short spelling. -/
def short? (level : Level) (c : Char) : Option Item :=
  level.options.find? (·.short? = some c)

end Level

/-- The values given at one level. -/
structure Values where
  verbose : Bool := false
  format : Option String := none
  options : GenerateOptions := {}
  shell : Option Shell := none
  deriving DecidableEq

/-- What has been read at one level: the values stored, and the item that is being read with its
values so far. -/
structure Progress where
  values : Values := {}
  pending : Option (Item × List String) := none
  deriving DecidableEq

namespace Values

/-- Goes on with what has not been given before. -/
def once (values : Values) (given : Bool) : Except Refusal Values :=
  if given then .error .repeated else .ok values

/-- The one value of an option. -/
def single : List String → Except Refusal String
  | [value] => .ok value
  | _ => .error .invalidValue

/-- The one value of an option that is a path, which is not empty. -/
def path (value : String) : Except Refusal String :=
  if value = "" then .error .invalidValue else .ok value

/-- Stores an item with its values. -/
def store (v : Values) (item : Item) (given : List String) : Except Refusal Values := do
  match item with
  | .verbose =>
    let v ← v.once v.verbose
    return { v with verbose := true }
  | .dryRun =>
    let v ← v.once v.options.dryRun
    return { v with options := { v.options with dryRun := true } }
  | .help => .error .help
  | .version => .error .version
  | .format =>
    let value ← single given
    let v ← v.once v.format.isSome
    return { v with format := some value }
  | .out =>
    let value ← single given
    let v ← v.once v.options.out.isSome
    return { v with options := { v.options with out := some (← path value) } }
  | .config =>
    let value ← single given
    let v ← v.once v.options.config.isSome
    return { v with options := { v.options with config := some (← path value) } }
  | .exclude =>
    let value ← single given
    return { v with options := { v.options with exclude := v.options.exclude ++ [value] } }
  | .inputs =>
    let paths ← given.mapM path
    return { v with options := { v.options with inputs := v.options.inputs ++ paths } }
  | .shell =>
    match Shell.ofName? (← single given) with
    | some shell => return { v with shell := some shell }
    | none => .error .invalidValue

end Values

namespace Progress

/-- Stores the item that is being read. -/
def finish (p : Progress) : Except Refusal Values :=
  match p.pending with
  | none => .ok p.values
  | some (item, given) => p.values.store item given

/-- Whether an option waits for its value. -/
def awaits (p : Progress) : Bool :=
  match p.pending with
  | some (item, []) => item.takesValue
  | _ => false

/-- Begins to read an item. -/
def start (p : Progress) (item : Item) (given : List String) : Except Refusal Progress := do
  return { values := ← p.finish, pending := some (item, given) }

/-- Stores an item that is complete. -/
def put (p : Progress) (item : Item) (given : List String) : Except Refusal Progress := do
  return { values := ← (← p.finish).store item given }

/-- Adds a value to the item that is being read. -/
def extend (p : Progress) (value : String) : Progress :=
  { p with pending := p.pending.map fun (item, given) => (item, given ++ [value]) }

end Progress

/-- An argument by its shape. -/
inductive Token where
  /-- Two dashes. -/
  | endOfOptions
  /-- A long option with the value behind an equals sign. -/
  | long (name : String) (value : Option String)
  /-- Short options. -/
  | short (letters : List Char)
  /-- Anything else. -/
  | plain (text : String)
  deriving DecidableEq

/-- The shape of an argument. -/
def Token.of (arg : String) : Token :=
  match arg.toList with
  | ['-', '-'] => .endOfOptions
  | '-' :: '-' :: rest =>
    .long (String.ofList (rest.takeWhile (· ≠ '=')))
      (match rest.dropWhile (· ≠ '=') with
        | [] => none
        | _ :: value => some (String.ofList value))
  | '-' :: c :: rest => .short (c :: rest)
  | _ => .plain arg

namespace Level

/-- Reads a long option. -/
def readLong (level : Level) (p : Progress) (name : String) (value : Option String) :
    Except Refusal Progress :=
  match level.long? name with
  | none => .error .unknownArgument
  | some item =>
    match item.takesValue, value with
    | true, some value => p.put item [value]
    | true, none => p.start item []
    | false, some _ => .error .unexpectedValue
    | false, none => p.put item []

/-- Reads short options that share an argument. The rest of the argument behind an option with a
value is its value; an equals sign in front of it does not count. -/
def readShort (level : Level) : Progress → List Char → Except Refusal Progress
  | p, [] => .ok p
  | p, c :: cs =>
    match level.short? c with
    | none => .error .unknownArgument
    | some item =>
      if item.takesValue then
        match cs with
        | [] => p.start item []
        | '=' :: value => p.put item [String.ofList value]
        | value => p.put item [String.ofList value]
      else do
        readShort level (← p.put item []) cs

/-- Reads a positional argument: another input, or the one shell. -/
def readPositional (level : Level) (p : Progress) (arg : String) : Except Refusal Progress :=
  match level with
  | .program => .error .unknownCommand
  | .generate =>
    match p.pending with
    | some (.inputs, _) => .ok (p.extend arg)
    | _ => p.start .inputs [arg]
  | .completions =>
    match p.pending, p.values.shell with
    | some (.shell, _), _ => .error .unknownArgument
    | _, some _ => .error .unknownArgument
    | _, none => p.start .shell [arg]

/-- Reads an argument in front of which options have not ended. -/
def readOption (level : Level) (p : Progress) (arg : String) : Token → Except Refusal Progress
  | .long name value => level.readLong p name value
  | .short letters => level.readShort p letters
  | _ => if p.awaits then .ok (p.extend arg) else level.readPositional p arg

/-- Reads the arguments behind a command. -/
def read (level : Level) : (ended : Bool) → Progress → List String → Except Refusal Progress
  | _, p, [] => .ok p
  | true, p, arg :: rest => do level.read true (← level.readPositional p arg) rest
  | false, p, arg :: rest =>
    match Token.of arg with
    | .endOfOptions => level.read true p rest
    | token => do level.read false (← level.readOption p arg token) rest

/-- The values of the arguments behind a command. -/
def values (level : Level) (args : List String) : Except Refusal Values := do
  (← level.read false {} args).finish

end Level

/-- What the program is asked to do. -/
inductive Command where
  | generate (options : GenerateOptions)
  | completions (shell : Shell)
  deriving DecidableEq

/-- A command with the options that go for all commands. -/
structure Invocation where
  command : Command
  verbose : Bool
  format : String
  deriving DecidableEq

/-- The words that name a command or ask for help. -/
inductive CommandWord where
  | generate
  | completions
  | help
  deriving DecidableEq

/-- The command word with a given spelling. -/
def CommandWord.of? (arg : String) : Option CommandWord :=
  if arg = "generate" then some .generate
  else if arg = "completions" then some .completions
  else if arg = "help" then some .help
  else none

/-- Joins a command with the values given before and behind it. -/
def invocation (before behind : Values) (command : Command) : Invocation :=
  { command
    verbose := before.verbose || behind.verbose
    format := (behind.format.or before.format).getD "pretty" }

/-- The options of the generate command, with the project file that the environment names when the
arguments name none. -/
def generateValues (environment : Option String) (args : List String) : Except Refusal Values := do
  let v ← Level.generate.values args
  match v.options.config, environment with
  | none, some path => v.store .config [path]
  | _, _ => return v

/-- The shell that the completions command names. -/
def requiredShell (v : Values) : Except Refusal Shell :=
  match v.shell with
  | some shell => .ok shell
  | none => .error .missingArgument

/-- The refusal of a call for help: help, unless it is asked about something that is no command. -/
def helpRefusal : List String → Refusal
  | [] => .help
  | [topic] => if (CommandWord.of? topic).isSome then .help else .unknownCommand
  | _ => .unknownCommand

/-- Reads what follows a command word. -/
def readCommand (environment : Option String) (before : Progress) (args : List String) :
    CommandWord → Except Refusal Invocation
  | .generate => do
    let behind ← generateValues environment args
    return invocation (← before.finish) behind (.generate behind.options)
  | .completions => do
    let behind ← Level.completions.values args
    let shell ← requiredShell behind
    return invocation (← before.finish) behind (.completions shell)
  | .help => .error (helpRefusal args)

/-- The refusal of arguments without a command. -/
def withoutCommand (p : Progress) : Refusal :=
  match p.finish with
  | .error refusal => refusal
  | .ok v => if v.verbose || v.format.isSome then .noCommand else .noArguments

/-- The refusal of an argument behind two dashes that stand where a command is expected. -/
def behindDashes (p : Progress) : List String → Refusal
  | [] => withoutCommand p
  | arg :: _ => if (CommandWord.of? arg).isSome then .unknownArgument else .unknownCommand

/-- Reads the arguments of the program from those before the command on. -/
def readProgram (environment : Option String) : Progress → List String → Except Refusal Invocation
  | p, [] => .error (withoutCommand p)
  | p, arg :: rest =>
    match if p.awaits then none else CommandWord.of? arg with
    | some word => readCommand environment p rest word
    | none =>
      match Token.of arg with
      | .endOfOptions => .error (behindDashes p rest)
      | token => do readProgram environment (← Level.program.readOption p arg token) rest

/-- What the arguments of the program ask for. -/
def parse (environment : Option String) (args : List String) : Except Refusal Invocation :=
  readProgram environment {} args

/-- The exit code of a refusal. Help and the version are what was asked for. -/
def Refusal.exitCode : Refusal → ExitCode
  | .help | .version => .success
  | _ => .invalidInput

end Arguments

end RouteClient
