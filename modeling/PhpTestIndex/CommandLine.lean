import PhpTestIndex.Discovery
import PhpTestIndex.Settings.Store

/-! # The command line

A `Request` is what the arguments of the program ask for.  `Request.read` reads it, or says what is
to be told instead.  `Request.run` answers it from the files on a disk and the variables of the
environment: it gives what is written and what is changed on the disk.

Options that hold for all commands may stand before the name of the command or after it; the one
after it counts.
-/

namespace PhpTestIndex

/-- What the program is asked to do. -/
inductive Command
  /-- Write the first settings. -/
  | init (force : Bool)
  /-- Show the settings. -/
  | showSettings
  /-- Show the tests of a file. -/
  | parse (file : String) (format : Format)
  /-- Show the tests below a directory, or below those of the settings. -/
  | discover (directory : Option String) (format : Format)
deriving DecidableEq, Repr

/-- What the arguments of the program ask for. -/
structure Request where
  /-- The settings file. -/
  config : Option String
  /-- The root of the tests. -/
  root : Option String
  debug : Bool
  command : Command
deriving DecidableEq, Repr

/-- What is told instead of the answer to a request. -/
inductive Guidance
  | help
  | version
  /-- The arguments are no request. -/
  | usage (reason : String)
deriving DecidableEq, Repr

/-- An option of the command line. -/
inductive Switch
  | config
  | root
  | debug
  | force
  | json
  | help
  | version
deriving DecidableEq, Repr

namespace Switch

/-- The option with a long name. -/
def ofLong? : String → Option Switch
  | "config" => some config
  | "root" => some root
  | "debug" => some debug
  | "force" => some force
  | "json" => some json
  | "help" => some help
  | "version" => some version
  | _ => none

/-- The option with a short name. -/
def ofShort? : Char → Option Switch
  | 'c' => some config
  | 'f' => some force
  | 'h' => some help
  | 'V' => some version
  | _ => none

/-- A value follows the option. -/
def takesValue : Switch → Bool
  | config => true
  | root => true
  | _ => false

end Switch

/-- The name of a command. -/
inductive CommandName
  | init
  | config
  | parse
  | discover
  | help
deriving DecidableEq, Repr

/-- The command with a name. -/
def CommandName.ofText? : String → Option CommandName
  | "init" => some init
  | "config" => some config
  | "parse" => some parse
  | "discover" => some discover
  | "help" => some help
  | _ => none

/-- An option may stand after the name of a command, or before all names if there is none. -/
def Switch.isAllowed (switch : Switch) : Option CommandName → Bool
  | none => switch ≠ .force && switch ≠ .json
  | some command =>
    match switch with
    | .version => false
    | .force => command = .init
    | .json => command = .parse || command = .discover
    | _ => true

/-- The arguments that stand together, before the name of the command or after it. -/
structure Arguments where
  /-- The options with their values. -/
  options : List (Switch × String)
  /-- What stands without a dash. -/
  names : List String
deriving Repr

namespace Arguments

/-- No arguments. -/
def empty : Arguments :=
  ⟨[], []⟩

/-- Add an option; it may stand only once. -/
def addOption (arguments : Arguments) (switch : Switch) (value : String) :
    Except Guidance Arguments :=
  match switch with
  | .help => .error .help
  | .version => .error .version
  | switch =>
    if (arguments.options.lookup switch).isSome then
      .error (.usage "an argument cannot be used multiple times")
    else .ok { arguments with options := arguments.options ++ [(switch, value)] }

/-- Add an option that takes a value. -/
def addValue (arguments : Arguments) (switch : Switch) (value : String) :
    Except Guidance Arguments :=
  if value = "" then .error (.usage "a value is required for an argument")
  else arguments.addOption switch value

/-- An argument that is a value or a name, and not an option. -/
def isPlain (argument : String) : Bool :=
  argument = "-" || argument.toList.head? != some '-'

/-- What is said about an argument that no one expects. -/
def unexpected (argument : String) : Guidance :=
  .usage ("unexpected argument '" ++ argument ++ "' found")

/-- The options that a group of letters means, and the one among them that waits for a value. -/
def addLetters (command : Option CommandName) (arguments : Arguments) :
    List Char → Except Guidance (Arguments × Option Switch)
  | [] => .ok (arguments, none)
  | letter :: rest =>
    match (Switch.ofShort? letter).filter fun switch => switch.isAllowed command with
    | none => .error (unexpected ("-" ++ letter.toString))
    | some switch =>
      if switch.takesValue then
        match rest with
        | [] => .ok (arguments, some switch)
        | rest =>
          let value := String.ofList ((Text.after? ['='] rest).getD rest)
          (arguments.addValue switch value).map fun arguments => (arguments, none)
      else
        match arguments.addOption switch "" with
        | .error guidance => .error guidance
        | .ok arguments => addLetters command arguments rest

/-- The option that a word after two dashes means, which may wait for a value. -/
def addWord (command : Option CommandName) (arguments : Arguments) (word : String) :
    Except Guidance (Arguments × Option Switch) :=
  let chars := word.toList
  let name := String.ofList (chars.takeWhile (· != '='))
  match (Switch.ofLong? name).filter fun switch => switch.isAllowed command with
  | none => .error (unexpected ("--" ++ name))
  | some switch =>
    match switch.takesValue, chars.dropWhile (· != '=') with
    | true, [] => .ok (arguments, some switch)
    | true, _ :: value =>
      (arguments.addValue switch (String.ofList value)).map fun arguments => (arguments, none)
    | false, [] => (arguments.addOption switch "").map fun arguments => (arguments, none)
    | false, _ => .error (unexpected word)

/-- The options that an argument means, and the one among them that waits for a value. -/
def addArgument (command : Option CommandName) (arguments : Arguments) (argument : String) :
    Except Guidance (Arguments × Option Switch) :=
  match argument.toList with
  | '-' :: '-' :: word => addWord command arguments (String.ofList word)
  | letters => addLetters command arguments (letters.drop 1)

/-- Read arguments.  Before the name of the command the first name ends them; gives the arguments
that are left. -/
def read (command : Option CommandName) : Arguments → List String →
    Except Guidance (Arguments × List String)
  | arguments, [] => .ok (arguments, [])
  | arguments, argument :: rest =>
    if argument = "--" then
      if command.isNone then
        match rest with
        | [] => .ok (arguments, [])
        | name :: _ => .error (unexpected name)
      else .ok ({ arguments with names := arguments.names ++ rest }, [])
    else if isPlain argument then
      if command.isNone then .ok (arguments, argument :: rest)
      else read command { arguments with names := arguments.names ++ [argument] } rest
    else
      match addArgument command arguments argument, rest with
      | .error guidance, _ => .error guidance
      | .ok (arguments, none), rest => read command arguments rest
      | .ok (_, some _), [] => .error (.usage "a value is required for an argument")
      | .ok (arguments, some switch), value :: rest =>
        if isPlain value then
          match arguments.addValue switch value with
          | .error guidance => .error guidance
          | .ok arguments => read command arguments rest
        else .error (.usage "a value is required for an argument")

/-- An option that is set. -/
def has (arguments : Arguments) (switch : Switch) : Bool :=
  (arguments.options.lookup switch).isSome

/-- How answers are to be written. -/
def format (arguments : Arguments) : Format :=
  if arguments.has .json then .json else .text

/-- The names, of which there may be only so many and none may be empty. -/
def namesUpTo (count : Nat) (arguments : Arguments) : Except Guidance (List String) :=
  match arguments.names.drop count with
  | name :: _ => .error (unexpected name)
  | [] =>
    if arguments.names.contains "" then .error (.usage "a value is required for an argument")
    else .ok arguments.names

/-- What a command with some arguments asks for. -/
def command (name : CommandName) (arguments : Arguments) : Except Guidance Command :=
  match name with
  | .init => (arguments.namesUpTo 0).map fun _ => .init (arguments.has .force)
  | .config => (arguments.namesUpTo 0).map fun _ => .showSettings
  | .discover =>
    (arguments.namesUpTo 1).map fun names => .discover names.head? arguments.format
  | .parse =>
    match arguments.namesUpTo 1 with
    | .error guidance => .error guidance
    | .ok [] => .error (.usage "the following required arguments were not provided: <FILE>")
    | .ok (file :: _) => .ok (.parse file arguments.format)
  | .help =>
    match arguments.names with
    | [] => .error .help
    | [topic] =>
      .error (if (CommandName.ofText? topic).isSome then .help
        else .usage ("unrecognized subcommand '" ++ topic ++ "'"))
    | _ :: name :: _ => .error (unexpected name)

end Arguments

namespace Guidance

/-- How the program is used. -/
def usageText : String :=
  "Usage: phptest [OPTIONS] <COMMAND>\n"

/-- The help on the program. -/
def helpText : String :=
  "Discover PHPUnit and Pest tests\n\n" ++ usageText ++ "\n" ++
  "Commands:\n" ++
  "  init      Create .phptest/settings.toml with default values\n" ++
  "  config    Display active settings\n" ++
  "  parse     Parse one PHP file and print its tests\n" ++
  "  discover  Find all test files under the test root\n" ++
  "  help      Print this message\n\n" ++
  "Options:\n" ++
  "  -c, --config <CONFIG>  Path to custom settings.toml file\n" ++
  "      --root <ROOT>      Project root used for Pest class names (overrides test_root)\n" ++
  "      --debug            Enable debug logging\n" ++
  "  -h, --help             Print help\n" ++
  "  -V, --version          Print version\n"

/-- What is written to tell it. -/
def written : Guidance → Written
  | help => ⟨.success, helpText, ""⟩
  | version => ⟨.success, "phptest 0.3.0\n", ""⟩
  | usage reason =>
    ⟨.wrongUsage, "",
      "error: " ++ reason ++ "\n\n" ++ usageText ++ "\nFor more information, try '--help'.\n"⟩

end Guidance

namespace Request

/-- The request that is made by a command and the arguments before its name and after it. -/
def ofArguments (outer : Arguments) (name : CommandName) (inner : Arguments) :
    Except Guidance Request :=
  let value (switch : Switch) : Option String :=
    (inner.options.lookup switch).or (outer.options.lookup switch)
  (inner.command name).map fun command =>
    ⟨value .config, value .root, inner.has .debug || outer.has .debug, command⟩

/-- What the arguments of the program ask for. -/
def read (arguments : List String) : Except Guidance Request :=
  match Arguments.read none Arguments.empty arguments with
  | .error guidance => .error guidance
  | .ok (_, []) => .error (.usage "'phptest' requires a subcommand but one was not provided")
  | .ok (outer, name :: rest) =>
    match CommandName.ofText? name with
    | none => .error (.usage ("unrecognized subcommand '" ++ name ++ "'"))
    | some name =>
      match Arguments.read (some name) Arguments.empty rest with
      | .error guidance => .error guidance
      | .ok (inner, _) => ofArguments outer name inner

/-- How the answer to a request is to be written. -/
def format (request : Request) : Format :=
  match request.command with
  | .parse _ format => format
  | .discover _ format => format
  | _ => .text

/-- The settings for a request: what it says itself goes before the file and the environment. -/
def settings (request : Request) (disk : Disk) (environment : List (String × String)) :
    Except Failure Settings :=
  let loaded := match request.config with
    | none => Settings.load disk environment
    | some path => Settings.loadFrom disk environment path
  match loaded with
  | .error fault => .error (.config fault.message)
  | .ok settings =>
    .ok { settings with
      debug := request.debug || settings.debug
      testRoot := request.root.getD settings.testRoot
      search := match request.command with
        | .discover (some directory) _ => { settings.search with directories := [directory] }
        | _ => settings.search }

/-- The paths that are looked at for the settings of a request. -/
def settingsPaths (request : Request) (directory : List String) : List String :=
  let upward (path : String) : List String :=
    (Settings.upwards directory.reverse).map fun place => Path.join (Path.ofLocation place) path
  upward Settings.filePath ++ (request.config.map upward).getD []

/-- What is written for a request that cannot be answered. -/
def refuse (request : Request) (failure : Failure) : Written :=
  Written.ofFailure request.format failure

/-- Answer a request with its settings: what is written, and what is changed on the disk. -/
def answer (request : Request) (disk : Disk) (settings : Settings) : Written × List Change :=
  match request.command with
  | .init force =>
    match Settings.init disk force with
    | (changes, some fault) => (request.refuse (.config fault.message), changes)
    | (changes, none) =>
      (⟨.success, "Created configuration file at: " ++ Settings.filePath ++ "\n", ""⟩, changes)
  | .showSettings => (⟨.success, settings.toToml ++ "\n", ""⟩, [])
  | .parse file format =>
    match settings.session.testsIn disk file with
    | .error failure => (request.refuse failure, [])
    | .ok tests => (Written.ofTests format file tests, [])
  | .discover _ format =>
    match settings.discover disk with
    | .error failure => (request.refuse failure, [])
    | .ok report =>
      (Written.ofReport format report (Text.join ", " settings.search.directories), [])

/-- Answer a request: what is written, and what is changed on the disk. -/
def run (request : Request) (disk : Disk) (environment : List (String × String)) :
    Written × List Change :=
  match request.settings disk environment with
  | .error failure => (request.refuse failure, [])
  | .ok settings => request.answer disk settings

end Request

/-- Answer the arguments of the program: what is written, and what is changed on the disk. -/
def runProgram (arguments : List String) (disk : Disk) (environment : List (String × String)) :
    Written × List Change :=
  match Request.read arguments with
  | .error guidance => (guidance.written, [])
  | .ok request => request.run disk environment

end PhpTestIndex
