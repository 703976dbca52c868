import PhpTestIndex.Files.Tree
import PhpTestIndex.Settings.Basic
import PhpTestIndex.Settings.Environment
import PhpTestIndex.Toml.Document

/-! # Where settings are kept

The settings of a workspace are in the file `settings.toml` of its directory `.phptest`.  They are
loaded from this file or from another one, and the environment is laid over them; a file that is
missing sets nothing.  Saving and writing the first settings give the changes on the disk that they
ask for.
-/

namespace PhpTestIndex

/-- Why the values of a settings file are not known. -/
inductive ContentFault
  | file (fault : FileFault)
  | notUnicode
  /-- The text of the file is not TOML. -/
  | notToml (text : List Char) (fault : Toml.Fault)
deriving Repr

/-- What is said about a settings file whose values are not known. -/
def ContentFault.message : ContentFault → String
  | file fault => fault.message ++ "\n"
  | notUnicode => "stream did not contain valid UTF-8\n"
  | notToml text fault => fault.shown text

/-- A settings file whose values are not known. -/
structure UnreadableFile where
  /-- The path as it is shown. -/
  path : String
  fault : ContentFault
deriving Repr

/-- Why settings cannot be loaded. -/
inductive SettingsFault
  | unreadable (file : UnreadableFile)
  | misfit (misfit : Misfit)
deriving Repr

/-- What is said about settings that cannot be loaded. -/
def SettingsFault.message : SettingsFault → String
  | unreadable file => file.fault.message ++ " in " ++ file.path ++ " TOML file"
  | misfit fault => fault.message

/-- Why settings cannot be written. -/
inductive SaveFault
  | noParent
  /-- There are settings at the path already. -/
  | present (path : String)
  | file (fault : FileFault)
deriving DecidableEq, Repr

/-- What is said about settings that cannot be written. -/
def SaveFault.message : SaveFault → String
  | noParent => "Invalid path"
  | present path => "Configuration file already exists at " ++ path
  | file fault => fault.message

namespace Settings

/-- The directory of the settings. -/
def directoryName : String :=
  ".phptest"

/-- The path of the settings in a workspace. -/
def filePath : String :=
  ".phptest/settings.toml"

/-- The directories from a place up to the root, the place given from its end. -/
def upwards : List String → List (List String)
  | [] => [[]]
  | name :: way => (name :: way).reverse :: upwards way

/-- The nearest directory at or above the current one that has settings. -/
def workspace? (disk : Disk) : Option String :=
  ((upwards disk.directory.reverse).map Path.ofLocation).find? fun path =>
    disk.isDirectory (Path.join path directoryName)

/-- The file that a path means for settings: a relative path is looked for in the current directory
and in each one above it. -/
def find? (disk : Disk) (path : String) : Option String :=
  if Path.isAbsolute path then (some path).filter disk.isFile
  else
    ((upwards disk.directory.reverse).map fun place =>
      Path.join (Path.ofLocation place) path).find? disk.isFile

/-- Read the values that the content of a settings file sets. -/
def readContent (content : ByteArray) : Except ContentFault (List (String × Toml)) :=
  match String.fromUTF8? content with
  | none => .error .notUnicode
  | some text => (Toml.readDocument text.toList).mapError (.notToml text.toList)

/-- The values that a settings file sets. -/
def fieldsOfFile (disk : Disk) (path : String) :
    Except SettingsFault (List (String × Setting)) :=
  match find? disk path with
  | none => .ok []
  | some found =>
    let shown := Path.shorter disk.directory found
    match (disk.read found).mapError .file >>= readContent with
    | .error fault => .error (.unreadable ⟨shown, fault⟩)
    | .ok fields => .ok (Setting.ofTomlFields (.file shown) fields)

/-- Load settings from a file and the environment. -/
def loadFrom (disk : Disk) (environment : List (String × String)) (path : String) :
    Except SettingsFault Settings :=
  match fieldsOfFile disk path with
  | .error fault => .error fault
  | .ok fields =>
    match ofFields (Setting.mergeFields fields (Environment.settings environment)) with
    | .error misfit => .error (.misfit misfit)
    | .ok settings => .ok settings

/-- Load the settings of the workspace. -/
def load (disk : Disk) (environment : List (String × String)) : Except SettingsFault Settings :=
  let workspace := workspace? disk
  let path := match workspace with
    | none => filePath
    | some root => Path.join root filePath
  match loadFrom disk environment path with
  | .error fault => .error fault
  | .ok settings => .ok { settings with workspaceRoot := settings.workspaceRoot.or workspace }

/-- Write a text into a file of a directory that may be missing: what is done, and why it ends
early if it does. -/
def store (disk : Disk) (directory path text : String) : List Change × Option FileFault :=
  match disk.makeDirectories directory with
  | (changes, some fault) => (changes, some fault)
  | (changes, none) =>
    match (disk.applyAll changes).write path text.toUTF8 with
    | .error fault => (changes, some fault)
    | .ok change => (changes ++ [change], none)

/-- Save settings in a file: what is done, and why it ends early if it does. -/
def save (disk : Disk) (path : String) (settings : Settings) : List Change × Option SaveFault :=
  match Path.parent? path with
  | none => ([], some .noParent)
  | some directory =>
    let (changes, fault) := store disk directory path settings.toToml
    (changes, fault.map .file)

/-- The first settings of a workspace, with remarks. -/
def firstFile : String :=
  "# phptest configuration\n" ++
  "version = 1\n" ++
  "\n" ++
  "# Project root; Pest test names are derived from paths relative to it\n" ++
  "test_root = \".\"\n" ++
  "\n" ++
  "debug = false\n" ++
  "\n" ++
  "[discovery]\n" ++
  "# Directories under test_root that hold tests\n" ++
  "include = [\"tests\"]\n" ++
  "\n" ++
  "# Files ending with one of these suffixes are parsed\n" ++
  "suffixes = [\"Test.php\"]\n" ++
  "\n" ++
  "# Glob patterns to skip\n" ++
  "ignore_patterns = [\"vendor/**\", \"node_modules/**\"]\n" ++
  "\n" ++
  "[logging]\n" ++
  "# error, warn, info, debug or trace\n" ++
  "level = \"warn\"\n"

/-- Write the first settings into the current directory; settings that are there are kept unless
`force` holds. -/
def init (disk : Disk) (force : Bool) : List Change × Option SaveFault :=
  if (disk.find? filePath).isSome && !force then ([], some (.present filePath))
  else
    let (changes, fault) := store disk directoryName filePath firstFile
    (changes, fault.map .file)

end Settings

end PhpTestIndex
