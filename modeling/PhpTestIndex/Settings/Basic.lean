import PhpTestIndex.Path
import PhpTestIndex.Settings.Value
import PhpTestIndex.Test.Json

/-! # Settings

What a user can set, with the values that hold if nothing is set.  `Settings.ofFields` reads the
settings from the values that were set, and tells the first value that does not fit.
`Settings.toToml` and `Settings.toJson` show them, and `Settings.ofJson?` reads what
`Settings.toJson` shows.

Unknown fields do not count.  The fields are looked at in the order of their names.
-/

namespace PhpTestIndex

/-- How test files are searched. -/
structure SearchSettings where
  /-- The directories to search, seen from the root of the tests. -/
  directories : List String
  /-- What the names of test files end with. -/
  suffixes : List String
  /-- Patterns of what is passed over, seen from the directory that is searched. -/
  ignorePatterns : List String
deriving DecidableEq, Repr

/-- What a user can set. -/
structure Settings where
  version : UInt32
  /-- The root of the tests, seen from the workspace. -/
  testRoot : String
  workspaceRoot : Option String
  debug : Bool
  search : SearchSettings
  /-- What is logged: `error`, `warn`, `info`, `debug` or `trace`. -/
  logLevel : String
deriving DecidableEq, Repr

/-- How test files are searched if nothing is set. -/
def SearchSettings.default : SearchSettings :=
  ⟨["tests"], ["Test.php"], ["vendor/**", "node_modules/**"]⟩

/-- The settings if nothing is set. -/
def Settings.default : Settings :=
  ⟨1, ".", none, false, SearchSettings.default, "warn"⟩

instance : Inhabited Settings :=
  ⟨Settings.default⟩

/-! ## Reading values that were set -/

/-- What a value should have been. -/
inductive Expected
  | number
  | path
  | truth
  | text
  | list
  | search
  | logging
deriving DecidableEq, Repr

/-- What is said to be expected. -/
def Expected.description : Expected → String
  | number => "u32"
  | path => "path string"
  | truth => "a boolean"
  | text => "a string"
  | list => "a sequence"
  | search => "struct DiscoveryConfig"
  | logging => "struct LoggingConfig"

/-- A value that does not fit, under its key. -/
structure Misfit where
  found : Setting
  expected : Expected
  key : List String
  /-- The value has the right kind, but it is out of range. -/
  isOutOfRange : Bool
deriving Repr

namespace Misfit

/-- The key and the origin of a value, as they are told. -/
def whereFound (key : List String) : Origin → String
  | .file path => "\"" ++ Text.join "." ("default" :: key) ++ "\" in " ++ path ++ " TOML file"
  | .environment =>
    "\"" ++ Text.join "." (key.map fun part => String.ofList (part.toList.map Char.toUpper)) ++
      "\" in `PHPTEST_` environment variable(s)"

/-- What is said about a value that does not fit. -/
def message (misfit : Misfit) : String :=
  (if misfit.isOutOfRange then "invalid value " else "invalid type: found ") ++
    misfit.found.description ++ ", expected " ++ misfit.expected.description ++ " for key " ++
    whereFound misfit.key misfit.found.origin

end Misfit

namespace Setting

/-- Reads the value under a key. -/
abbrev Reader (α : Type) := List String → Setting → Except Misfit α

/-- The value is not what was expected. -/
def misfit (expected : Expected) : Reader α :=
  fun key value => .error ⟨value, expected, key, false⟩

/-- A 32-bit word. -/
def number : Reader UInt32 := fun key value =>
  let bounded (n : Int) : Except Misfit UInt32 :=
    if 0 ≤ n ∧ n < UInt32.size then .ok (UInt32.ofNat n.toNat)
    else .error ⟨value, .number, key, true⟩
  match value with
  | .scalar _ (.unsigned n) => bounded n
  | .scalar _ (.signed n) => bounded n
  | _ => misfit .number key value

/-- A truth value. -/
def truth : Reader Bool := fun key value =>
  match value with
  | .scalar _ (.bool flag) => .ok flag
  | _ => misfit .truth key value

/-- A text; a single character counts as one. -/
def textAs (expected : Expected) : Reader String := fun key value =>
  match value with
  | .scalar _ (.text text) => .ok text
  | .scalar _ (.character c) => .ok c.toString
  | _ => misfit expected key value

/-- The items of a list from an index on. -/
def itemsFrom (read : Reader α) (key : List String) : Nat → List Setting → Except Misfit (List α)
  | _, [] => .ok []
  | index, item :: rest =>
    match read (key ++ [toString index]) item with
    | .error misfit => .error misfit
    | .ok value => (itemsFrom read key (index + 1) rest).map (value :: ·)

/-- A list. -/
def listOf (read : Reader α) : Reader (List α) := fun key value =>
  match value with
  | .list _ items => itemsFrom read key 0 items
  | _ => misfit .list key value

/-- A value that may be missing. -/
def orElse (read : Reader α) (missing : α) (key : List String) (name : String) :
    Option Setting → Except Misfit α
  | none => .ok missing
  | some value => read (key ++ [name]) value

end Setting

open Setting in
/-- How test files are searched; a list has the directories, the suffixes and the patterns. -/
def SearchSettings.ofSetting : Setting.Reader SearchSettings := fun key value =>
  let texts := listOf (textAs .text)
  let paths := listOf (textAs .path)
  match value with
  | .table _ fields => do
    let patterns ← orElse texts SearchSettings.default.ignorePatterns key "ignore_patterns"
      (fields.lookup "ignore_patterns")
    let directories ← orElse paths SearchSettings.default.directories key "include"
      (fields.lookup "include")
    let suffixes ← orElse texts SearchSettings.default.suffixes key "suffixes"
      (fields.lookup "suffixes")
    return ⟨directories, suffixes, patterns⟩
  | .list _ items => do
    let directories ← orElse paths SearchSettings.default.directories key "0" items[0]?
    let suffixes ← orElse texts SearchSettings.default.suffixes key "1" items[1]?
    let patterns ← orElse texts SearchSettings.default.ignorePatterns key "2" items[2]?
    return ⟨directories, suffixes, patterns⟩
  | value => misfit .search key value

open Setting in
/-- What is logged; a list has the level. -/
def Settings.logLevelOfSetting : Setting.Reader String := fun key value =>
  match value with
  | .table _ fields =>
    orElse (textAs .text) Settings.default.logLevel key "level" (fields.lookup "level")
  | .list _ items => orElse (textAs .text) Settings.default.logLevel key "0" items[0]?
  | value => misfit .logging key value

open Setting in
/-- The settings that some values give. -/
def Settings.ofFields (fields : List (String × Setting)) : Except Misfit Settings := do
  let field (name : String) : Option Setting := fields.lookup name
  let debug ← orElse truth Settings.default.debug [] "debug" (field "debug")
  let search ← orElse SearchSettings.ofSetting SearchSettings.default [] "discovery"
    (field "discovery")
  let logLevel ← orElse Settings.logLevelOfSetting Settings.default.logLevel [] "logging"
    (field "logging")
  let testRoot ← orElse (textAs .path) Settings.default.testRoot [] "test_root" (field "test_root")
  let version ← orElse number Settings.default.version [] "version" (field "version")
  let workspaceRoot ← orElse (fun key value => (textAs .path key value).map some) none []
    "workspace_root" (field "workspace_root")
  return ⟨version, testRoot, workspaceRoot, debug, search, logLevel⟩

namespace Settings

/-! ## Showing settings -/

/-- Some texts in a settings file. -/
def textsToml (texts : List String) : Toml :=
  .array (texts.map .string)

/-- The fields of a settings file. -/
def tomlFields (settings : Settings) : List (String × Toml) :=
  [("version", .integer settings.version.toNat), ("test_root", .string settings.testRoot)] ++
    (settings.workspaceRoot.map fun root => ("workspace_root", Toml.string root)).toList ++
    [("debug", .bool settings.debug),
      ("discovery", .table [
        ("include", textsToml settings.search.directories),
        ("suffixes", textsToml settings.search.suffixes),
        ("ignore_patterns", textsToml settings.search.ignorePatterns)]),
      ("logging", .table [("level", .string settings.logLevel)])]

/-- Settings as a settings file. -/
def toToml (settings : Settings) : String :=
  Toml.renderDocument settings.tomlFields

/-- Settings as JSON. -/
def toJson (settings : Settings) : Json :=
  .object (
    [("version", .ofNat settings.version.toNat), ("test_root", .string settings.testRoot)] ++
    Json.textField "workspace_root" settings.workspaceRoot ++
    [("debug", .bool settings.debug),
      ("discovery", .object [
        ("include", Json.strings settings.search.directories),
        ("suffixes", Json.strings settings.search.suffixes),
        ("ignore_patterns", Json.strings settings.search.ignorePatterns)]),
      ("logging", .object [("level", .string settings.logLevel)])])

/-- How test files are searched, from JSON; an array has the fields in order, and may end early. -/
def searchOfJson? (value : Json) : Option SearchSettings :=
  let texts (missing : List String) : Option Json → Option (List String)
    | none => some missing
    | some value => value.texts?
  let fields (directories suffixes patterns : Option Json) : Option SearchSettings := do
    let directories ← texts SearchSettings.default.directories directories
    let suffixes ← texts SearchSettings.default.suffixes suffixes
    let patterns ← texts SearchSettings.default.ignorePatterns patterns
    return ⟨directories, suffixes, patterns⟩
  match value with
  | .object _ =>
    fields (value.field? "include") (value.field? "suffixes") (value.field? "ignore_patterns")
  | .array items => if 3 < items.length then none else fields items[0]? items[1]? items[2]?
  | _ => none

/-- What is logged, from JSON; an array has the level. -/
def logLevelOfJson? (value : Json) : Option String :=
  match value with
  | .object _ => value.withDefault? "level" Json.text? Settings.default.logLevel
  | .array [] => some Settings.default.logLevel
  | .array [level] => level.text?
  | _ => none

/-- Settings from JSON; only the workspace may be `null`, and what is missing has its default.  An
array has the fields in order; it may end early, but not before the workspace. -/
def ofJson? (value : Json) : Option Settings :=
  let orDefault {α : Type} (read : Json → Option α) (missing : α) : Option Json → Option α
    | none => some missing
    | some value => read value
  let read (field : String → Option Json) : Option Settings := do
    let version ← orDefault (Json.natBelow? UInt32.size) Settings.default.version.toNat
      (field "version")
    let testRoot ← orDefault Json.text? Settings.default.testRoot (field "test_root")
    let workspaceRoot ← orDefault Json.optionalText? none (field "workspace_root")
    let debug ← orDefault Json.bool? Settings.default.debug (field "debug")
    let search ← orDefault searchOfJson? SearchSettings.default (field "discovery")
    let logLevel ← orDefault logLevelOfJson? Settings.default.logLevel (field "logging")
    return ⟨UInt32.ofNat version, testRoot, workspaceRoot, debug, search, logLevel⟩
  match value with
  | .object _ => read fun name => value.field? name
  | .array items =>
    if items.length < 3 ∨ 6 < items.length then none
    else
      let names := ["version", "test_root", "workspace_root", "debug", "discovery", "logging"]
      read fun name => (names.zip items).lookup name
  | _ => none

/-! ## What settings mean -/

/-- The root of the tests; a relative one is seen from the workspace. -/
def resolvedTestRoot (settings : Settings) : String :=
  match settings.workspaceRoot with
  | some workspace => Path.join workspace settings.testRoot
  | none => settings.testRoot

/-- The directories to search. -/
def searchedDirectories (settings : Settings) : List String :=
  settings.search.directories.map (Path.join settings.resolvedTestRoot)

/-- What is logged, as a filter. -/
def logFilter (settings : Settings) : String :=
  "warn,phptest=" ++ (if settings.debug then "debug" else settings.logLevel)

end Settings

end PhpTestIndex
