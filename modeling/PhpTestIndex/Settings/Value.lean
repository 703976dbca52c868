import PhpTestIndex.Text.Quoted
import PhpTestIndex.Toml.Value

/-! # Values of settings

Settings come from a file and from the environment.  A `Setting` is a value with its origin, so
that what is wrong with it can be told.  Where both sources set a table, their fields are merged;
any other value gives way to the later one.
-/

namespace PhpTestIndex

/-- Where a value comes from. -/
inductive Origin
  /-- A settings file, as it is shown. -/
  | file (path : String)
  | environment
deriving DecidableEq, Repr

/-- A value that has no parts. -/
inductive Scalar
  | bool (value : Bool)
  /-- A number that is known not to be negative. -/
  | unsigned (value : Nat)
  | signed (value : Int)
  /-- A number with a fraction or an exponent, in plain digits. -/
  | float (digits : String)
  | character (value : Char)
  | text (value : String)
deriving DecidableEq, Repr

/-- A value that is set, with its origin. -/
inductive Setting
  | scalar (origin : Origin) (value : Scalar)
  | list (origin : Origin) (items : List Setting)
  | table (origin : Origin) (fields : List (String × Setting))
deriving Repr

/-- What a value is said to be. -/
def Scalar.description : Scalar → String
  | bool value => "bool " ++ (if value then "true" else "false")
  | unsigned value => "unsigned int `" ++ toString value ++ "`"
  | signed value => "signed int `" ++ toString value ++ "`"
  | float digits => "float `" ++ digits ++ "`"
  | character value => "char " ++ Text.quotedCharacter value
  | text value => "string " ++ Text.quoted value

namespace Setting

/-- Where a value comes from. -/
def origin : Setting → Origin
  | scalar origin _ => origin
  | list origin _ => origin
  | table origin _ => origin

/-- What a value is said to be. -/
def description : Setting → String
  | scalar _ value => value.description
  | list _ _ => "sequence"
  | table _ _ => "map"

/-- Set a field, in its place if it is there and at the end if it is not. -/
def setField (name : String) (value : Setting) : List (String × Setting) → List (String × Setting)
  | [] => [(name, value)]
  | (key, old) :: rest =>
    if key = name then (name, value) :: rest else (key, old) :: setField name value rest

mutual

/-- Lay a value over another one. -/
def merge : Setting → Setting → Setting
  | .table _ fields, .table origin later =>
    .table origin (mergeShared later fields ++ later.filter fun field =>
      (fields.lookup field.1).isNone)
  | _, later => later

/-- The fields of a table with those laid over them that have the same names. -/
def mergeShared (later : List (String × Setting)) :
    List (String × Setting) → List (String × Setting)
  | [] => []
  | (name, value) :: rest =>
    (name, match later.lookup name with
      | none => value
      | some new => merge value new) :: mergeShared later rest

end

/-- Lay fields over others. -/
def mergeFields (fields later : List (String × Setting)) : List (String × Setting) :=
  mergeShared later fields ++ later.filter fun field => (fields.lookup field.1).isNone

mutual

/-- A value of a settings file; a date counts as a table whose fields no setting has. -/
def ofToml (origin : Origin) : Toml → Setting
  | .bool value => .scalar origin (.bool value)
  | .integer value => .scalar origin (.signed value)
  | .float digits => .scalar origin (.float digits)
  | .dateTime _ => .table origin []
  | .string value => .scalar origin (.text value)
  | .array items => .list origin (ofTomlItems origin items)
  | .table fields => .table origin (ofTomlFields origin fields)

/-- The items of a list in a settings file. -/
def ofTomlItems (origin : Origin) : List Toml → List Setting
  | [] => []
  | item :: rest => ofToml origin item :: ofTomlItems origin rest

/-- The fields of a table in a settings file. -/
def ofTomlFields (origin : Origin) : List (String × Toml) → List (String × Setting)
  | [] => []
  | (name, value) :: rest => (name, ofToml origin value) :: ofTomlFields origin rest

end

end Setting

end PhpTestIndex
