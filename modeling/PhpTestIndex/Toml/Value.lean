import PhpTestIndex.Text.Piece

/-!
# TOML values

The values of a TOML document and how they are written: plain fields first, then a section for each
table; a list of several items has one item on a line.

A text is written in the first style that can hold it: between double quotes if nothing needs an
escape, between single quotes if it has none, then between triple quotes, and at last with escapes.
-/

namespace PhpTestIndex

/-- A TOML value. -/
inductive Toml
  | bool (value : Bool)
  | integer (value : Int)
  /-- A number with a fraction or an exponent, in plain digits. -/
  | float (digits : String)
  /-- A date, a time or both, as it is written. -/
  | dateTime (text : String)
  | string (value : String)
  | array (items : List Toml)
  | table (fields : List (String × Toml))
deriving Repr, Inhabited

namespace Toml

/-- The longest run of a character. -/
def longestRun (sign : Char) : Nat → List Char → Nat
  | run, [] => run
  | run, c :: rest =>
    if c = sign then longestRun sign (run + 1) rest else max run (longestRun sign 0 rest)

/-- A control character that cannot stand between quotes as it is. -/
def isControl (c : Char) : Bool :=
  (c.toNat < 0x20 && c != '\t' && c != '\n') || c.toNat == 0x7F

/-- The four hexadecimal digits of a control character, in upper case. -/
def controlDigits (c : Char) : String :=
  let digit (n : Nat) : Char := if n < 10 then Char.ofNat (48 + n) else Char.ofNat (55 + n)
  String.ofList ['0', '0', digit (c.toNat / 16), digit (c.toNat % 16)]

/-- How a character is written with escapes; `isLong` says that line breaks stand as they are. -/
def escape (isLong : Bool) (c : Char) : String :=
  match c with
  | '\x08' => "\\b"
  | '\t' => "\\t"
  | '\n' => if isLong then "\n" else "\\n"
  | '\x0c' => "\\f"
  | '\r' => "\\r"
  | '\\' => "\\\\"
  | c => if isControl c then "\\u" ++ controlDigits c else c.toString

/-- Write a text with escapes; only so many double quotes may follow each other. -/
def escapeAll (isLong : Bool) (allowed : Nat) : Nat → List Char → String
  | _, [] => ""
  | run, c :: rest =>
    if c = '\x22' then
      if run < allowed then "\"" ++ escapeAll isLong allowed (run + 1) rest
      else "\\\"" ++ escapeAll isLong allowed 0 rest
    else escape isLong c ++ escapeAll isLong allowed 0 rest

/-- How a text is written. -/
def renderString (text : String) : String :=
  let chars := text.toList
  let hasControl := chars.any isControl
  let hasBackslash := chars.contains '\\'
  let hasBreak := chars.contains '\n'
  let doubles := longestRun '\x22' 0 chars
  let singles := longestRun '\'' 0 chars
  let lead := if hasBreak then "\n" else ""
  let long := "\"\"\"" ++ lead ++ escapeAll true 2 0 chars ++ "\"\"\""
  let short := "\"" ++ escapeAll false 0 0 chars ++ "\""
  if !hasControl && !hasBackslash && doubles = 0 && !hasBreak then short
  else if !hasControl && singles = 0 && !hasBreak then "'" ++ text ++ "'"
  else if !hasControl && !hasBackslash && doubles ≤ 2 then long
  else if !hasControl && singles ≤ 2 then "'''" ++ lead ++ text ++ "'''"
  else if hasBreak then long
  else short

mutual

/-- How a value is written after its key. -/
def renderValue : Toml → String
  | .bool value => if value then "true" else "false"
  | .integer value => toString value
  | .float digits => digits
  | .dateTime text => text
  | .string value => renderString value
  | .array [] => "[]"
  | .array [item] => "[" ++ renderValue item ++ "]"
  | .array items => "[\n" ++ renderItems items ++ "]"
  | .table fields => "\x7b " ++ renderInline fields ++ " \x7d"

/-- The items of a list, one on a line. -/
def renderItems : List Toml → String
  | [] => ""
  | item :: rest => "    " ++ renderValue item ++ ",\n" ++ renderItems rest

/-- The fields of a table on one line. -/
def renderInline : List (String × Toml) → String
  | [] => ""
  | [(name, value)] => name ++ " = " ++ renderValue value
  | (name, value) :: rest => name ++ " = " ++ renderValue value ++ ", " ++ renderInline rest

end

/-- The value is a table. -/
def isTable : Toml → Bool
  | .table _ => true
  | _ => false

/-- What a value is said to be. -/
def kind : Toml → String
  | .bool _ => "boolean"
  | .integer _ => "integer"
  | .float _ => "float"
  | .dateTime _ => "datetime"
  | .string _ => "string"
  | .array _ => "array"
  | .table _ => "inline table"

/-- The lines of the fields that are not tables. -/
def renderFields (fields : List (String × Toml)) : String :=
  String.join ((fields.filter fun field => !field.2.isTable).map fun field =>
    field.1 ++ " = " ++ renderValue field.2 ++ "\n")

/-- A document: the plain fields and then a section for each table. -/
def renderDocument (fields : List (String × Toml)) : String :=
  renderFields fields ++ String.join (fields.map fun field =>
    match field.2 with
    | .table inner => "\n[" ++ field.1 ++ "]\n" ++ renderFields inner
    | _ => "")

end Toml

end PhpTestIndex
