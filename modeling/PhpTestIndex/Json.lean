import PhpTestIndex.Text.Piece

/-!
# JSON values

Values with their fields in order, and how they are written over several lines: two spaces for each
level, and nothing inside empty lists and objects.
-/

namespace PhpTestIndex

/-- A JSON value. -/
inductive Json
  | null
  | bool (value : Bool)
  | number (value : Int)
  /-- A number that is not a whole number, as it is written. -/
  | fraction (text : String)
  | string (value : String)
  | array (items : List Json)
  | object (fields : List (String × Json))
deriving Repr, Inhabited

namespace Json

/-- The number of a count or a place. -/
def ofNat (value : Nat) : Json :=
  number value

/-- An array of strings. -/
def strings (values : List String) : Json :=
  array (values.map string)

/-- The field with a name. -/
def field? (name : String) : Json → Option Json
  | .object fields => fields.lookup name
  | _ => none

/-- A hexadecimal digit. -/
def hexDigit (n : Nat) : Char :=
  if n < 10 then Char.ofNat (48 + n) else Char.ofNat (87 + n)

/-- How a character is written in a string. -/
def escaped (c : Char) : List Char :=
  match c with
  | '\x22' => ['\\', '\x22']
  | '\\' => ['\\', '\\']
  | '\x08' => ['\\', 'b']
  | '\x0c' => ['\\', 'f']
  | '\n' => ['\\', 'n']
  | '\r' => ['\\', 'r']
  | '\t' => ['\\', 't']
  | c =>
    if c.toNat < 0x20 then
      ['\\', 'u', '0', '0', hexDigit (c.toNat / 16), hexDigit (c.toNat % 16)]
    else [c]

/-- How a string is written. -/
def quote (text : String) : String :=
  "\"" ++ String.ofList (text.toList.flatMap escaped) ++ "\""

/-- A line break and the blanks before what stands at a level. -/
def newLine (level : Nat) : String :=
  "\n" ++ String.ofList (List.replicate (2 * level) ' ')

mutual

/-- How a value is written that starts at a level. -/
def renderAt (level : Nat) : Json → String
  | .null => "null"
  | .bool value => if value then "true" else "false"
  | .number value => toString value
  | .fraction text => text
  | .string value => quote value
  | .array [] => "[]"
  | .array (item :: rest) =>
    "[" ++ newLine (level + 1) ++ renderAt (level + 1) item ++ renderItems (level + 1) rest ++
      newLine level ++ "]"
  | .object [] => "\x7b\x7d"
  | .object ((name, value) :: rest) =>
    "\x7b" ++ newLine (level + 1) ++ quote name ++ ": " ++ renderAt (level + 1) value ++
      renderFields (level + 1) rest ++ newLine level ++ "\x7d"

/-- How the items of an array after the first are written. -/
def renderItems (level : Nat) : List Json → String
  | [] => ""
  | item :: rest => "," ++ newLine level ++ renderAt level item ++ renderItems level rest

/-- How the fields of an object after the first are written. -/
def renderFields (level : Nat) : List (String × Json) → String
  | [] => ""
  | (name, value) :: rest =>
    "," ++ newLine level ++ quote name ++ ": " ++ renderAt level value ++ renderFields level rest

end

/-- How a value is written. -/
def render (value : Json) : String :=
  renderAt 0 value

end Json

end PhpTestIndex
