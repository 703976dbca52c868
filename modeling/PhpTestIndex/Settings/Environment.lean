import PhpTestIndex.Settings.Value
import PhpTestIndex.Text.Blank
import PhpTestIndex.Toml.Number
import PhpTestIndex.Toml.Text

/-! # Settings from the environment

A variable whose name begins with `PHPTEST_` sets a value.  The rest of its name in lower case is
the key, and two underscores separate the parts of a key.  The value is a truth value, a number, a
list in brackets, a table in braces, a quoted text or character, or a bare text; what cannot be
read as one of these is taken as text altogether.
-/

namespace PhpTestIndex.Environment

/-- A blank between the parts of a value. -/
def isSpace (c : Char) : Bool :=
  c == ' ' || c == '\t' || c == '\n' || c == '\x0c' || c == '\r'

/-- Drop blanks. -/
def dropSpace (chars : List Char) : List Char :=
  chars.dropWhile isSpace

/-- A character that separates values. -/
def isSeparator (c : Char) : Bool :=
  c == ',' || c == '\x7b' || c == '\x7d' || c == '[' || c == ']'

/-- A character of a key in a table. -/
def isKeyCharacter (c : Char) : Bool :=
  c.isAlphanum || c == '_' || c == '-'

/-- The number that some digits mean, if there are digits and nothing else. -/
def digits? (chars : List Char) : Option Nat :=
  if !chars.isEmpty && chars.all Char.isDigit then some (Text.digitsValue 10 chars) else none

/-- A number with a point, in plain digits. -/
def float? (chars : List Char) : Option String :=
  let (isNegative, body) := Toml.unsigned chars
  let isMark (c : Char) : Bool := c == 'e' || c == 'E'
  let mantissa := body.takeWhile fun c => !isMark c
  let tail := body.dropWhile fun c => !isMark c
  let whole := mantissa.takeWhile fun c => c != '.'
  let exponent? : Option Int :=
    match tail with
    | [] => some 0
    | _ :: exponent =>
      let (isBelow, digits) := Toml.unsigned exponent
      (digits? digits).map fun value => if isBelow then -(value : Int) else value
  match exponent?, mantissa.dropWhile fun c => c != '.' with
  | some exponent, '.' :: fraction =>
    if (whole ++ fraction).isEmpty || !(whole ++ fraction).all Char.isDigit then none
    else some (Text.plainDecimal isNegative whole fraction exponent)
  | _, _ => none

/-- A whole number. -/
def integer? (chars : List Char) : Option Scalar :=
  match chars with
  | '-' :: rest =>
    match digits? rest with
    | some value =>
      if Int64.minValue.toInt ≤ -(value : Int) then some (.signed (-(value : Int))) else none
    | none => none
  | chars =>
    match digits? ((Text.after? ['+'] chars).getD chars) with
    | some value => if value < UInt64.size then some (.unsigned value) else none
    | none => none

/-- A text that stands without quotes. -/
def bare (chars : List Char) : Scalar :=
  let number : Option Scalar :=
    if chars.contains '.' then ((float? chars).map Scalar.float).or (integer? chars)
    else integer? chars
  number.getD (.text (String.ofList chars))

/-- A value without parts that stands in the environment. -/
def plain (value : Scalar) : Setting :=
  .scalar .environment value

/-- Read the key of a field with the sign of equality after it. -/
def key? (chars : List Char) : Option (String × List Char) :=
  let chars := dropSpace chars
  let name? : Option (List Char × List Char) :=
    if chars.head? = some '\x22' then (Toml.readShortText chars).toOption
    else
      match chars.takeWhile isKeyCharacter with
      | [] => none
      | name => some (name, chars.drop name.length)
  match name? with
  | none => none
  | some (name, rest) =>
    match dropSpace rest with
    | '=' :: rest => some (String.ofList name, rest)
    | _ => none

mutual

/-- Read a value with the blanks around it. -/
def value? : Nat → List Char → Option (Setting × List Char)
  | 0, _ => none
  | fuel + 1, chars =>
    let chars := dropSpace chars
    match Text.after? "true".toList chars, Text.after? "false".toList chars, chars with
    | some rest, _, _ => some (plain (.bool true), dropSpace rest)
    | none, some rest, _ => some (plain (.bool false), dropSpace rest)
    | none, none, '\x7b' :: rest =>
      (fields? fuel [] rest).map fun (fields, rest) => (.table .environment fields, dropSpace rest)
    | none, none, '[' :: rest =>
      (items? fuel rest).map fun (items, rest) => (.list .environment items, dropSpace rest)
    | none, none, '\x22' :: rest =>
      (Toml.readShortText ('\x22' :: rest)).toOption.map fun (text, rest) =>
        (plain (.text (String.ofList text)), dropSpace rest)
    | none, none, '\'' :: rest =>
      match rest with
      | c :: '\'' :: rest => some (plain (.character c), dropSpace rest)
      | _ => none
    | none, none, chars =>
      let word := chars.takeWhile fun c => !isSeparator c
      some (plain (bare (Text.trim word)), chars.drop word.length)

/-- Read the items of a list up to its closing bracket. -/
def items? : Nat → List Char → Option (List Setting × List Char)
  | 0, _ => none
  | _ + 1, ']' :: rest => some ([], rest)
  | fuel + 1, chars =>
    match value? fuel chars with
    | some (item, ',' :: rest) => (items? fuel rest).map fun (items, rest) => (item :: items, rest)
    | some (item, ']' :: rest) => some ([item], rest)
    | _ => none

/-- Read the fields of a table up to its closing brace. -/
def fields? : Nat → List (String × Setting) → List Char →
    Option (List (String × Setting) × List Char)
  | 0, _, _ => none
  | _ + 1, fields, '\x7d' :: rest => some (fields, rest)
  | fuel + 1, fields, chars =>
    match key? chars with
    | none => none
    | some (name, rest) =>
      match value? fuel rest with
      | some (value, ',' :: rest) => fields? fuel (Setting.setField name value fields) rest
      | some (value, '\x7d' :: rest) => some (Setting.setField name value fields, rest)
      | _ => none

end

/-- The value of a variable. -/
def valueOf (text : String) : Setting :=
  let chars := text.toList
  match value? (2 * chars.length + 2) chars with
  | some (value, []) => value
  | _ => plain (.text text)

/-- The parts of the key that a name sets, after `PHPTEST_`; the part after an empty one does not
count. -/
def keyOf? (name : String) : Option (List String) :=
  let name := Text.trim name.toList
  let start := "PHPTEST_".toList
  if (name.take start.length).map Char.toUpper = start then
    match Text.trim (name.drop start.length) with
    | [] => none
    | rest => some (parts (rest.map Char.toLower))
  else none
where
  /-- Cut a name at dots and at two underscores. -/
  parts (name : List Char) : List String :=
    (((Text.split '.' (dotted name)).takeWhile fun part => !part.isEmpty)).map String.ofList
  /-- Write a dot for two underscores. -/
  dotted : List Char → List Char
    | '_' :: '_' :: rest => '.' :: dotted rest
    | c :: rest => c :: dotted rest
    | [] => []

/-- A value under a key of several parts. -/
def nest (value : Setting) : List String → Setting
  | [] => value
  | part :: key => .table .environment [(part, nest value key)]

/-- The fields that the variables of the environment set, a later variable over an earlier one. -/
def settings (environment : List (String × String)) : List (String × Setting) :=
  environment.foldl (fun fields (name, text) =>
    match (keyOf? name).map (nest (valueOf text)) with
    | some (.table _ later) => Setting.mergeFields fields later
    | _ => fields) []

end PhpTestIndex.Environment
