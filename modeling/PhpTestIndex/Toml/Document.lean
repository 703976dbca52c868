import PhpTestIndex.Toml.Draft
import PhpTestIndex.Toml.Scalar

/-! # Reading TOML documents

A document is a sequence of lines: a key with its value, the header of a table, a comment or
nothing. `Toml.readDocument` gives the fields of a document, or the fault at which reading stops if
it is not well formed.
-/

namespace PhpTestIndex.Toml

/-! ### Blanks and comments -/

/-- Drop blanks. -/
def dropBlanks (chars : List Char) : List Char :=
  chars.dropWhile fun c => c == ' ' || c == '\t'

/-- Drop a comment, if one stands here. -/
def dropComment : List Char → List Char
  | '#' :: rest => rest.dropWhile fun c => !isForbidden c
  | chars => chars

/-- Drop the end of a line. -/
def dropLineEnd : List Char → Except Fault (List Char)
  | [] => .ok []
  | '\n' :: rest => .ok rest
  | '\r' :: '\n' :: rest => .ok rest
  | rest => .error { rest }

/-- Drop what is left of a line: blanks and a comment. -/
def dropLine (chars : List Char) : Except Fault (List Char) :=
  (dropLineEnd (dropComment (dropBlanks chars))).mapError fun fault =>
    (fault.expecting ["newline", "`#`"]).final

/-- Drop blanks, line breaks and comments; inside a comment, only what follows a line break. -/
def dropSpace : Bool → List Char → Except Fault (List Char)
  | _, '\n' :: rest => dropSpace false rest
  | _, '\r' :: '\n' :: rest => dropSpace false rest
  | _, '\r' :: rest => .error { rest }
  | true, [] => .error { rest := [] }
  | true, c :: rest => if isForbidden c then .error { rest := c :: rest } else dropSpace true rest
  | false, ' ' :: rest => dropSpace false rest
  | false, '\t' :: rest => dropSpace false rest
  | false, '#' :: rest => dropSpace true rest
  | false, rest => .ok rest

/-! ### Keys -/

/-- A character of a key that stands without quotes. -/
def isKeyCharacter (c : Char) : Bool :=
  c.isAlphanum || c == '_' || c == '-'

/-- Read one part of a key. -/
def readName (chars : List Char) : Reading String :=
  match chars.takeWhile isKeyCharacter with
  | [] => (readShortText chars).map fun (text, rest) => (String.ofList text, rest)
  | name => .ok (String.ofList name, chars.drop name.length)

/-- Read one part of a key with the blanks around it. -/
def readKeyPart (chars : List Char) : Reading String :=
  (readName (dropBlanks chars)).map fun (name, rest) => (name, dropBlanks rest)

/-- So many lists and tables may not stand in each other, and a key may not have so many parts. -/
def depthLimit : Nat :=
  80

/-- Read a key of one or several parts. -/
def readKey (chars : List Char) : Except Fault (List String × List Char) := do
  let (key, rest) ← called "key" (readSeparated '.' readKeyPart (chars.length + 1) chars)
  if key.length < depthLimit then return (key, rest)
  else throw { rest := chars, cause := some .tooDeep }

/-- Read a key with its value.  After a key, nothing else is tried. -/
def readField (readValue : List Char → Except Fault (Toml × List Char)) (chars : List Char) :
    Except Fault ((List String × Toml) × List Char) := do
  let (key, rest) ← readKey chars
  insist do
    let rest ← (readSign '=' rest).mapError (Fault.expecting ["`.`", "`=`"])
    let (value, rest) ← readValue (dropBlanks rest)
    return ((key, value), rest)

/-! ### Values -/

/-- Read a list after its opening bracket; a comma may follow the last item. -/
def readArray (readValue : List Char → Except Fault (Toml × List Char)) (chars : List Char) :
    Except Fault (Toml × List Char) :=
  insist do
    let (items, rest) ← orTry (readSeparated ',' readItem (chars.length + 1) chars) (.ok ([], chars))
    let rest := if items.isEmpty then rest else (Text.after? [','] rest).getD rest
    let rest ← dropSpace false rest
    let rest ← called "array" ((readSign ']' rest).mapError (Fault.expecting ["`]`"]))
    return (.array items, rest)
where
  /-- Read an item with the blanks, line breaks and comments around it. -/
  readItem (chars : List Char) : Except Fault (Toml × List Char) := do
    let start ← dropSpace false chars
    let (item, rest) ← readValue start
    let rest ← dropSpace false rest
    return (item, rest)

/-- Read a table on one line after its opening brace. -/
def readInlineTable (readValue : List Char → Except Fault (Toml × List Char)) (chars : List Char) :
    Except Fault (Toml × List Char) :=
  insist do
    let (entries, rest) ← orTry (readSeparated ',' readEntry (chars.length + 1) chars)
      (.ok ([], chars))
    let fields ← (Fields.ofEntries [] entries).mapError fun clash =>
      { rest := chars, cause := some (.clash clash) }
    let rest ← called "inline table"
      ((readSign '\x7d' (dropBlanks rest)).mapError (Fault.expecting ["`\x7d`"]))
    return (.table (finishFields fields), rest)
where
  /-- Read a key with its value and the blanks after it. -/
  readEntry (chars : List Char) : Reading (List String × Toml) :=
    (readField readValue chars).map fun (entry, rest) => (entry, dropBlanks rest)

/-- Read a value in which only so many lists and tables stand in each other. -/
def readValue : Nat → List Char → Except Fault (Toml × List Char)
  | 0, chars =>
    match chars with
    | '[' :: _ => .error { rest := chars, cause := some .tooDeep }
    | '\x7b' :: _ => .error { rest := chars, cause := some .tooDeep }
    | chars => readScalar chars
  | depth + 1, chars =>
    match chars with
    | '[' :: rest => readArray (readValue depth) rest
    | '\x7b' :: rest => readInlineTable (readValue depth) rest
    | chars => readScalar chars

/-! ### Documents -/

/-- What is read of a document: its fields, and the header of the table that is open. -/
structure Progress where
  fields : Fields
  header : List String

/-- Go on with other fields and a header, unless there is a clash; `start` is the text that begins
with its cause. -/
def advance (start : List Char) (header : List String) (fields : Except Clash Fields) :
    Except Fault Progress :=
  match fields with
  | .ok fields => .ok ⟨fields, header⟩
  | .error clash => .error { rest := start, cause := some (.clash clash), isFinal := true }

/-- Read a header up to the end of its line. -/
def readHeaderLine (progress : Progress) (chars : List Char) :
    Except Fault (Progress × List Char) :=
  called "table header" <|
    match chars with
    | '[' :: '[' :: rest => insist do
      let (path, rest) ← readKey rest
      let rest ← (readSign ']' rest >>= readSign ']').mapError fun _ =>
        { rest, expected := ["`.`", "`]]`"] }
      let rest ← dropLine rest
      let progress ← advance chars path (progress.fields.append path)
      return (progress, rest)
    | '[' :: c :: rest => insist do
      let (path, rest) ← readKey (c :: rest)
      let rest ← (readSign ']' rest).mapError (Fault.expecting ["`.`", "`]`"])
      let rest ← dropLine rest
      let progress ← advance chars path (progress.fields.declare path)
      return (progress, rest)
    | chars => .error { rest := chars, isFinal := true }

/-- Read a key with its value up to the end of their line. -/
def readFieldLine (progress : Progress) (chars : List Char) :
    Except Fault (Progress × List Char) := do
  let ((key, value), rest) ← insist (readField (readValue (depthLimit - 1)) chars)
  let rest ← dropLine rest
  let progress ← advance chars progress.header
    (progress.fields.assignIn progress.header key value)
  return (progress, rest)

/-- Read the lines that are left. -/
def readLines : Nat → Progress → List Char → Except Fault Progress
  | 0, _, chars => .error { rest := chars }
  | fuel + 1, progress, chars =>
    match dropBlanks chars with
    | [] => .ok progress
    | '\n' :: rest => readLines fuel progress rest
    | '\r' :: rest =>
      match rest with
      | '\n' :: rest => readLines fuel progress rest
      | rest => .error { rest := '\r' :: rest }
    | '#' :: rest => do
      let rest ← insist (dropLineEnd (dropComment ('#' :: rest)))
      readLines fuel progress rest
    | '[' :: rest => do
      let (progress, rest) ← readHeaderLine progress ('[' :: rest)
      readLines fuel progress rest
    | chars => do
      let (progress, rest) ← readFieldLine progress chars
      readLines fuel progress rest

/-- Read a document. -/
def readDocument (text : List Char) : Except Fault (List (String × Toml)) :=
  let body := (Text.after? ['\uFEFF'] text).getD text
  (readLines (body.length + 1) ⟨[], []⟩ body).map fun progress => finishFields progress.fields

end PhpTestIndex.Toml
