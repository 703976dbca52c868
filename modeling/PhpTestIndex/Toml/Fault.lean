import PhpTestIndex.Source.Position
import PhpTestIndex.Text.Piece

/-!
# Faults in TOML documents

Reading a part of a document gives what has been read and what is left of the text, or a
`Toml.Fault`: what is left where reading stopped, and what was being read there.  A fault is final if
nothing else is tried in place of what was being read.

What is said about a fault shows the line on which reading stopped, with a mark below the place.
-/

namespace PhpTestIndex.Toml

/-- A key does not fit to what a document has already. -/
inductive Clash
  /-- The key is set already, in a table if it is told in which. -/
  | duplicate (key : String) (table : Option (List String))
  /-- A part of the key is set to a value that is no table. -/
  | occupied (key : List String) (kind : String)
deriving DecidableEq, Repr

/-- What is said about a key that does not fit. -/
def Clash.message : Clash → String
  | duplicate key none => "duplicate key `" ++ key ++ "`"
  | duplicate key (some []) => "duplicate key `" ++ key ++ "` in document root"
  | duplicate key (some table) =>
    "duplicate key `" ++ key ++ "` in table `" ++ Text.join "." table ++ "`"
  | occupied key kind =>
    "dotted key `" ++ Text.join "." key ++ "` attempted to extend non-table type (" ++ kind ++ ")"

/-- Why something is not read that is written as it has to be. -/
inductive Cause
  | outOfRange
  | tooLarge
  | tooSmall
  /-- Too many lists or tables stand in each other, or a key has too many parts. -/
  | tooDeep
  | clash (clash : Clash)
deriving DecidableEq, Repr

/-- What is said about a cause. -/
def Cause.message : Cause → String
  | outOfRange => "value is out of range"
  | tooLarge => "number too large to fit in target type"
  | tooSmall => "number too small to fit in target type"
  | tooDeep => "recursion limit exceeded"
  | clash fault => fault.message

/-- Why a text is not read any further. -/
structure Fault where
  /-- What is left of the text where reading stopped. -/
  rest : List Char
  /-- What was being read. -/
  reading : Option String := none
  /-- What may stand where reading stopped. -/
  expected : List String := []
  cause : Option Cause := none
  /-- Nothing else is tried in place of what was being read. -/
  isFinal : Bool := false
deriving DecidableEq, Repr

/-- What has been read with what is left of the text, or why it is not read. -/
abbrev Reading (α : Type) := Except Fault (α × List Char)

namespace Fault

/-- Say what was being read, unless it is said of a part of it. -/
def within (name : String) (fault : Fault) : Fault :=
  { fault with reading := fault.reading.or (some name) }

/-- Say what else may stand where reading stopped. -/
def expecting (signs : List String) (fault : Fault) : Fault :=
  { fault with expected := fault.expected ++ signs }

/-- Try nothing else. -/
def final (fault : Fault) : Fault :=
  { fault with isFinal := true }

/-- What is wrong. -/
def message (fault : Fault) : String :=
  Text.join "\n" ((fault.reading.map fun name => "invalid " ++ name).toList ++
    (if fault.expected.isEmpty then [] else ["expected " ++ Text.join ", " fault.expected]) ++
    (fault.cause.map Cause.message).toList)

/-- What precedes the character at which reading stopped, or the last one if none is left. -/
def lead (text : List Char) (fault : Fault) : List Char :=
  if fault.rest.isEmpty then text.dropLast else text.take (text.length - fault.rest.length)

/-- The number of the line on which reading stopped, from zero. -/
def line (text : List Char) (fault : Fault) : Nat :=
  (fault.lead text).count '\n'

/-- The number of the column in which reading stopped, from zero; the end is one column after the
last character.  Before a character of several bytes, bytes are counted. -/
def column (text : List Char) (fault : Fault) : Nat :=
  let start := Text.afterLast '\n' (fault.lead text)
  match fault.rest with
  | [] => if text.isEmpty then 0 else start.length + 1
  | c :: _ => if c.utf8Size = 1 then start.length else byteLength start

/-- What is said about a fault in a text. -/
def shown (text : List Char) (fault : Fault) : String :=
  let column := fault.column text
  let number := toString (fault.line text + 1)
  let content := (Text.lines text).getD (fault.line text) []
  let margin := String.ofList (List.replicate (number.length + 1) ' ') ++ "|"
  let marks := max 1 (min (byteLength (fault.rest.take 1)) (byteLength content - column))
  "TOML parse error at line " ++ number ++ ", column " ++ toString (column + 1) ++ "\n" ++
    margin ++ "\n" ++
    number ++ " | " ++ String.ofList content ++ "\n" ++
    margin ++ String.ofList (List.replicate (column + 1) ' ' ++ List.replicate marks '^') ++ "\n" ++
    fault.message ++ "\n"

end Fault

variable {α : Type}

/-- Try something else if a text is not read, unless the fault is final. -/
def orTry (first second : Except Fault α) : Except Fault α :=
  match first with
  | .error fault => if fault.isFinal then .error fault else second
  | .ok read => .ok read

/-- Try nothing else if a text is not read. -/
def insist (read : Except Fault α) : Except Fault α :=
  read.mapError Fault.final

/-- Say what is read. -/
def called (name : String) (read : Except Fault α) : Except Fault α :=
  read.mapError (Fault.within name)

section

variable {β ε : Type} (read : α)

@[simp] theorem ok_bind (next : α → Except ε β) :
    ((.ok read : Except ε α) >>= next) = next read :=
  rfl

@[simp] theorem map_ok (change : α → β) :
    (.ok read : Except ε α).map change = .ok (change read) :=
  rfl

@[simp] theorem orTry_ok (second : Except Fault α) : orTry (.ok read) second = .ok read :=
  rfl

@[simp] theorem insist_ok : insist (.ok read) = .ok read :=
  rfl

end

/-- Read a sign. -/
def readSign (sign : Char) : List Char → Except Fault (List Char)
  | c :: rest => if c = sign then .ok rest else .error { rest := c :: rest }
  | [] => .error { rest := [] }

/-- Read parts with a sign between each two; a sign after the last part is left. -/
def readSeparated (sign : Char) (readPart : List Char → Reading α) :
    Nat → List Char → Except Fault (List α × List Char)
  | 0, chars => .error { rest := chars }
  | fuel + 1, chars => do
    let (part, rest) ← readPart chars
    match rest with
    | c :: after =>
      if c = sign then
        let more := (readSeparated sign readPart fuel after).map fun (parts, rest) =>
          (part :: parts, rest)
        orTry more (.ok ([part], rest))
      else .ok ([part], rest)
    | [] => .ok ([part], [])

end PhpTestIndex.Toml
