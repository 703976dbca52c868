import PhpTestIndex.Toml.DateTime
import PhpTestIndex.Toml.Number
import PhpTestIndex.Toml.Text

/-!
# Scalars in TOML documents

How a value without parts is read.  Its first character tells what it may be; where this is nothing
at all, a text is missing.
-/

namespace PhpTestIndex.Toml

/-- What is said where no value begins. -/
def noValue (rest : List Char) : Fault :=
  { rest, reading := some "string", expected := ["`\"`", "`'`"] }

/-- Read a word that means a value. -/
def readWord (word : String) (value : Toml) (chars : List Char) : Reading Toml :=
  match Text.after? word.toList chars with
  | some rest => .ok (value, rest)
  | none => .error (noValue chars)

/-- Read a number or a date. -/
def readNumber (chars : List Char) : Reading Toml :=
  orTry (orTry (readDateTime chars) (readFloat chars)) (readInteger chars)

/-- Read a value that has no parts. -/
def readScalar : List Char → Reading Toml
  | [] => .error { rest := [] }
  | c :: rest =>
    if c = '\x22' ∨ c = '\'' then
      (readText (c :: rest)).map fun (text, rest) => (.string (String.ofList text), rest)
    else if c.isDigit ∨ c = '+' ∨ c = '-' then readNumber (c :: rest)
    else if c = '_' then
      (readInteger (c :: rest)).mapError (Fault.expecting ["leading digit"])
    else if c = '.' then
      (readFloat (c :: rest)).mapError (Fault.expecting ["leading digit"])
    else if c = 't' then insist (readWord "true" (.bool true) (c :: rest))
    else if c = 'f' then insist (readWord "false" (.bool false) (c :: rest))
    else if c = 'i' then readWord "inf" (.float "inf") (c :: rest)
    else if c = 'n' then readWord "nan" (.float "NaN") (c :: rest)
    else .error (noValue (c :: rest))

end PhpTestIndex.Toml
