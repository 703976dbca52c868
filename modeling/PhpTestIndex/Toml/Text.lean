import PhpTestIndex.Text.Decimal
import PhpTestIndex.Toml.Fault

/-!
# Texts in TOML documents

How texts in quotes are read: between double quotes with escape sequences, between single quotes
without them, and between triple quotes over several lines.
-/

namespace PhpTestIndex.Toml

/-- A character that no text may contain as it is; line breaks are told apart by the callers. -/
def isForbidden (c : Char) : Bool :=
  (c.toNat < 0x20 && c != '\t') || c.toNat == 0x7F

/-- A hexadecimal digit. -/
def isHexDigit (c : Char) : Bool :=
  c.isDigit || ('a' ≤ c && c ≤ 'f') || ('A' ≤ c && c ≤ 'F')

/-- Read the character with a code point that is written in some number of hexadecimal digits. -/
def readCodePoint (name : String) (count : Nat) (chars : List Char) : Reading Char :=
  let digits := chars.take count
  let value := Text.digitsValue 16 digits
  if digits.length < count || !digits.all isHexDigit then
    .error { rest := chars, reading := some name, isFinal := true }
  else if value.isValidChar then .ok (Char.ofNat value, chars.drop count)
  else .error { rest := chars, reading := some name, cause := some .outOfRange, isFinal := true }

/-- Read what an escape sequence stands for, without its backslash.  The name of an unknown sequence
counts as read if it is a single byte. -/
def readEscaped : List Char → Reading Char
  | 'b' :: rest => .ok ('\x08', rest)
  | 't' :: rest => .ok ('\t', rest)
  | 'n' :: rest => .ok ('\n', rest)
  | 'f' :: rest => .ok ('\x0c', rest)
  | 'r' :: rest => .ok ('\r', rest)
  | '\x22' :: rest => .ok ('\x22', rest)
  | '\\' :: rest => .ok ('\\', rest)
  | 'u' :: rest => readCodePoint "unicode 4-digit hex code" 4 rest
  | 'U' :: rest => readCodePoint "unicode 8-digit hex code" 8 rest
  | c :: rest =>
    .error {
      rest := if c.utf8Size = 1 then rest else c :: rest
      reading := some "escape sequence"
      expected := ["`b`", "`f`", "`n`", "`r`", "`t`", "`u`", "`U`", "`\\`", "`\"`"]
      isFinal := true }
  | [] => .error { rest := [] }

/-- Put a character before a text that is read. -/
def prepend (c : Char) (read : Reading (List Char)) : Reading (List Char) :=
  read.map fun (text, rest) => (c :: text, rest)

/-- A text of some style cannot go on and is not closed. -/
def unclosed (style : String) (rest : List Char) : Reading (List Char) :=
  .error { rest, reading := some style, isFinal := true }

/-- Read what is left of a text in double quotes. -/
def readBasic : Nat → List Char → Reading (List Char)
  | 0, chars => unclosed "basic string" chars
  | _ + 1, [] => unclosed "basic string" []
  | fuel + 1, c :: rest =>
    if c = '\x22' then .ok ([], rest)
    else if c = '\\' && !rest.isEmpty then
      match readEscaped rest with
      | .error fault => .error fault
      | .ok (meant, rest) => prepend meant (readBasic fuel rest)
    else if c = '\\' || isForbidden c then unclosed "basic string" (c :: rest)
    else prepend c (readBasic fuel rest)

/-- Read what is left of a text in single quotes. -/
def readLiteral : List Char → Reading (List Char)
  | [] => unclosed "literal string" []
  | c :: rest =>
    if c = '\'' then .ok ([], rest)
    else if isForbidden c then unclosed "literal string" (c :: rest)
    else prepend c (readLiteral rest)

/-- The end of a text in triple quotes: the quotes that still belong to it, and the text after
it. -/
def tripleEnd? (quote : Char) (chars : List Char) : Option (List Char × List Char) :=
  let run := (chars.takeWhile fun c => c == quote).length
  if run < 3 then none
  else
    let count := min run 5
    some (List.replicate (count - 3) quote, chars.drop count)

/-- A line break begins the text. -/
def startsWithBreak : List Char → Bool
  | '\n' :: _ => true
  | '\r' :: '\n' :: _ => true
  | _ => false

/-- Drop blanks and line breaks. -/
def dropBreaks : List Char → List Char
  | ' ' :: rest => dropBreaks rest
  | '\t' :: rest => dropBreaks rest
  | '\n' :: rest => dropBreaks rest
  | '\r' :: '\n' :: rest => dropBreaks rest
  | rest => rest

/-- Read what is left of a text in three double quotes; a backslash at the end of a line drops the
break and the blanks after it. -/
def readLongBasic : Nat → List Char → Reading (List Char)
  | 0, chars => unclosed "multiline basic string" chars
  | _ + 1, [] => unclosed "multiline basic string" []
  | fuel + 1, c :: rest =>
    match tripleEnd? '\x22' (c :: rest) with
    | some finish => .ok finish
    | none =>
      if c = '\\' && !rest.isEmpty then
        let line := rest.dropWhile fun c => c == ' ' || c == '\t'
        if startsWithBreak line then readLongBasic fuel (dropBreaks line)
        else
          match readEscaped rest with
          | .error fault => .error fault
          | .ok (meant, rest) => prepend meant (readLongBasic fuel rest)
      else if c = '\r' && rest.head? = some '\n' then readLongBasic fuel rest
      else if c = '\\' || (c != '\n' && isForbidden c) || (c :: rest).all (· == '\x22') then
        unclosed "multiline basic string" (c :: rest)
      else prepend c (readLongBasic fuel rest)

/-- Something may follow single quotes in a text in three of them: a character that it can have. -/
def continuesLiteral (chars : List Char) : Bool :=
  startsWithBreak chars || chars.head?.any fun c => !isForbidden c

/-- Read what is left of a text in three single quotes. -/
def readLongLiteral : List Char → Reading (List Char)
  | [] => unclosed "multiline literal string" []
  | c :: rest =>
    match tripleEnd? '\'' (c :: rest) with
    | some finish => .ok finish
    | none =>
      if c = '\r' && rest.head? = some '\n' then readLongLiteral rest
      else if (c != '\n' && isForbidden c) ||
          (c = '\'' && !continuesLiteral (rest.dropWhile (· == '\''))) then
        unclosed "multiline literal string" (c :: rest)
      else prepend c (readLongLiteral rest)

/-- A line break directly after the opening quotes does not count. -/
def dropFirstBreak : List Char → List Char
  | '\n' :: rest => rest
  | '\r' :: '\n' :: rest => rest
  | rest => rest

/-- Read a text in single or double quotes that stands on one line. -/
def readShortText : List Char → Reading (List Char)
  | '\x22' :: rest => readBasic (rest.length + 1) rest
  | '\'' :: rest => readLiteral rest
  | chars => .error { rest := chars }

/-- Read a text in quotes. -/
def readText : List Char → Reading (List Char)
  | '\x22' :: '\x22' :: '\x22' :: rest =>
    let rest := dropFirstBreak rest
    readLongBasic (rest.length + 1) rest
  | '\'' :: '\'' :: '\'' :: rest => readLongLiteral (dropFirstBreak rest)
  | chars => readShortText chars

end PhpTestIndex.Toml
