import PhpTestIndex.Text.Printable

/-!
# Quoted text

A text between double quotes in which every character can be told: quotes, backslashes and line
breaks are escaped, and a character that is not printable is written by its code point.
-/

namespace PhpTestIndex.Text

/-- The lower case hexadecimal digits of a number. -/
def hexDigits (n : Nat) : String :=
  String.ofList (Nat.toDigits 16 n)

/-- How a single character is written between double quotes. -/
def quoteCharacter (c : Char) : String :=
  match c with
  | '\x22' => "\\\""
  | '\\' => "\\\\"
  | '\t' => "\\t"
  | '\r' => "\\r"
  | '\n' => "\\n"
  | '\x00' => "\\0"
  | c => if isPrintable c then c.toString else "\\u\x7b" ++ hexDigits c.toNat ++ "\x7d"

/-- A character between single quotes; only its own quote and not the double one is escaped. -/
def quotedCharacter (c : Char) : String :=
  "'" ++ (if c = '\'' then "\\'" else if c = '\x22' then "\"" else quoteCharacter c) ++ "'"

/-- A text between double quotes. -/
def quoted (text : String) : String :=
  "\"" ++ String.join (text.toList.map quoteCharacter) ++ "\""

end PhpTestIndex.Text
