/-!
# Blank characters

White space as text tools understand it: the characters that separate words.  Trimming a text and
taking its first word are defined on lists of characters.
-/

namespace PhpTestIndex.Text

/-- A white-space character of any script. -/
def isBlank (c : Char) : Bool :=
  (0x09 ≤ c.toNat && c.toNat ≤ 0x0D) || c == ' ' || c.toNat == 0x85 || c.toNat == 0xA0 ||
  c.toNat == 0x1680 || (0x2000 ≤ c.toNat && c.toNat ≤ 0x200A) || c.toNat == 0x2028 ||
  c.toNat == 0x2029 || c.toNat == 0x202F || c.toNat == 0x205F || c.toNat == 0x3000

/-- Drop the characters at the end that satisfy `p`. -/
def dropEndWhile (p : Char → Bool) (chars : List Char) : List Char :=
  (chars.reverse.dropWhile p).reverse

/-- Drop blank characters at the start. -/
def trimStart (chars : List Char) : List Char :=
  chars.dropWhile isBlank

/-- Drop blank characters at the end. -/
def trimEnd (chars : List Char) : List Char :=
  dropEndWhile isBlank chars

/-- Drop blank characters at both ends. -/
def trim (chars : List Char) : List Char :=
  trimEnd (trimStart chars)

/-- The first word of a text, if it has any character that is not blank. -/
def firstWord? (chars : List Char) : Option (List Char) :=
  match (trimStart chars).takeWhile fun c => !isBlank c with
  | [] => none
  | word => some word

end PhpTestIndex.Text
