import PhpTestIndex.Text.Piece

/-! # Lexemes of PHP

How far a lexeme reaches: each function here takes the text from the lexeme's first character on
and gives its length in characters.  A length of zero, or `none`, means that no such lexeme starts
there.
-/

namespace PhpTestIndex.Php.Lexeme

/-- A character between tokens. -/
def isSpace (c : Char) : Bool :=
  (0x09 ≤ c.toNat && c.toNat ≤ 0x0D) || c == ' ' || c.toNat == 0xA0 || c.toNat == 0x200B ||
  c.toNat == 0x2060 || c.toNat == 0xFEFF

/-- A character that a name may start with. -/
def isNameStart (c : Char) : Bool :=
  c.isAlpha || c == '_' || (0x80 ≤ c.toNat && !isSpace c)

/-- A character that a name may contain. -/
def isNameCharacter (c : Char) : Bool :=
  isNameStart c || c.isDigit

/-- The length of the longest start of a text in which every character satisfies `p`. -/
def spanLength (p : Char → Bool) (chars : List Char) : Nat :=
  (chars.takeWhile p).length

/-- The length of white space. -/
def spaces (chars : List Char) : Nat :=
  spanLength isSpace chars

/-- The length of a name. -/
def name : List Char → Nat
  | [] => 0
  | c :: rest => if isNameStart c then 1 + spanLength isNameCharacter rest else 0

/-- The text begins with `start`, whose letters are given in lower case. -/
def startsWithIgnoringCase (start : String) (chars : List Char) : Bool :=
  ((chars.take start.length).map Char.toLower) == start.toList

/-- The length of an opening tag. -/
def openingTag : List Char → Nat
  | '<' :: '?' :: rest =>
    if startsWithIgnoringCase "php" rest then 5
    else if rest.head? = some '=' then 3
    else 2
  | _ => 0

/-- The length of the text before the next opening tag. -/
def plainText : List Char → Nat
  | [] => 0
  | '<' :: '?' :: _ => 0
  | _ :: rest => 1 + plainText rest

/-- What is left of a line comment from some character on.  A closing tag and a line break end the
comment; a question mark hides the character after it, and one that stands before a line break takes
the line break into the comment. -/
def lineCommentRest : List Char → Nat
  | [] => 0
  | '?' :: c :: rest =>
    if c = '\n' then 2
    else if c = '\r' then if rest.head? = some '\n' then 3 else 0
    else if c = '>' || c.toNat = 0 then 0
    else 2 + lineCommentRest rest
  | c :: rest =>
    if c = '?' || c = '\n' || c = '\r' || c.toNat = 0 then 0 else 1 + lineCommentRest rest

/-- The length of a comment up to the end of its line. -/
def lineComment : List Char → Nat
  | '/' :: '/' :: rest => 2 + lineCommentRest rest
  | '#' :: c :: rest =>
    if c = '[' then 0
    else if c = '?' || c = '\n' || c = '\r' || c.toNat = 0 then 1
    else 2 + lineCommentRest rest
  | ['#'] => 1
  | _ => 0

/-- The length of a text up to and with the next `*/`. -/
def blockCommentRest : List Char → Option Nat
  | [] => none
  | '*' :: '/' :: _ => some 2
  | c :: rest => if c.toNat = 0 then none else (blockCommentRest rest).map (1 + ·)

/-- The length of a comment in `/*` and `*/`. -/
def blockComment : List Char → Option Nat
  | '/' :: '*' :: rest => (blockCommentRest rest).map (2 + ·)
  | _ => none

/-- Only white space and `//` comments are left, whatever stands in them. -/
def onlyCommentsLeft : Bool → List Char → Bool
  | _, [] => true
  | true, c :: rest => c.toNat != 0 && onlyCommentsLeft (c != '\n') rest
  | false, '/' :: '/' :: rest => onlyCommentsLeft true rest
  | false, c :: rest => isSpace c && onlyCommentsLeft false rest

/-- The length of a closing tag with the text after it and the next opening tag.  Where only white
space and line comments are left, the closing tag stands alone. -/
def interpolation : List Char → Nat
  | '?' :: '>' :: rest =>
    if onlyCommentsLeft false rest then 2
    else
      let length := plainText rest
      2 + length + openingTag (rest.drop length)
  | _ => 0

/-- What is left of a text up to and with the next single quote; a backslash hides the character
after it. -/
def singleQuotedRest : List Char → Option Nat
  | [] => none
  | '\\' :: c :: rest => if c.toNat = 0 then none else (singleQuotedRest rest).map (2 + ·)
  | c :: rest =>
    if c = '\'' then some 1
    else if c.toNat = 0 then none
    else (singleQuotedRest rest).map (1 + ·)

/-- The length of an optional `b` before a string. -/
def binaryMark : List Char → Nat
  | c :: next :: _ =>
    if (c = 'b' || c = 'B') && (next = '\'' || next = '\x22' || next = '<') then 1 else 0
  | _ => 0

/-- The length of a string in single quotes. -/
def singleQuoted (chars : List Char) : Option Nat :=
  let mark := binaryMark chars
  match chars.drop mark with
  | '\'' :: rest => (singleQuotedRest rest).map (mark + 1 + ·)
  | _ => none

/-- The length of the quote that opens an interpolated string. -/
def openingQuote (chars : List Char) : Nat :=
  let mark := binaryMark chars
  match chars.drop mark with
  | '\x22' :: _ => mark + 1
  | _ => 0

/-- The length of a line break. -/
def lineBreak : List Char → Nat
  | '\n' :: _ => 1
  | '\r' :: '\n' :: _ => 2
  | '\r' :: _ => 1
  | _ => 0

/-- The opening line of a text between two labels. -/
structure Opening where
  label : List Char
  /-- The label stands in single quotes: nothing in the text is replaced. -/
  isVerbatim : Bool
  length : Nat

/-- The opening line of a text between two labels. -/
def opening? (chars : List Char) : Option Opening :=
  let mark := binaryMark chars
  match chars.drop mark with
  | '<' :: '<' :: '<' :: rest =>
    let blanks := spanLength (fun c => c == ' ' || c == '\t') rest
    let rest := rest.drop blanks
    let quote := rest.takeWhile fun c => c == '\'' || c == '\x22'
    let isQuoted := !quote.isEmpty
    let rest := if isQuoted then rest.drop 1 else rest
    let length := name rest
    let label := rest.take length
    let rest := rest.drop length
    let closes := !isQuoted || rest.head? == quote.head?
    let rest := if isQuoted then rest.drop 1 else rest
    let newline := lineBreak rest
    if length = 0 || !closes || newline = 0 then none
    else some ⟨label, quote.head? == some '\'',
      mark + 3 + blanks + (if isQuoted then 2 else 0) + length + newline⟩
  | _ => none

/-- The length of blanks and a closing label at the start of a line. -/
def closingLabel (label : List Char) (line : List Char) : Nat :=
  let blanks := spanLength (fun c => c == ' ' || c == '\t') line
  let rest := line.drop blanks
  if label.isPrefixOf rest && !((rest.drop label.length).head?.any isNameCharacter) then
    blanks + label.length
  else 0

/-- The length of a verbatim text and its closing label, from the start of a line on. -/
def verbatimRest (label : List Char) : Bool → List Char → Option Nat
  | _, [] => none
  | atLineStart, c :: rest =>
    let closing := if atLineStart then closingLabel label (c :: rest) else 0
    if closing ≠ 0 then some closing
    else if c.toNat = 0 then none
    else (verbatimRest label (c = '\n') rest).map (1 + ·)

/-- The length of digits with single underscores between them. -/
def digits (isDigit : Char → Bool) : List Char → Nat
  | [] => 0
  | c :: rest => if isDigit c then 1 + tail rest else 0
where
  /-- The length of digits after a digit. -/
  tail : List Char → Nat
    | [] => 0
    | '_' :: c :: rest => if isDigit c then 2 + tail rest else 0
    | c :: rest => if isDigit c then 1 + tail rest else 0

/-- The length of an exponent. -/
def exponent : List Char → Nat
  | mark :: sign :: rest =>
    if mark.toLower != 'e' then 0
    else if sign = '+' || sign = '-' then
      match digits Char.isDigit rest with
      | 0 => 0
      | length => 2 + length
    else
      match digits Char.isDigit (sign :: rest) with
      | 0 => 0
      | length => 1 + length
  | _ => 0

/-- A digit to base eight. -/
def isOctalDigit (c : Char) : Bool :=
  '0' ≤ c && c ≤ '7'

/-- The length of a number to base ten, or to base eight after a zero. -/
def decimal (chars : List Char) : Nat :=
  let whole := digits Char.isDigit chars
  let rest := chars.drop whole
  let fraction := match rest with
    | '.' :: rest =>
      if digits Char.isDigit rest ≠ 0 then 1 + digits Char.isDigit rest
      else if whole ≠ 0 && rest.head? != some '.' && rest.head? != some '=' then 1
      else 0
    | _ => 0
  if whole + fraction = 0 then 0
  else
    let power := exponent (rest.drop fraction)
    if fraction + power = 0 && chars.head? = some '0' then digits isOctalDigit chars
    else whole + fraction + power

/-- The length of a number: digits with `_` between them, a fraction, an exponent, or digits to
another base after `0x`, `0b` or `0o`. -/
def number (chars : List Char) : Nat :=
  let based (isDigit : Char → Bool) (rest : List Char) : Nat :=
    match digits isDigit rest with
    | 0 => decimal chars
    | length => 2 + length
  match chars with
  | '0' :: mark :: rest =>
    match mark.toLower with
    | 'x' => based (fun c => c.isDigit || ('a' ≤ c.toLower && c.toLower ≤ 'f')) rest
    | 'b' => based (fun c => c == '0' || c == '1') rest
    | 'o' => based isOctalDigit rest
    | _ => decimal chars
  | chars => decimal chars

/-- The signs, longer ones before their beginnings. -/
def signs : List String :=
  ["===", "!==", "<=>", "**=", "...", "<<=", ">>=", "??=", "?->",
   "==", "!=", "<>", "<=", ">=", "&&", "||", "??", "++", "--", "+=", "-=", "*=", "/=", ".=", "%=",
   "&=", "|=", "^=", "->", "=>", "::", "<<", ">>", "**", "#[",
   ";", ",", "(", ")", "[", "]", "\x7b", "\x7d", "+", "-", "*", "/", "%", "=", "<", ">", ".", "!",
   "?", ":", "&", "|", "^", "~", "@", "$", "\\"]

/-- The sign at the start of a text. -/
def sign? (chars : List Char) : Option String :=
  signs.find? fun sign => sign.toList.isPrefixOf chars

/-- An interpolated expression opens here: a brace before a dollar, or a dollar before a brace. -/
def opensExpression : List Char → Bool
  | '\x7b' :: '$' :: _ => true
  | '$' :: '\x7b' :: _ => true
  | _ => false

/-- A simple variable opens here. -/
def opensVariable : List Char → Bool
  | '$' :: c :: _ => isNameStart c
  | _ => false

/-- The length of plain characters in a string that is ended by `quote`; between labels there is no
such character and the text is read line by line. -/
def stringPart (quote : Option Char) : List Char → Nat
  | [] => 0
  | '\\' :: c :: rest =>
    if c = '\\' || c = '$' || some c = quote then 2 + stringPart quote rest
    else 1 + stringPart quote (c :: rest)
  | c :: rest =>
    if some c = quote || opensExpression (c :: rest) || opensVariable (c :: rest) then 0
    else if quote.isNone && c = '\n' then 1
    else 1 + stringPart quote rest

/-- The length of an index in a string, without its brackets: a name, a number or a variable. -/
def stringIndex (chars : List Char) : Nat :=
  match chars with
  | '$' :: rest => if name rest = 0 then 0 else 1 + name rest
  | '-' :: rest => if spanLength Char.isDigit rest = 0 then 0 else 1 + spanLength Char.isDigit rest
  | _ => if name chars = 0 then spanLength Char.isDigit chars else name chars

/-- The length of a simple variable in a string, with its property or index; none if the bracket
after it holds no index. -/
def stringVariable (chars : List Char) : Option Nat :=
  let length := 1 + name (chars.drop 1)
  match chars.drop length with
  | '[' :: rest =>
    let before := spaces rest
    let index := stringIndex (rest.drop before)
    let after := spaces (rest.drop (before + index))
    if index ≠ 0 && (rest.drop (before + index + after)).head? = some ']' then
      some (length + 1 + before + index + after + 1)
    else none
  | '-' :: '>' :: rest => some (if name rest = 0 then length else length + 2 + name rest)
  | '?' :: '-' :: '>' :: rest => some (if name rest = 0 then length else length + 3 + name rest)
  | _ => some length

end PhpTestIndex.Php.Lexeme
