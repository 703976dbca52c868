import PhpTestIndex.Php.Lexeme
import PhpTestIndex.Php.Node

/-!
# Tokens of a PHP file

`Token.read` cuts a file into tokens.  What stands between two tokens, comments and the text outside
the tags, travels with the token that follows it, as nodes ready to be put into the tree.

Reading remembers which brackets and quotes are open: a closing brace may end an interpolated
expression, and a closing tag inside parentheses does not end a statement.
-/

namespace PhpTestIndex.Php

/-- What a token is. -/
inductive TokenKind
  /-- Text before the first opening tag. -/
  | text
  | openingTag
  /-- A name or a keyword. -/
  | word
  | number
  | sign
  /-- A string in single quotes. -/
  | plainString
  /-- A text between labels in which nothing is replaced. -/
  | verbatim
  /-- The start of a string with interpolation. -/
  | openingQuote
  | closingQuote
  /-- Characters, or a simple variable, inside a string. -/
  | stringPart
  /-- A character that starts no token. -/
  | invalid
  | endOfFile
deriving DecidableEq, Repr, Inhabited

/-- A token with what stands between it and the token before. -/
structure Token where
  kind : TokenKind
  /-- The text of a sign, and of a word in lower case. -/
  key : String
  start : Point
  stop : Point
  /-- Comments and text outside the tags since the token before. -/
  leading : List Node
  /-- A closing tag stands before the token and ends the statement before it. -/
  isAfterTag : Bool
deriving Inhabited, Repr

namespace Token

/-- A bracket or a quote that is open. -/
inductive Open
  | brace
  | group
  /-- A string that ends at a character. -/
  | quoted (quote : Char)
  /-- A text that ends at a label. -/
  | labelled (label : List Char) (atLineStart : Bool)
deriving DecidableEq, Repr

/-- What is left to read, and where it starts. -/
structure Cursor where
  rest : List Char
  point : Point

/-- The cursor after some characters. -/
def Cursor.skip (cursor : Cursor) (count : Nat) : Cursor :=
  ⟨cursor.rest.drop count, cursor.point.read (cursor.rest.take count)⟩

/-- What stands between two tokens. -/
structure Trivia where
  nodes : List Node
  hasTag : Bool
  after : Cursor

/-- The kind and the length of what stands at the start of a text between tokens; white space has no
kind. -/
def triviaLexeme (chars : List Char) : Option Kind × Nat :=
  match chars.head? with
  | some '/' => (some .comment, (Lexeme.blockComment chars).getD (Lexeme.lineComment chars))
  | some '#' => (some .comment, Lexeme.lineComment chars)
  | some '?' => (some .textInterpolation, Lexeme.interpolation chars)
  | _ => (none, Lexeme.spaces chars)

/-- Read what stands before the next token. -/
def readTrivia : Nat → Cursor → Trivia
  | 0, cursor => ⟨[], false, cursor⟩
  | fuel + 1, cursor =>
    let (kind, length) := triviaLexeme cursor.rest
    if length = 0 then ⟨[], false, cursor⟩
    else
      let after := cursor.skip length
      let later := readTrivia fuel after
      match kind with
      | none => later
      | some kind =>
        ⟨⟨kind, none, cursor.point, after.point, []⟩ :: later.nodes,
          later.hasTag || kind = .textInterpolation, later.after⟩

/-- A token in code: its kind, its key, its length and the brackets that are open after it. -/
structure Cut where
  kind : TokenKind
  key : String
  length : Nat
  opened : List Open

/-- The brackets that are open after a sign. -/
def openAfter (opened : List Open) (sign : String) : List Open :=
  if sign = "\x7b" then .brace :: opened
  else if sign = "(" || sign = "[" || sign = "#[" then .group :: opened
  else if sign = "\x7d" || sign = ")" || sign = "]" then opened.tail
  else opened

/-- The token at the start of a text in code. -/
def cutCode (opened : List Open) (chars : List Char) : Option Cut :=
  match Lexeme.singleQuoted chars with
  | some length => some ⟨.plainString, "", length, opened⟩
  | none =>
    match Lexeme.openingQuote chars with
    | length + 1 => some ⟨.openingQuote, "\"", length + 1, .quoted '\x22' :: opened⟩
    | 0 =>
      match Lexeme.opening? chars with
      | some opening =>
        if opening.isVerbatim then
          (Lexeme.verbatimRest opening.label true (chars.drop opening.length)).map fun length =>
            ⟨.verbatim, "", opening.length + length, opened⟩
        else some ⟨.openingQuote, "<<<", opening.length, .labelled opening.label true :: opened⟩
      | none =>
        match Lexeme.name chars with
        | length + 1 =>
          some ⟨.word, String.ofList ((chars.take (length + 1)).map Char.toLower), length + 1, opened⟩
        | 0 =>
          match Lexeme.number chars with
          | length + 1 => some ⟨.number, "", length + 1, opened⟩
          | 0 =>
            if chars.head? = some '\x60' then
              some ⟨.openingQuote, "`", 1, .quoted '\x60' :: opened⟩
            else
              (Lexeme.sign? chars).map fun sign =>
                ⟨.sign, sign, sign.length, openAfter opened sign⟩

/-- A stretch of plain characters in a string, or what interrupts them. -/
def cutPart (quote : Option Char) (inside : List Open) (chars : List Char) : Option Cut :=
  if Lexeme.opensExpression chars then
    match chars with
    | '\x7b' :: _ => some ⟨.sign, "\x7b", 1, .brace :: inside⟩
    | _ => some ⟨.sign, "$\x7b", 2, .brace :: inside⟩
  else if Lexeme.opensVariable chars then
    (Lexeme.stringVariable chars).map fun length => ⟨.stringPart, "", length, inside⟩
  else
    match Lexeme.stringPart quote chars with
    | 0 => none
    | length => some ⟨.stringPart, "", length, inside⟩

/-- The token at the start of a text in a string that ends at `quote`. -/
def cutQuoted (quote : Char) (opened : List Open) (chars : List Char) : Option Cut :=
  if chars.head? = some quote then some ⟨.closingQuote, "", 1, opened⟩
  else cutPart (some quote) (.quoted quote :: opened) chars

/-- The token at the start of a text that ends at `label`. -/
def cutLabelled (label : List Char) (atLineStart : Bool) (opened : List Open)
    (chars : List Char) : Option Cut :=
  match if atLineStart then Lexeme.closingLabel label chars else 0 with
  | length + 1 => some ⟨.closingQuote, "", length + 1, opened⟩
  | 0 =>
    (cutPart none (.labelled label false :: opened) chars).map fun cut =>
      if cut.kind = .stringPart && (chars.take cut.length).getLast? = some '\n' then
        ⟨cut.kind, cut.key, cut.length, .labelled label true :: opened⟩
      else cut

/-- The brackets and quotes admit a closing tag that ends a statement. -/
def tagEndsStatement (opened : List Open) : Bool :=
  opened.head? != some .group

/-- The token that ends the file; `last` is where the token before it ends. -/
def endOfFile (trivia : Trivia) (opened : List Open) (last : Point) : Token :=
  ⟨.endOfFile, "", last, trivia.after.point, trivia.nodes,
    trivia.hasTag && tagEndsStatement opened⟩

/-- The open brackets and quotes leave the reader in code, and not in a string. -/
def isCode : List Open → Bool
  | .quoted _ :: _ => false
  | .labelled _ _ :: _ => false
  | _ => true

/-- The token at the start of a text, with what is open before it. -/
def cut? (opened : List Open) (chars : List Char) : Option Cut :=
  match opened with
  | .quoted quote :: outer => cutQuoted quote outer chars
  | .labelled label atLineStart :: outer => cutLabelled label atLineStart outer chars
  | opened => cutCode opened chars

/-- Read the tokens that are left. -/
def readFrom : Nat → List Open → Point → Cursor → List Token
  | 0, opened, last, cursor => [endOfFile ⟨[], false, cursor⟩ opened last]
  | fuel + 1, opened, last, cursor =>
    let trivia := if isCode opened then readTrivia (fuel + 1) cursor else ⟨[], false, cursor⟩
    let here := trivia.after
    if here.rest.isEmpty && isCode opened then [endOfFile trivia opened last]
    else
      match cut? opened here.rest with
      | none =>
        [⟨.invalid, "", here.point, here.point, trivia.nodes, false⟩,
          endOfFile ⟨[], false, here.skip here.rest.length⟩ [] here.point]
      | some cut =>
        let after := here.skip cut.length
        ⟨cut.kind, cut.key, here.point, after.point, trivia.nodes,
          trivia.hasTag && tagEndsStatement opened⟩ ::
          readFrom fuel cut.opened after.point after

/-- The token of a stretch of characters outside the tags. -/
def ofStretch (kind : TokenKind) (start stop : Point) : Token :=
  ⟨kind, "", start, stop, [], false⟩

/-- The tokens of a file. -/
def read (code : List Char) : List Token :=
  let origin : Cursor := ⟨code, .origin⟩
  let start := origin.skip (Lexeme.spaces code)
  let tag := origin.skip (Lexeme.plainText code)
  let inside := tag.skip (Lexeme.openingTag tag.rest)
  (if start.point.offset < tag.point.offset then
    [ofStretch .text start.point tag.point] else []) ++
  (if tag.rest.isEmpty then [endOfFile ⟨[], false, tag⟩ [] tag.point]
  else ofStretch .openingTag tag.point inside.point ::
    readFrom (inside.rest.length + 1) [] inside.point inside)

end Token

end PhpTestIndex.Php
