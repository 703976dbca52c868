import PhpTestIndex.Php.Grammar.Statement

/-!
# Reading a PHP file

`Node.ofCode` makes the syntax tree of a file.  It always gives a tree: what fits no rule becomes an
`error` node that begins where the first statement that cannot be read begins.

The tree begins at the first character that is not white space and ends with the file.
-/

namespace PhpTestIndex.Php

/-- The statements that can be read from the start of some tokens, and the tokens after them. -/
def readStatements (tokens : List Token) : List Piece × List Token :=
  let limit := tokens.length
  Reader.many (grammar.read limit (8 * (limit + 2)) .statement) [] limit tokens

/-- The sign that is missing at the end of a tree. -/
def Node.missingLast : Nat → Node → Option String
  | 0, _ => none
  | fuel + 1, node =>
    match node.kind, node.children.getLast? with
    | .missing sign, _ => some sign
    | _, some last => last.missingLast fuel
    | _, none => none

/-- A statement that lacks its semicolon is read as a fault when it is so short that leaving it out
costs less than supplying the sign. -/
def settleMissing (piece : Piece) : Piece :=
  let node := piece.node
  let length := node.stop.offset - node.start.offset
  let rows := node.stop.row - node.start.row
  if node.missingLast 2 = some ";" && length + 30 * rows < 10 then
    { piece with node := { node with kind := .error } }
  else piece

/-- What is left after the last statement: the fault, if tokens are left, and what stands before the
end of the file. -/
def remainder : List Token → List Node
  | [] => []
  | token :: rest =>
    match (token :: rest).getLast? with
    | none => []
    | some last =>
      if token.kind = .endOfFile then token.leading
      else
        token.leading ++
          [⟨.error, none, token.start, last.stop, []⟩]

/-- The pieces of a file outside the statements: its text and its opening tag. -/
def readHeading : List Token → List Piece × List Token
  | [] => ([], [])
  | token :: rest =>
    match token.kind with
    | .text => let (pieces, rest) := readHeading rest; (Piece.ofToken .text token :: pieces, rest)
    | .openingTag => ([Piece.ofToken .openingTag token], rest)
    | _ => ([], token :: rest)

/-- The syntax tree of a file. -/
def Node.ofCode (code : List Char) : Node :=
  let tokens := Token.read code
  let (heading, rest) := readHeading tokens
  let (statements, rest) := readStatements rest
  let children := Piece.nodes (heading ++ statements.map settleMissing) ++ remainder rest
  let start := (children.head?.map Node.start).getD .origin
  ⟨.program, none, start, Point.origin.read code, children⟩

end PhpTestIndex.Php
