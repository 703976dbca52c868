import PhpTestIndex.Php.Token

/-! # Rules of a grammar

A `Rule` says which tokens may stand somewhere and which nodes they make.  Alternatives are tried
in order and repetition takes as much as it can, so a rule has at most one reading of a text.

`Rule.read` reads tokens by a rule.  A rule names another part of the grammar by `Rule.part`, and
how a part is read is a parameter, so `Rule.read` itself is a recursion on the rule; `Grammar.read`
ties the knot to a given depth.

The pieces of a node are joined by `Piece.join`: what stands before the first piece stays outside
the node, what stands between two pieces comes inside.  So a comment belongs to the smallest node
that goes on after it.
-/

namespace PhpTestIndex.Php

/-- A node with the comments and the text outside the tags before it. -/
structure Piece where
  leading : List Node
  node : Node
deriving Inhabited

namespace Piece

/-- The piece of a token. -/
def ofToken (kind : Kind) (token : Token) : Piece :=
  ⟨token.leading, ⟨kind, none, token.start, token.stop, []⟩⟩

/-- The nodes of some pieces, with what stands before each of them. -/
def nodes (pieces : List Piece) : List Node :=
  pieces.flatMap fun piece => piece.leading ++ [piece.node]

/-- One node around some pieces; there is none around no pieces. -/
def join (kind : Kind) : List Piece → List Piece
  | [] => []
  | first :: rest =>
    let last := (rest.getLast?.getD first).node
    [⟨first.leading, ⟨kind, none, first.node.start, last.stop, first.node :: nodes rest⟩⟩]

/-- Give a piece its role. -/
def setRole (role : Role) (piece : Piece) : Piece :=
  ⟨piece.leading, { piece.node with role := some role }⟩

end Piece

/-- The parts of the grammar that rules name. -/
inductive Part
  | statement
  | block
  | expression
  /-- An expression without `and`, `or` and `xor`. -/
  | tightExpression
  | operand
  | typeName
  /-- The members of a class. -/
  | declarations
  /-- The members of an enumeration. -/
  | cases
  /-- What an array is taken apart into. -/
  | pattern
deriving DecidableEq, Repr

/-- Which tokens may stand somewhere, and which nodes they make. -/
inductive Rule
  | nothing
  /-- A token of a kind, as a leaf. -/
  | leaf (token : TokenKind) (kind : Kind)
  /-- A token of a kind with a given key, as a leaf. -/
  | exact (token : TokenKind) (key : String) (kind : Kind)
  /-- A word that is none of the given ones, as a name. -/
  | wordExcept (words : List String)
  /-- Nothing, if the tokens before and after are separated by a closing tag. -/
  | closed
  /-- Nothing, if the tokens before and after are not separated by a closing tag. -/
  | joined
  /-- A sign that is missing at the end of the file. -/
  | missing (sign : String)
  /-- An opening bracket and all up to its closing one, without nodes. -/
  | group
  | both (first second : Rule)
  | either (first second : Rule)
  | many (item : Rule)
  /-- Nothing, if the rule can be read here. -/
  | ahead (rule : Rule)
  /-- Nothing, if the rule cannot be read here. -/
  | absent (rule : Rule)
  | node (kind : Kind) (parts : Rule)
  | role (role : Role) (rule : Rule)
  /-- `first`, and then `tail` around what is read so far, as often as it can be read. -/
  | grow (first tail : Rule)
  /-- A node around what is read so far, which gets the role, and what `rest` reads. -/
  | around (kind : Kind) (role : Option Role) (rest : Rule)
  | part (part : Part)

/-- The pieces that are read and the tokens that are left. -/
abbrev Reading := Option (List Piece × List Token)

/-- A way to read tokens, given the pieces before them. -/
abbrev Reader := List Piece → List Token → Reading

namespace Reader

/-- Read the next token as a leaf. -/
def next (accepts : Token → Bool) (kind : Kind) : Reader := fun _ tokens =>
  match tokens with
  | [] => none
  | token :: rest => if accepts token then some ([Piece.ofToken kind token], rest) else none

/-- Read nothing, if the next token is as asked. -/
def check (accepts : Token → Bool) : Reader := fun _ tokens =>
  match tokens with
  | [] => none
  | token :: _ => if accepts token then some ([], tokens) else none

/-- A sign that the file ends without. -/
def missing (sign : String) : Reader := fun _ tokens =>
  match tokens with
  | [⟨.endOfFile, _, start, _, _, _⟩] => some ([⟨[], ⟨.missing sign, none, start, start, []⟩⟩], tokens)
  | _ => none

/-- The tokens after the closing bracket that belongs to so many opening ones. -/
def afterGroup : Nat → List Token → Option (List Token)
  | _, [] => none
  | depth, token :: rest =>
    if token.kind ≠ .sign then
      if depth = 0 then none else afterGroup depth rest
    else if ["(", "[", "\x7b", "$\x7b", "#["].contains token.key then afterGroup (depth + 1) rest
    else if [")", "]", "\x7d"].contains token.key then
      if depth ≤ 1 then (if depth = 0 then none else some rest) else afterGroup (depth - 1) rest
    else if depth = 0 then none
    else afterGroup depth rest

/-- Read from a bracket to the one that closes it. -/
def group : Reader := fun _ tokens =>
  (afterGroup 0 tokens).map fun rest => ([], rest)

/-- Read one after the other. -/
def both (first second : Reader) : Reader := fun before tokens =>
  match first before tokens with
  | none => none
  | some (pieces, tokens) =>
    match second before tokens with
    | none => none
    | some (more, tokens) => some (pieces ++ more, tokens)

/-- Tokens were taken between two states of reading. -/
def hasMoved (tokens rest : List Token) : Bool :=
  match tokens, rest with
  | token :: _, next :: _ => token.start.offset < next.start.offset
  | _, _ => false

/-- Read again and again, at most `limit` times and as long as tokens are taken. -/
def many (item : Reader) (before : List Piece) : Nat → List Token → List Piece × List Token
  | 0, tokens => ([], tokens)
  | limit + 1, tokens =>
    match item before tokens with
    | none => ([], tokens)
    | some (pieces, rest) =>
      if hasMoved tokens rest then
        let (more, rest) := many item before limit rest
        (pieces ++ more, rest)
      else ([], tokens)

/-- Read around what is read so far, at most `limit` times and as long as tokens are taken. -/
def grow (tail : Reader) : Nat → List Piece → List Token → List Piece × List Token
  | 0, before, tokens => (before, tokens)
  | limit + 1, before, tokens =>
    match tail before tokens with
    | none => (before, tokens)
    | some (pieces, rest) =>
      if hasMoved tokens rest then grow tail limit pieces rest else (before, tokens)

end Reader

/-- Read tokens by a rule; `part` reads the parts of the grammar, and nothing is repeated more than
`limit` times. -/
def Rule.read (limit : Nat) (part : Part → Reader) : Rule → Reader
  | .nothing => fun _ tokens => some ([], tokens)
  | .leaf token kind => Reader.next (fun next => next.kind = token) kind
  | .exact token key kind => Reader.next (fun next => next.kind = token && next.key = key) kind
  | .wordExcept words =>
    Reader.next (fun next => next.kind = .word && !words.contains next.key) .name
  | .closed => Reader.check fun next => next.isAfterTag
  | .joined => Reader.check fun next => !next.isAfterTag
  | .missing text => Reader.missing text
  | .group => Reader.group
  | .both first second => Reader.both (first.read limit part) (second.read limit part)
  | .either first second => fun before tokens =>
    match first.read limit part before tokens with
    | some reading => some reading
    | none => second.read limit part before tokens
  | .many item => fun before tokens => some (Reader.many (item.read limit part) before limit tokens)
  | .ahead rule => fun before tokens =>
    match rule.read limit part before tokens with
    | some _ => some ([], tokens)
    | none => none
  | .absent rule => fun before tokens =>
    match rule.read limit part before tokens with
    | some _ => none
    | none => some ([], tokens)
  | .node kind parts => fun before tokens =>
    match parts.read limit part before tokens with
    | none => none
    | some (pieces, tokens) => some (Piece.join kind pieces, tokens)
  | .role given rule => fun before tokens =>
    match rule.read limit part before tokens with
    | none => none
    | some (pieces, tokens) => some (pieces.map (Piece.setRole given), tokens)
  | .grow first tail => fun before tokens =>
    match first.read limit part before tokens with
    | none => none
    | some (pieces, rest) => some (Reader.grow (tail.read limit part) limit pieces rest)
  | .around kind given rest => fun before tokens =>
    match rest.read limit part before tokens with
    | none => none
    | some (pieces, tokens) =>
      let inner := match given with
        | none => before
        | some title => before.map (Piece.setRole title)
      some (Piece.join kind (inner ++ pieces), tokens)
  | .part name => part name

/-- A rule for each part. -/
abbrev Grammar := Part → Rule

/-- Read a part of a grammar, with parts nested at most `depth` deep and nothing repeated more than
`limit` times. -/
def Grammar.read (grammar : Grammar) (limit : Nat) : Nat → Part → Reader
  | 0, _, _, _ => none
  | depth + 1, part, before, tokens =>
    (grammar part).read limit (grammar.read limit depth) before tokens

namespace Rule

/-- One rule after the other. -/
def all (rules : List Rule) : Rule :=
  rules.foldr both nothing

/-- A rule that cannot be read. -/
def never : Rule :=
  absent nothing

/-- The first of the rules that can be read. -/
def oneOf (rules : List Rule) : Rule :=
  rules.foldr either never

/-- The rule, if it can be read. -/
def optional (rule : Rule) : Rule :=
  either rule nothing

/-- The rule once or more. -/
def some1 (item : Rule) : Rule :=
  both item (many item)

/-- A sign. -/
def sign (text : String) : Rule :=
  exact .sign text .token

/-- A word, written in any case, as a leaf. -/
def keyword (text : String) (kind : Kind) : Rule :=
  exact .word text kind

/-- Items with a sign between each two. -/
def separated (separator : String) (item : Rule) : Rule :=
  both item (many (both (sign separator) item))

/-- Items with a comma between each two and possibly one at the end. -/
def listed (item : Rule) : Rule :=
  both (separated "," item) (optional (sign ","))

/-- A keyword that only holds the tree together. -/
def word (text : String) : Rule :=
  keyword text .token

/-- Any word, as a name. -/
def anyName : Rule :=
  wordExcept []

end Rule

end PhpTestIndex.Php
