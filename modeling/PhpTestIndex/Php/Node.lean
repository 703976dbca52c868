import PhpTestIndex.Source.Point

/-!
# Syntax trees of PHP files

A `Node` is a stretch of a file with the nodes inside it.  Its `Kind` tells apart what test
discovery asks about: declarations, calls, literals, comments.  Everything else is a `statement`,
an `expression`, a `typeName` or a `clause`, and the signs and keywords between them are `token`s.

A parent can be asked for a child by its `Role`.  Tokens are not *named*: the named sibling before a
declaration is the last node before it that is more than a sign or a keyword.

`Node.firstError?` finds the first fault of a tree without entering a subtree that has none.
-/

namespace PhpTestIndex.Php

/-- What a node of a syntax tree is. -/
inductive Kind
  /-- A keyword, a sign or another mark that only holds the tree together. -/
  | token
  /-- A stretch that fits no rule. -/
  | error
  /-- A token that the rules ask for and the file does not have. -/
  | missing (token : String)
  | comment
  /-- A closing tag, the text after it and the next opening tag. -/
  | textInterpolation
  /-- The text before the first opening tag. -/
  | text
  | openingTag
  | program
  | name
  | qualifiedName
  | relativeName
  | namespaceName
  | namespaceDefinition
  | useDeclaration
  | useClause
  | useGroup
  | classDeclaration
  | baseClause
  | declarationList
  | methodDeclaration
  | attributeList
  | attributeGroup
  | attributeItem
  | visibilityModifier
  | abstractModifier
  | finalModifier
  | staticModifier
  | readonlyModifier
  | varModifier
  | compoundStatement
  | expressionStatement
  | functionCall
  | memberCall
  | arguments
  | argument
  | plainString
  | interpolatedString
  | arrayLiteral
  | arrayElement
  | classConstant
  | anonymousFunction
  | arrowFunction
  | variableName
  /-- Any other statement or declaration. -/
  | statement
  /-- Any other expression. -/
  | expression
  | typeName
  /-- Any other part of a statement, a declaration or an expression. -/
  | clause
deriving DecidableEq, Repr, Inhabited

/-- A faulty stretch or a missing token. -/
def Kind.isFault : Kind → Bool
  | .error => true
  | .missing _ => true
  | _ => false

/-- Everything but keywords and signs; a missing token is a sign. -/
def Kind.isNamed : Kind → Bool
  | .token => false
  | .missing _ => false
  | _ => true

/-- What a child is to its parent. -/
inductive Role
  | name
  | body
  /-- The name an import goes by. -/
  | localName
  | callee
  | target
  | arguments
deriving DecidableEq, Repr

/-- A stretch of a file with the nodes inside it. -/
structure Node where
  kind : Kind
  /-- What the node is to its parent. -/
  role : Option Role
  start : Point
  /-- The first place after the node. -/
  stop : Point
  children : List Node
deriving Inhabited, Repr

/-- A node together with the named sibling directly before it. -/
structure Placed where
  before : Option Node
  node : Node

namespace Node

/-- The stretch of the file that a report shows for a node. -/
def span (node : Node) : Span :=
  ⟨node.start.position, node.stop.position⟩

/-- The text of a node in the file it was read from. -/
def text (code : List Char) (node : Node) : List Char :=
  Text.slice code node.start.offset node.stop.offset

/-- The first child with a role. -/
def child? (node : Node) (role : Role) : Option Node :=
  node.children.find? fun child => child.role = some role

/-- The children of one kind. -/
def childrenOf (node : Node) (kind : Kind) : List Node :=
  node.children.filter fun child => child.kind = kind

/-- Some child has the kind. -/
def has (node : Node) (kind : Kind) : Bool :=
  node.children.any fun child => child.kind = kind

/-- The children that are more than signs and keywords. -/
def namedChildren (node : Node) : List Node :=
  node.children.filter fun child => child.kind.isNamed

/-- Each node of a list of siblings with the sibling before it. -/
def place (before : Option Node) : List Node → List Placed
  | [] => []
  | node :: rest => ⟨before, node⟩ :: place (some node) rest

/-- The named children, each with the named sibling before it. -/
def placedChildren (node : Node) : List Placed :=
  place none node.namedChildren

end Node

mutual

/-- All nodes of a tree, a parent before its children, each with the named sibling before it. -/
def Node.descendants (before : Option Node) : Node → List Placed
  | ⟨kind, role, start, stop, children⟩ =>
    ⟨before, ⟨kind, role, start, stop, children⟩⟩ :: siblingsDescendants none children

/-- All nodes of the trees of a list of siblings. -/
def siblingsDescendants (before : Option Node) : List Node → List Placed
  | [] => []
  | node :: rest =>
    node.descendants before ++
      siblingsDescendants (if node.kind.isNamed then some node else before) rest

end

mutual

/-- The node or one below it is a fault. -/
def Node.hasError : Node → Bool
  | ⟨kind, _, _, _, children⟩ => kind.isFault || siblingsHaveError children

/-- One of the trees of a list of siblings has a fault. -/
def siblingsHaveError : List Node → Bool
  | [] => false
  | node :: rest => node.hasError || siblingsHaveError rest

end

mutual

/-- The first fault of a tree, a parent before its children; a subtree without a fault is not
entered. -/
def Node.firstError? : Node → Option Node
  | ⟨kind, role, start, stop, children⟩ =>
    if kind.isFault then some ⟨kind, role, start, stop, children⟩
    else siblingsFirstError? children

/-- The first fault among the trees of a list of siblings. -/
def siblingsFirstError? : List Node → Option Node
  | [] => none
  | node :: rest =>
    if node.hasError then
      match node.firstError? with
      | some fault => some fault
      | none => siblingsFirstError? rest
    else siblingsFirstError? rest

end

mutual

/-- A tree has a first fault if it has a fault at all. -/
theorem Node.isSome_firstError? : ∀ node : Node, node.firstError?.isSome = node.hasError
  | ⟨kind, role, start, stop, children⟩ => by
    rw [Node.firstError?, Node.hasError]
    cases kind.isFault with
    | true => rfl
    | false => simpa using isSome_siblingsFirstError? children

theorem isSome_siblingsFirstError? : ∀ siblings : List Node,
    (siblingsFirstError? siblings).isSome = siblingsHaveError siblings
  | [] => rfl
  | node :: rest => by
    have first := Node.isSome_firstError? node
    have later := isSome_siblingsFirstError? rest
    rw [siblingsFirstError?, siblingsHaveError]
    cases faulty : node.hasError with
    | true =>
        obtain ⟨fault, found⟩ := Option.isSome_iff_exists.mp (first.trans faulty)
        simp [found]
    | false => simpa using later

end

mutual

/-- The comments of a tree in source order. -/
def Node.comments : Node → List Node
  | ⟨kind, role, start, stop, children⟩ =>
    if kind = .comment then [⟨kind, role, start, stop, children⟩] else siblingsComments children

/-- The comments of a list of siblings in source order. -/
def siblingsComments : List Node → List Node
  | [] => []
  | node :: rest => node.comments ++ siblingsComments rest

end

end PhpTestIndex.Php
