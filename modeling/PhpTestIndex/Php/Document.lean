import PhpTestIndex.Php.Comment
import PhpTestIndex.Php.InlineTag
import PhpTestIndex.Php.Program

/-! # Documents

A `Document` is a file that was read without a fault: its text, with adjacent tags separated, its
syntax tree and its comments in source order.  A file with a fault gives a `SyntaxError` at the
first fault of its tree.

`Document.commentAt?` finds a comment by the offset at which it begins, and `Document.docBlock?`
the documentation of a declaration: the comment that is the named sibling directly before it.
-/

namespace PhpTestIndex.Php

/-- Where and why a file cannot be read. -/
structure SyntaxError where
  line : UInt32
  column : UInt32
  reason : String
deriving DecidableEq, Repr

/-- The error that a fault of a tree is reported as. -/
def SyntaxError.ofFault (fault : Node) : SyntaxError :=
  let start := fault.start.position
  ⟨start.line, start.character,
    match fault.kind with
    | .missing token => "missing " ++ token
    | _ => "unexpected input"⟩

/-- A file that was read without a fault. -/
structure Document where
  code : List Char
  root : Node
  comments : Array Comment
deriving Inhabited

namespace Document

/-- The document of a text and its syntax tree. -/
def ofTree (code : List Char) (root : Node) : Document :=
  ⟨code, root, (root.comments.map fun node => (Comment.ofNode code node).normalize).toArray⟩

/-- Read a file. -/
def read (text : List Char) : Except SyntaxError Document :=
  let code := separateTags text
  let root := Node.ofCode code
  match root.firstError? with
  | some fault => .error (.ofFault fault)
  | none => .ok (ofTree code root)

/-- The text of a node. -/
def text (document : Document) (node : Node) : List Char :=
  node.text document.code

/-- The text of a node, as a string. -/
def string (document : Document) (node : Node) : String :=
  String.ofList (document.text node)

/-- The comment among those from `low` on and before `high` that begins at an offset, found by
halving. -/
def searchComments (comments : Array Comment) (offset : Nat) (low high : Nat) :
    Option Comment :=
  if low < high then
    let middle := (low + high) / 2
    match comments[middle]? with
    | none => none
    | some comment =>
      if comment.span.start.offset = offset then some comment
      else if comment.span.start.offset < offset then
        searchComments comments offset (middle + 1) high
      else searchComments comments offset low middle
  else none
termination_by high - low

/-- The comment that begins at an offset. -/
def commentAt? (document : Document) (offset : Nat) : Option Comment :=
  searchComments document.comments offset 0 document.comments.size

/-- The documentation of a declaration. -/
def docBlock? (document : Document) (declaration : Placed) : Option (List Char) :=
  match declaration.before with
  | none => none
  | some before =>
    if before.kind = .comment then
      ((document.commentAt? before.start.offset).filter Comment.isDocBlock).map Comment.text
    else none

end Document

end PhpTestIndex.Php
