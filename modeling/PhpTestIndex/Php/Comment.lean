import PhpTestIndex.Php.Node

/-!
# Comments

A `Comment` is a comment of a file with the line break at its end removed.  The end of its span is
computed from the text that remains.
-/

namespace PhpTestIndex.Php

/-- A comment of a file. -/
structure Comment where
  text : List Char
  span : Span
deriving DecidableEq, Repr, Inhabited

namespace Comment

/-- The comment documents the declaration after it. -/
def isDocBlock (comment : Comment) : Bool :=
  "/**".toList.isPrefixOf comment.text

/-- The text without a line break at its end: one line feed, and then one carriage return. -/
def withoutLineBreak (text : List Char) : List Char :=
  let text := (Text.before? ['\n'] text).getD text
  (Text.before? ['\r'] text).getD text

/-- Remove the line break at the end of a comment. -/
def normalize (comment : Comment) : Comment :=
  let text := withoutLineBreak comment.text
  if text.length = comment.text.length then comment
  else ⟨text, ⟨comment.span.start, comment.span.start.advance text⟩⟩

/-- The comment that a node of a file is. -/
def ofNode (code : List Char) (node : Node) : Comment :=
  ⟨node.text code, node.span⟩

end Comment

end PhpTestIndex.Php
