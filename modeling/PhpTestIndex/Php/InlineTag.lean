/-! # Tags on successive lines

Where a closing tag ends a line and the next line begins with an opening tag, no text stands
between the two.  `separateTags` puts a placeholder there, on the line of the opening tag, so that
lines keep their numbers.  A carriage return before the line feed is dropped.
-/

namespace PhpTestIndex.Php

/-- The text between a closing tag and an opening tag on the next line. -/
def placeholder : List Char :=
  "___PSEUDO_INLINE_PLACEHOLDER___".toList

/-- Put the placeholder before each opening tag that starts the line after a closing tag. -/
def separateTags : List Char → List Char
  | '?' :: '>' :: '\n' :: '<' :: '?' :: rest =>
    '?' :: '>' :: '\n' :: (placeholder ++ '<' :: '?' :: separateTags rest)
  | '?' :: '>' :: '\r' :: '\n' :: '<' :: '?' :: rest =>
    '?' :: '>' :: '\n' :: (placeholder ++ '<' :: '?' :: separateTags rest)
  | c :: rest => c :: separateTags rest
  | [] => []

/-- Some closing tag is followed by an opening tag on the next line. -/
def hasAdjacentTags : List Char → Bool
  | '?' :: '>' :: '\n' :: '<' :: '?' :: _ => true
  | '?' :: '>' :: '\r' :: '\n' :: '<' :: '?' :: _ => true
  | _ :: rest => hasAdjacentTags rest
  | [] => false

end PhpTestIndex.Php
