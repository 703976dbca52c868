import PhpTestIndex.Php.Document
import PhpTestIndex.Text.Replace

/-!
# Values written in the source

What calls and attributes are given: the values of arguments, the texts of strings and the names of
classes.  Interpolation is not carried out: a string keeps it as it is written.
-/

namespace PhpTestIndex.Php

/-- The last part of a name. -/
def shortName (name : List Char) : List Char :=
  Text.afterLast '\\' name

/-- The values of a list of arguments, in order and without their names. -/
def argumentValues (arguments : Node) : List Node :=
  (arguments.childrenOf .argument).filterMap fun argument => argument.namedChildren.getLast?

/-- The text of a string without the mark of a binary string. -/
def withoutBinaryMark (text : List Char) : List Char :=
  match text with
  | mark :: quote :: rest =>
    if (mark = 'b' || mark = 'B') && (quote = '\'' || quote = '\x22') then quote :: rest else text
  | _ => text

/-- What stands between two quotes. -/
def betweenQuotes? (quote : Char) (text : List Char) : Option (List Char) :=
  (Text.after? [quote] text).bind (Text.before? [quote])

/-- Undo the escape sequences of a string in single quotes. -/
def unescapeSingle (text : List Char) : List Char :=
  Text.replacePair '\\' '\\' '\\' (Text.replacePair '\\' '\'' '\'' text)

/-- Undo the escape sequences of a string in double quotes that stand for the character itself. -/
def unescapeDouble (text : List Char) : List Char :=
  Text.replacePair '\\' '\\' '\\' <|
    Text.replacePair '\\' '$' '$' <| Text.replacePair '\\' '\x22' '\x22' text

/-- The value of a string that is written out. -/
def stringValue? (kind : Kind) (text : List Char) : Option (List Char) :=
  match kind with
  | .plainString => (betweenQuotes? '\'' (withoutBinaryMark text)).map unescapeSingle
  | .interpolatedString => (betweenQuotes? '\x22' (withoutBinaryMark text)).map unescapeDouble
  | _ => none

/-- The value of a node that is a string. -/
def Document.stringValue? (document : Document) (node : Node) : Option String :=
  (Php.stringValue? node.kind (document.text node)).map String.ofList

/-- The class that a node names, by `::class` or in a string. -/
def Document.className? (document : Document) (node : Node) : Option String :=
  if node.kind = .classConstant then
    (Text.before? "::class".toList (document.text node)).map fun name =>
      String.ofList (name.dropWhile fun c => c == '\\')
  else document.stringValue? node

end PhpTestIndex.Php
