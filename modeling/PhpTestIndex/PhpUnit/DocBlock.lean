import PhpTestIndex.Text.Blank
import PhpTestIndex.Text.Piece
import PhpTestIndex.Text.WordCharacter

/-!
# Documentation blocks

A documentation block is read line by line.  A line that starts with `@` and a name is a tag; a line
that does not continues the tag before it.  Lines before the first tag are the description and are
left out.
-/

namespace PhpTestIndex.PhpUnit

/-- An entry of a documentation block. -/
structure DocTag where
  name : String
  value : String
  /-- The lines that continue the entry. -/
  rows : List String
deriving DecidableEq, Repr, Inhabited

namespace DocTag

/-- The first word of the value. -/
def firstWord? (tag : DocTag) : Option String :=
  (Text.firstWord? tag.value.toList).map String.ofList

end DocTag

/-- A line without the signs of the comment around it. -/
def docLine (line : List Char) : List Char :=
  let line := Text.trim line
  let line := (Text.after? "/**".toList line).getD line
  let line := (Text.before? "*/".toList line).getD line
  Text.trim ((Text.trim line).dropWhile fun c => c == '*')

/-- A character of the name of a tag after the first letter. -/
def isTagCharacter (c : Char) : Bool :=
  Text.isWordCharacter c || c == '-'

/-- The tag that a line starts, if it starts one. -/
def docTag? (line : List Char) : Option DocTag :=
  match line with
  | '@' :: first :: rest =>
    if first.isAlpha then
      let name := first :: rest.takeWhile isTagCharacter
      match rest.dropWhile isTagCharacter with
      | [] => some ⟨String.ofList name, "", []⟩
      | blank :: value =>
        if Text.isBlank blank then
          some ⟨String.ofList name, String.ofList (Text.trim value), []⟩
        else none
    else none
  | _ => none

/-- Read the lines of a block from the last to the first: the tags found so far, and the lines that
continue a tag that stands before them. -/
def readDocLine (line : List Char) (found : List String × List DocTag) :
    List String × List DocTag :=
  match docLine line with
  | [] => found
  | c :: rest =>
    match docTag? (c :: rest) with
    | none => (String.ofList (c :: rest) :: found.1, found.2)
    | some tag => ([], { tag with rows := found.1 } :: found.2)

/-- The tags of a documentation block, in order. -/
def docTags (block : List Char) : List DocTag :=
  ((Text.lines block).foldr readDocLine ([], [])).2

end PhpTestIndex.PhpUnit
