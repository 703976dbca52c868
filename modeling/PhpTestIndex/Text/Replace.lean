/-!
# Replacing pairs of characters

Escape sequences of two characters are undone one sequence after the other, each over the whole
text.
-/

namespace PhpTestIndex.Text

/-- Replace `first` followed by `second`, from left to right, by one character. -/
def replacePair (first second replacement : Char) : List Char → List Char
  | a :: b :: rest =>
    if a = first ∧ b = second then replacement :: replacePair first second replacement rest
    else a :: replacePair first second replacement (b :: rest)
  | short => short

end PhpTestIndex.Text
