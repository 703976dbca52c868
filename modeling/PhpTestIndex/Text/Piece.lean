/-!
# Pieces of a text

Cutting a text at a separator, at a given start or end, or at its lines.
-/

namespace PhpTestIndex.Text

/-- The pieces between the occurrences of `separator`; a text without it is one piece. -/
def split (separator : Char) : List Char → List (List Char)
  | [] => [[]]
  | c :: rest =>
    if c = separator then [] :: split separator rest
    else match split separator rest with
      | [] => [[c]]
      | piece :: more => (c :: piece) :: more

/-- The lines of a text, without their line feeds. -/
def lines (chars : List Char) : List (List Char) :=
  split '\n' chars

/-- What follows `start` in a text that begins with it. -/
def after? (start : List Char) (chars : List Char) : Option (List Char) :=
  if start.isPrefixOf chars then some (chars.drop start.length) else none

/-- What precedes `finish` in a text that ends with it. -/
def before? (finish : List Char) (chars : List Char) : Option (List Char) :=
  if finish.isSuffixOf chars then some (chars.take (chars.length - finish.length)) else none

/-- The text after the last occurrence of `separator`; the whole text if there is none. -/
def afterLast (separator : Char) (chars : List Char) : List Char :=
  (chars.reverse.takeWhile fun c => c != separator).reverse

/-- The pieces joined with `separator` between each two. -/
def join (separator : String) (pieces : List String) : String :=
  String.intercalate separator pieces

theorem after?_append (start rest : List Char) : after? start (start ++ rest) = some rest := by
  simp [after?]

theorem split_ne_nil (separator : Char) (chars : List Char) : split separator chars ≠ [] := by
  cases chars with
  | nil => simp [split]
  | cons c rest =>
    rw [split]
    split
    · simp
    · split <;> simp

end PhpTestIndex.Text
