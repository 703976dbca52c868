import PhpTestIndex.Text.Piece

/-!
# Positions in a source text

A `Position` is what a report shows of a place in a file: a line counted from one, a column and an
offset, both counted in bytes from zero.  Lines and columns are 32-bit words.

`Position.advance` is the place reached by reading a text.  It looks only at the line feeds of the
text and at what follows the last of them.
-/

namespace PhpTestIndex

/-- A place in a source file. -/
structure Position where
  /-- The number of the line, from one. -/
  line : UInt32
  /-- The number of bytes since the start of the line. -/
  character : UInt32
  /-- The number of bytes since the start of the file. -/
  offset : Nat
deriving DecidableEq, Repr, Inhabited

/-- A stretch of a source file; `stop` is the first place after it. -/
structure Span where
  start : Position
  stop : Position
deriving DecidableEq, Repr, Inhabited

/-- The number of bytes of a text. -/
def byteLength (chars : List Char) : Nat :=
  chars.foldr (fun c length => c.utf8Size + length) 0

@[simp] theorem byteLength_nil : byteLength [] = 0 := rfl

@[simp] theorem byteLength_cons (c : Char) (rest : List Char) :
    byteLength (c :: rest) = c.utf8Size + byteLength rest := rfl

@[simp] theorem byteLength_append (first second : List Char) :
    byteLength (first ++ second) = byteLength first + byteLength second := by
  induction first with
  | nil => simp
  | cons c rest ih => rw [List.cons_append, byteLength_cons, byteLength_cons, ih, Nat.add_assoc]

/-- The place after reading `chars` from `start`: without a line feed the column grows, with one
the column is the width of the text after the last line feed. -/
def Position.advance (start : Position) (chars : List Char) : Position :=
  if '\n' ∈ chars then
    ⟨start.line + UInt32.ofNat (chars.count '\n'),
      UInt32.ofNat (byteLength (Text.afterLast '\n' chars)),
      start.offset + byteLength chars⟩
  else
    ⟨start.line, start.character + UInt32.ofNat (byteLength chars),
      start.offset + byteLength chars⟩

end PhpTestIndex
