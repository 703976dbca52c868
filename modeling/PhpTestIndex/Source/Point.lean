import PhpTestIndex.Source.Position

/-!
# Points of a text

A `Point` is a place in a text while it is read: rows and columns count from zero and never wrap.
Reading a character moves a point, `Point.position` is the place that a report shows, and
`Text.slice` is the text between two byte offsets.
-/

namespace PhpTestIndex

/-- A place in a text that is being read. -/
structure Point where
  row : Nat
  /-- The number of bytes since the start of the row. -/
  column : Nat
  /-- The number of bytes since the start of the text. -/
  offset : Nat
deriving DecidableEq, Repr, Inhabited

namespace Point

/-- The start of a text. -/
def origin : Point := ⟨0, 0, 0⟩

/-- The place after one character. -/
def next (point : Point) (c : Char) : Point :=
  if c = '\n' then ⟨point.row + 1, 0, point.offset + c.utf8Size⟩
  else ⟨point.row, point.column + c.utf8Size, point.offset + c.utf8Size⟩

/-- The place after a text. -/
def read (point : Point) (chars : List Char) : Point :=
  chars.foldl next point

@[simp] theorem read_nil (point : Point) : point.read [] = point := rfl

@[simp] theorem read_cons (point : Point) (c : Char) (rest : List Char) :
    point.read (c :: rest) = (point.next c).read rest := rfl

theorem offset_read (point : Point) (chars : List Char) :
    (point.read chars).offset = point.offset + byteLength chars := by
  induction chars generalizing point with
  | nil => simp
  | cons c rest ih =>
    rw [read_cons, ih, byteLength_cons]
    unfold next
    split <;> simp <;> omega

/-- The place that a report shows for a point. -/
def position (point : Point) : Position :=
  ⟨UInt32.ofNat point.row + 1, UInt32.ofNat point.column, point.offset⟩

end Point

namespace Text

/-- What is left of a text after its first `count` bytes. -/
def dropBytes : Nat → List Char → List Char
  | _, [] => []
  | count, c :: rest => if count = 0 then c :: rest else dropBytes (count - c.utf8Size) rest

/-- The first `count` bytes of a text. -/
def takeBytes : Nat → List Char → List Char
  | _, [] => []
  | count, c :: rest => if count = 0 then [] else c :: takeBytes (count - c.utf8Size) rest

/-- The text between two byte offsets. -/
def slice (chars : List Char) (start stop : Nat) : List Char :=
  takeBytes (stop - start) (dropBytes start chars)

theorem dropBytes_append (first second : List Char) :
    dropBytes (byteLength first) (first ++ second) = second := by
  induction first with
  | nil => cases second <;> simp [dropBytes]
  | cons c rest ih =>
    have : c.utf8Size ≠ 0 := Nat.ne_of_gt c.utf8Size_pos
    rw [List.cons_append, dropBytes, byteLength_cons, if_neg (by omega), Nat.add_sub_cancel_left, ih]

theorem takeBytes_append (first second : List Char) :
    takeBytes (byteLength first) (first ++ second) = first := by
  induction first with
  | nil => cases second <;> simp [takeBytes]
  | cons c rest ih =>
    have : c.utf8Size ≠ 0 := Nat.ne_of_gt c.utf8Size_pos
    rw [List.cons_append, takeBytes, byteLength_cons, if_neg (by omega), Nat.add_sub_cancel_left, ih]

/-- The slice between two offsets is the text that stands there. -/
theorem slice_eq (before middle after : List Char) :
    slice (before ++ middle ++ after) (byteLength before) (byteLength (before ++ middle)) =
      middle := by
  rw [slice, List.append_assoc, dropBytes_append, byteLength_append, Nat.add_sub_cancel_left,
    takeBytes_append]

end Text

end PhpTestIndex
