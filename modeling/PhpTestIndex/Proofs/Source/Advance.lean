import PhpTestIndex.Proofs.Text.Piece
import PhpTestIndex.Source.Position

/-! # Reading on from a position

To read one text and then another is to read both at once
(`PhpTestIndex.Position.advance_append`), whether or not words wrap. From a position that is right,
as long as no word wraps, reading on leads to a position that is right
(`PhpTestIndex.Position.IsAfter.advance`).
-/

namespace PhpTestIndex

namespace Position

variable {start : Position} {before text first second : List Char}

/-- Over a text with line feeds, the line goes up by their number and the column is counted from the
last. -/
theorem advance_of_mem (broken : '\n' ∈ text) (start : Position) :
    start.advance text =
      ⟨start.line + UInt32.ofNat (text.count '\n'),
        UInt32.ofNat (byteLength (Text.afterLast '\n' text)),
        start.offset + byteLength text⟩ := by
  rw [advance, if_pos broken]

theorem advance_of_not_mem (unbroken : '\n' ∉ text) (start : Position) :
    start.advance text =
      ⟨start.line, start.character + UInt32.ofNat (byteLength text),
        start.offset + byteLength text⟩ := by
  rw [advance, if_neg unbroken]

/-- **Reading on.** Two texts are read one after the other as they are read at once. -/
theorem advance_append (start : Position) (first second : List Char) :
    (start.advance first).advance second = start.advance (first ++ second) := by
  by_cases inSecond : '\n' ∈ second
  · have inBoth : '\n' ∈ first ++ second := List.mem_append_right first inSecond
    rw [advance_of_mem inSecond, advance_of_mem inBoth,
      Text.afterLast_append_of_mem inSecond, List.count_append, byteLength_append]
    by_cases inFirst : '\n' ∈ first
    · rw [advance_of_mem inFirst, UInt32.ofNat_add, ← UInt32.add_assoc, ← Nat.add_assoc]
    · rw [advance_of_not_mem inFirst, List.count_eq_zero_of_not_mem inFirst, Nat.zero_add,
        ← Nat.add_assoc]
  · by_cases inFirst : '\n' ∈ first
    · have inBoth : '\n' ∈ first ++ second := List.mem_append_left second inFirst
      rw [advance_of_not_mem inSecond, advance_of_mem inFirst, advance_of_mem inBoth,
        Text.afterLast_append_of_not_mem inSecond, List.count_append,
        List.count_eq_zero_of_not_mem inSecond, Nat.add_zero, byteLength_append,
        byteLength_append, UInt32.ofNat_add, ← Nat.add_assoc]
    · have inBoth : '\n' ∉ first ++ second := by simp [inFirst, inSecond]
      rw [advance_of_not_mem inSecond, advance_of_not_mem inFirst, advance_of_not_mem inBoth,
        byteLength_append, UInt32.ofNat_add, ← UInt32.add_assoc, ← Nat.add_assoc]

/-- The position is the one after a text at the start of a file: its line is one more than the
number of line feeds, and columns and offsets count bytes. Since these are the numbers that the
words stand for, no word has wrapped. -/
structure IsAfter (position : Position) (before : List Char) : Prop where
  line : position.line.toNat = 1 + before.count '\n'
  character : position.character.toNat = byteLength (Text.afterLast '\n' before)
  offset : position.offset = byteLength before

/-- The position is right in a file: it is the one after the text before it. -/
def IsIn (position : Position) (code : List Char) : Prop :=
  ∃ before after, code = before ++ after ∧ position.IsAfter before

/-- The numbers that are computed when a text is read fit into words. -/
structure ReadsWithin (start : Position) (text : List Char) : Prop where
  line : start.line.toNat + text.count '\n' < UInt32.size
  character : '\n' ∉ text → start.character.toNat + byteLength text < UInt32.size
  width : byteLength (Text.afterLast '\n' text) < UInt32.size

/-- What stands after the last line feed is no longer than the text. -/
theorem byteLength_afterLast_le (separator : Char) (text : List Char) :
    byteLength (Text.afterLast separator text) ≤ byteLength text := by
  obtain ⟨earlier, whole⟩ : Text.afterLast separator text <:+ text := by
    have ends := List.takeWhile_prefix (fun c => c != separator) (l := text.reverse)
    simpa [Text.afterLast] using List.reverse_suffix.mpr ends
  have lengths := congrArg byteLength whole
  rw [byteLength_append] at lengths
  omega

/-- The numbers fit if the lines can be counted and the texts are short. -/
theorem IsAfter.readsWithin (isAfter : start.IsAfter before)
    (lines : 1 + (before ++ text).count '\n' < UInt32.size)
    (short : byteLength (before ++ text) < UInt32.size) : start.ReadsWithin text where
  line := by
    rw [isAfter.line]
    rw [List.count_append] at lines
    omega
  character _ := by
    have shorter := byteLength_afterLast_le '\n' before
    rw [isAfter.character]
    rw [byteLength_append] at short
    omega
  width := by
    have shorter := byteLength_afterLast_le '\n' text
    rw [byteLength_append] at short
    omega

/-- Reading on keeps a position right. -/
theorem IsAfter.advance (isAfter : start.IsAfter before) (within : start.ReadsWithin text) :
    (start.advance text).IsAfter (before ++ text) := by
  have offset : start.offset + byteLength text = byteLength (before ++ text) := by
    rw [isAfter.offset, byteLength_append]
  by_cases broken : '\n' ∈ text
  · have counted : text.count '\n' < UInt32.size := by
      have lines := within.line
      omega
    rw [advance_of_mem broken]
    refine ⟨?_, ?_, offset⟩
    · have noWrap : (start.line.toNat + text.count '\n') % 2 ^ 32 =
          start.line.toNat + text.count '\n' := Nat.mod_eq_of_lt within.line
      rw [UInt32.toNat_add, UInt32.toNat_ofNat_of_lt' counted, noWrap, isAfter.line,
        List.count_append, Nat.add_assoc]
    · rw [UInt32.toNat_ofNat_of_lt' within.width, Text.afterLast_append_of_mem broken]
  · have wide := within.character broken
    have counted : byteLength text < UInt32.size := by omega
    rw [advance_of_not_mem broken]
    refine ⟨?_, ?_, offset⟩
    · rw [isAfter.line, List.count_append, List.count_eq_zero_of_not_mem broken, Nat.add_zero]
    · have noWrap : (start.character.toNat + byteLength text) % 2 ^ 32 =
          start.character.toNat + byteLength text := Nat.mod_eq_of_lt wide
      rw [UInt32.toNat_add, UInt32.toNat_ofNat_of_lt' counted, noWrap, isAfter.character,
        Text.afterLast_append_of_not_mem broken, byteLength_append]

end Position

end PhpTestIndex
