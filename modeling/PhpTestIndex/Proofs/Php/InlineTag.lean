import Mathlib.Data.List.Basic
import PhpTestIndex.Php.InlineTag
import PhpTestIndex.Source.Point

/-! # What separating tags does to offsets

Separating adjacent tags cuts a text into runs that stay as they are; between two runs, the end of a
line becomes a line feed and the placeholder (`PhpTestIndex.Php.separateTags_eq`). So a run is moved
by 31 bytes for each pair of tags before it, or by 30 where the pair had a carriage return
(`PhpTestIndex.Php.bytesBetween_of_movedBy`), and the first byte that changes differs
(`PhpTestIndex.Php.bytesBetween_ne_of_change`).
-/

namespace PhpTestIndex

namespace Text

/-- The bytes of a text. -/
def bytes (chars : List Char) : List UInt8 :=
  chars.flatMap String.utf8EncodeChar

/-- The bytes of a text between two offsets. -/
def bytesBetween (chars : List Char) (start stop : Nat) : List UInt8 :=
  ((bytes chars).drop start).take (stop - start)

theorem bytes_append (first second : List Char) :
    bytes (first ++ second) = bytes first ++ bytes second :=
  List.flatMap_append

/-- No two texts have the same bytes. -/
theorem bytes_injective {first second : List Char} (same : bytes first = bytes second) :
    first = second := by
  have encoded : first.utf8Encode = second.utf8Encode := congrArg List.toByteArray same
  have decoded := congrArg ByteArray.utf8Decode? encoded
  rw [List.utf8Decode?_utf8Encode, List.utf8Decode?_utf8Encode] at decoded
  simpa using decoded

/-- A text has as many bytes as its length in bytes says. -/
theorem length_bytes (chars : List Char) : (bytes chars).length = byteLength chars := by
  induction chars with
  | nil => rfl
  | cons c rest ih =>
      rw [bytes, List.flatMap_cons, List.length_append, String.length_utf8EncodeChar,
        byteLength_cons, ← ih]
      rfl

theorem length_bytesBetween (chars : List Char) (start stop : Nat) :
    (bytesBetween chars start stop).length = min (stop - start) (byteLength chars - start) := by
  rw [bytesBetween, List.length_take, List.length_drop, length_bytes]

/-- Between the offsets at which a text stands in another one, there are its bytes. -/
theorem bytesBetween_middle {before middle after : List Char} {start stop : Nat}
    (low : byteLength before ≤ start) (high : stop ≤ byteLength (before ++ middle)) :
    bytesBetween (before ++ middle ++ after) start stop =
      bytesBetween middle (start - byteLength before) (stop - byteLength before) := by
  have lengthBefore := length_bytes before
  have lengthMiddle := length_bytes middle
  have same : stop - byteLength before - (start - byteLength before) = stop - start := by omega
  rw [byteLength_append] at high
  rw [bytesBetween, bytesBetween, bytes_append, bytes_append, List.append_assoc,
    List.drop_append, List.drop_eq_nil_of_le (by omega), List.nil_append, same, lengthBefore]
  by_cases forward : start < stop
  · have inside : start - byteLength before ≤ (bytes middle).length := by omega
    rw [List.drop_append_of_le_length inside, List.take_append_of_le_length]
    rw [List.length_drop]
    omega
  · have empty : stop - start = 0 := by omega
    rw [empty, List.take_zero, List.take_zero]

/-- The byte at an offset is known from the bytes between two offsets around it. -/
theorem getElem?_bytesBetween {chars : List Char} {start stop offset : Nat}
    (low : start ≤ offset) (high : offset < stop) :
    (bytesBetween chars start stop)[offset - start]? = (bytes chars)[offset]? := by
  have inside : offset - start < stop - start := by omega
  have back : start + (offset - start) = offset := by omega
  rw [bytesBetween, List.getElem?_take_of_lt inside, List.getElem?_drop, back]

/-- A character of one byte stands at the offset that the text before it fills. -/
theorem getElem?_bytes (before : List Char) {c : Char} (after : List Char) {byte : UInt8}
    (encoded : String.utf8EncodeChar c = [byte]) :
    (bytes (before ++ c :: after))[byteLength before]? = some byte := by
  have length := length_bytes before
  rw [bytes_append, List.getElem?_append_right (by omega), length, Nat.sub_self, bytes,
    List.flatMap_cons, encoded]
  rfl

end Text

namespace Php

/-- What ends the line between two adjacent tags. -/
inductive LineEnd
  | lineFeed
  | carriageReturn

/-- The characters of the end of a line. -/
def LineEnd.chars : LineEnd → List Char
  | .lineFeed => ['\n']
  | .carriageReturn => ['\r', '\n']

/-- The number of bytes of the end of a line that separating two tags leaves as they are. -/
def LineEnd.kept : LineEnd → Nat
  | .lineFeed => 1
  | .carriageReturn => 0

/-- The number of bytes that separating two tags adds. -/
def LineEnd.added : LineEnd → Nat
  | .lineFeed => 31
  | .carriageReturn => 30

/-- An opening tag on the line after a closing tag, with the text up to the next such tag. -/
structure Joint where
  lineEnd : LineEnd
  rest : List Char

namespace Joint

/-- What separating tags leaves as it is. -/
def run (joint : Joint) : List Char :=
  '<' :: '?' :: joint.rest

def inText (joint : Joint) : List Char :=
  joint.lineEnd.chars ++ joint.run

def inCode (joint : Joint) : List Char :=
  '\n' :: placeholder ++ joint.run

end Joint

/-- The number of bytes that separating the tags of some joints adds. -/
def displacement : List Joint → Nat
  | [] => 0
  | joint :: rest => joint.lineEnd.added + displacement rest

/-- A text as it is cut where adjacent tags are separated. -/
structure Cuts where
  first : List Char
  joints : List Joint

/-- Cut a text where adjacent tags are separated. -/
def cuts : List Char → Cuts
  | '?' :: '>' :: '\n' :: '<' :: '?' :: rest =>
    let further := cuts rest
    ⟨['?', '>'], ⟨.lineFeed, further.first⟩ :: further.joints⟩
  | '?' :: '>' :: '\r' :: '\n' :: '<' :: '?' :: rest =>
    let further := cuts rest
    ⟨['?', '>'], ⟨.carriageReturn, further.first⟩ :: further.joints⟩
  | c :: rest => { cuts rest with first := c :: (cuts rest).first }
  | [] => ⟨[], []⟩

/-- The offset of the first byte that separating tags changes. -/
def firstChange? (text : List Char) : Option Nat :=
  (cuts text).joints.head?.map fun joint => byteLength (cuts text).first + joint.lineEnd.kept

/-- Nothing is lost by cutting a text where adjacent tags are separated. -/
theorem eq_of_cuts (text : List Char) :
    text = (cuts text).first ++ (cuts text).joints.flatMap Joint.inText := by
  fun_induction cuts text with
  | case1 rest further ih =>
      simp only [List.flatMap_cons, Joint.inText, Joint.run, LineEnd.chars, List.cons_append,
        List.nil_append]
      rw [← ih]
  | case2 rest further ih =>
      simp only [List.flatMap_cons, Joint.inText, Joint.run, LineEnd.chars, List.cons_append,
        List.nil_append]
      rw [← ih]
  | case3 c rest _ _ _ ih => rw [List.cons_append, ← ih]
  | case4 => rfl

/-- Separating tags changes the ends of lines between the runs, and nothing in the runs. -/
theorem separateTags_eq (text : List Char) :
    separateTags text = (cuts text).first ++ (cuts text).joints.flatMap Joint.inCode := by
  fun_induction cuts text with
  | case1 rest further ih =>
      simp only [separateTags, List.flatMap_cons, Joint.inCode, Joint.run, List.cons_append,
        List.nil_append, List.append_assoc]
      rw [ih]
  | case2 rest further ih =>
      simp only [separateTags, List.flatMap_cons, Joint.inCode, Joint.run, List.cons_append,
        List.nil_append, List.append_assoc]
      rw [ih]
  | case3 c rest noLineFeed noCarriageReturn _ ih =>
      rw [separateTags, List.cons_append, ih]
      · exact noLineFeed
      · exact noCarriageReturn
  | case4 => rfl

/-- Tags have to be separated if and only if there is a place to cut at. -/
theorem hasAdjacentTags_iff (text : List Char) :
    hasAdjacentTags text = true ↔ (cuts text).joints ≠ [] := by
  fun_induction cuts text with
  | case1 rest further ih => simp [hasAdjacentTags]
  | case2 rest further ih => simp [hasAdjacentTags]
  | case3 c rest noLineFeed noCarriageReturn _ ih =>
      rw [hasAdjacentTags, ih]
      · exact noLineFeed
      · exact noCarriageReturn
  | case4 => simp [hasAdjacentTags]

/-- The code is longer than the text by what is added at all joints together. -/
theorem byteLength_inCode (joints : List Joint) :
    byteLength (joints.flatMap Joint.inCode) =
      byteLength (joints.flatMap Joint.inText) + displacement joints := by
  induction joints with
  | nil => rfl
  | cons joint rest ih =>
      have placeholderLength : byteLength placeholder = 31 := by decide
      have lineFeed : '\n'.utf8Size = 1 := by decide
      have carriageReturn : '\r'.utf8Size = 1 := by decide
      have one : byteLength joint.inCode = byteLength joint.inText + joint.lineEnd.added := by
        unfold Joint.inCode Joint.inText LineEnd.chars LineEnd.added
        cases joint.lineEnd <;> simp <;> omega
      rw [List.flatMap_cons, List.flatMap_cons, byteLength_append, byteLength_append, ih, one,
        displacement]
      omega

/-- What stands between two offsets of the code stands in one run, and `added` bytes were added
before it. -/
def MovedBy (text : List Char) (start stop added : Nat) : Prop :=
  ∃ before joint after, (cuts text).joints = before ++ joint :: after ∧
    byteLength ((cuts text).first ++ before.flatMap Joint.inCode ++ '\n' :: placeholder) ≤ start ∧
    stop ≤ byteLength ((cuts text).first ++ before.flatMap Joint.inCode ++ joint.inCode) ∧
    added = displacement (before ++ [joint])

/-- **Runs are moved.** What stands in a run stands earlier in the text by the bytes that were added
before the run. -/
theorem bytesBetween_of_movedBy {text : List Char} {start stop added : Nat}
    (moved : MovedBy text start stop added) :
    Text.bytesBetween (separateTags text) start stop =
      Text.bytesBetween text (start - added) (stop - added) := by
  obtain ⟨before, joint, after, split, low, high, rfl⟩ := moved
  -- Both texts have the run in the middle. Before it the code is longer by what the earlier joints
  -- added and by what the joint of the run itself added.
  have inCode : separateTags text =
      ((cuts text).first ++ before.flatMap Joint.inCode ++ '\n' :: placeholder) ++ joint.run ++
        after.flatMap Joint.inCode := by
    rw [separateTags_eq, split]
    simp [Joint.inCode]
  have inText : text = ((cuts text).first ++ before.flatMap Joint.inText ++ joint.lineEnd.chars) ++
      joint.run ++ after.flatMap Joint.inText := by
    conv_lhs => rw [eq_of_cuts text, split]
    simp [Joint.inText]
  have shift : byteLength ((cuts text).first ++ before.flatMap Joint.inCode ++ '\n' :: placeholder) =
      byteLength ((cuts text).first ++ before.flatMap Joint.inText ++ joint.lineEnd.chars) +
        displacement (before ++ [joint]) := by
    have earlier := byteLength_inCode (before ++ [joint])
    simp only [List.flatMap_append, List.flatMap_singleton, Joint.inCode, Joint.inText,
      byteLength_append] at earlier ⊢
    omega
  rw [Joint.inCode, ← List.append_assoc] at high
  have highText : stop - displacement (before ++ [joint]) ≤ byteLength
      (((cuts text).first ++ before.flatMap Joint.inText ++ joint.lineEnd.chars) ++ joint.run) := by
    rw [byteLength_append] at high ⊢
    omega
  rw [inCode, Text.bytesBetween_middle low high]
  conv_rhs => rw [inText, Text.bytesBetween_middle (by omega) highText]
  congr 1 <;> omega

/-- Up to the first change the code is the text, and there they differ in one byte. -/
theorem exists_parting {text : List Char} {change : Nat}
    (changes : firstChange? text = some change) :
    ∃ common c c' after after' byte byte', text = common ++ c :: after ∧
      separateTags text = common ++ c' :: after' ∧ byteLength common = change ∧
      String.utf8EncodeChar c = [byte] ∧ String.utf8EncodeChar c' = [byte'] ∧ byte ≠ byte' := by
  obtain ⟨joint, isFirst, rfl⟩ := Option.map_eq_some_iff.mp changes
  obtain ⟨rest, joints⟩ := List.head?_eq_some_iff.mp isFirst
  have inText := eq_of_cuts text
  have inCode := separateTags_eq text
  rw [joints, List.flatMap_cons] at inText inCode
  have underscore : placeholder = '_' :: placeholder.tail := by rfl
  -- A line feed stays, so that the texts part after it; a carriage return goes, and they part at it.
  cases ends : joint.lineEnd with
  | lineFeed =>
      refine ⟨(cuts text).first ++ ['\n'], '<', '_', '?' :: joint.rest ++ rest.flatMap Joint.inText,
        placeholder.tail ++ joint.run ++ rest.flatMap Joint.inCode, 60, 95, ?_, ?_, ?_, ?_, ?_, ?_⟩
      · rw [Joint.inText, ends, LineEnd.chars, Joint.run] at inText
        simpa using inText
      · rw [Joint.inCode, underscore] at inCode
        simpa using inCode
      · rw [byteLength_append]
        rfl
      · decide
      · decide
      · decide
  | carriageReturn =>
      refine ⟨(cuts text).first, '\r', '\n', '\n' :: joint.run ++ rest.flatMap Joint.inText,
        placeholder ++ joint.run ++ rest.flatMap Joint.inCode, 13, 10, ?_, ?_, rfl, ?_, ?_, ?_⟩
      · rw [Joint.inText, ends, LineEnd.chars] at inText
        simpa using inText
      · rw [Joint.inCode] at inCode
        simpa using inCode
      · decide
      · decide
      · decide

section Change

variable {text : List Char} {change start stop : Nat}

/-- Before the first change nothing is moved. -/
theorem bytesBetween_of_le_change (changes : firstChange? text = some change)
    (before : stop ≤ change) :
    Text.bytesBetween text start stop = Text.bytesBetween (separateTags text) start stop := by
  obtain ⟨common, c, c', after, after', byte, byte', inText, inCode, reached, -, -, -⟩ :=
    exists_parting changes
  have high : stop ≤ byteLength ([] ++ common) := Nat.le_trans before (Nat.le_of_eq reached.symm)
  have here := @Text.bytesBetween_middle [] common (c :: after) start stop (Nat.zero_le _) high
  have there := @Text.bytesBetween_middle [] common (c' :: after') start stop (Nat.zero_le _) high
  rw [List.nil_append] at here there
  rw [inCode, there, ← here, ← inText]

/-- **Around the first change nothing is kept.** What stands around the first byte that changes is
not at the same offsets in the text. -/
theorem bytesBetween_ne_of_change (changes : firstChange? text = some change)
    (low : start ≤ change) (high : change < stop) :
    Text.bytesBetween text start stop ≠ Text.bytesBetween (separateTags text) start stop := by
  obtain ⟨common, c, c', after, after', byte, byte', inText, inCode, rfl, encoded, encoded',
    differ⟩ := exists_parting changes
  intro same
  have inText' := Text.getElem?_bytes common after encoded
  have inCode' := Text.getElem?_bytes common after' encoded'
  rw [← inText, ← Text.getElem?_bytesBetween low high, same,
    Text.getElem?_bytesBetween low high, inCode, inCode'] at inText'
  exact differ (Option.some.inj inText').symm

end Change

/-- A text that is changed nowhere is its own code. -/
theorem separateTags_of_firstChange? {text : List Char} (unchanged : firstChange? text = none) :
    separateTags text = text := by
  have noJoint : (cuts text).joints = [] :=
    List.head?_eq_none_iff.mp (Option.map_eq_none_iff.mp unchanged)
  conv_rhs => rw [eq_of_cuts text, noJoint]
  rw [separateTags_eq, noJoint]
  rfl

/-- There is no first change exactly if no tags have to be separated. -/
theorem firstChange?_eq_none_iff (text : List Char) :
    firstChange? text = none ↔ hasAdjacentTags text = false := by
  have adjacent := hasAdjacentTags_iff text
  rw [firstChange?, Option.map_eq_none_iff, List.head?_eq_none_iff, ← Bool.not_eq_true, adjacent,
    not_not]

/-- Where tags are separated, the code is longer than the text. -/
theorem byteLength_lt_separateTags {text : List Char} (adjacent : hasAdjacentTags text = true) :
    byteLength text < byteLength (separateTags text) := by
  obtain ⟨joint, rest, joints⟩ := List.exists_cons_of_ne_nil ((hasAdjacentTags_iff text).mp adjacent)
  have more : 0 < joint.lineEnd.added := by cases joint.lineEnd <;> decide
  have added := byteLength_inCode (cuts text).joints
  have displaced : displacement (cuts text).joints = joint.lineEnd.added + displacement rest := by
    rw [joints, displacement]
  conv_lhs => rw [eq_of_cuts text]
  rw [separateTags_eq, byteLength_append, byteLength_append]
  omega

end Php

end PhpTestIndex
