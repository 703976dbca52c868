import PhpTestIndex.Php.Comment
import PhpTestIndex.Proofs.Php.Places
import PhpTestIndex.Proofs.Source.Advance

/-! # Comments without the line break at their end

A comment stands in a file if its text stands at its offsets and its span is right
(`PhpTestIndex.Php.Comment.StandsIn`). Without the line break at its end it still does
(`PhpTestIndex.Php.Comment.normalize_standsIn`): the end that is computed from the text that remains
is the one that counting from the start of the file leads to.
-/

namespace PhpTestIndex.Php

/-- A text ends with one line break after what is kept of it, or with none. -/
inductive EndsWithBreak : (kept lineBreak : List Char) → Prop
  | both (kept : List Char) : EndsWithBreak kept ['\r', '\n']
  | lineFeed {kept : List Char} (noReturn : kept.getLast? ≠ some '\r') : EndsWithBreak kept ['\n']
  | carriageReturn (kept : List Char) : EndsWithBreak kept ['\r']
  | none {text : List Char} (noLineFeed : text.getLast? ≠ some '\n')
      (noReturn : text.getLast? ≠ some '\r') : EndsWithBreak text []

theorem EndsWithBreak.byteLength_eq {kept lineBreak : List Char}
    (ends : EndsWithBreak kept lineBreak) : byteLength lineBreak = lineBreak.length := by
  cases ends <;> decide

namespace Comment

section Breaks

variable {text : List Char} {c : Char}

theorem getD_before?_append (kept finish : List Char) :
    (Text.before? finish (kept ++ finish)).getD (kept ++ finish) = kept := by
  rw [Text.before?_append, Option.getD_some]

/-- A text that ends with another character is left as it is. -/
theorem getD_before?_of_getLast?_ne (other : text.getLast? ≠ some c) :
    (Text.before? [c] text).getD text = text := by
  refine Text.getD_before?_of_not_suffix ?_
  rintro ⟨kept, rfl⟩
  exact other List.getLast?_concat

/-- **What is removed is one line break.** -/
theorem exists_lineBreak (text : List Char) :
    ∃ lineBreak, text = withoutLineBreak text ++ lineBreak ∧
      EndsWithBreak (withoutLineBreak text) lineBreak := by
  unfold withoutLineBreak
  dsimp only
  by_cases lineFeed : text.getLast? = some '\n'
  · obtain ⟨kept, rfl⟩ := List.getLast?_eq_some_iff.mp lineFeed
    rw [getD_before?_append]
    by_cases both : kept.getLast? = some '\r'
    · obtain ⟨shorter, rfl⟩ := List.getLast?_eq_some_iff.mp both
      rw [getD_before?_append]
      exact ⟨['\r', '\n'], by simp, .both shorter⟩
    · rw [getD_before?_of_getLast?_ne both]
      exact ⟨['\n'], rfl, .lineFeed both⟩
  · rw [getD_before?_of_getLast?_ne lineFeed]
    by_cases carriageReturn : text.getLast? = some '\r'
    · obtain ⟨kept, rfl⟩ := List.getLast?_eq_some_iff.mp carriageReturn
      rw [getD_before?_append]
      exact ⟨['\r'], rfl, .carriageReturn kept⟩
    · rw [getD_before?_of_getLast?_ne carriageReturn]
      exact ⟨[], (List.append_nil text).symm, .none lineFeed carriageReturn⟩

end Breaks

/-- The text of the comment is what stands at its offsets in a file, and its span goes from one
right position to another. -/
structure StandsIn (comment : Comment) (code : List Char) : Prop where
  text : comment.text = Text.slice code comment.span.start.offset comment.span.stop.offset
  start : comment.span.start.IsIn code
  stop : comment.span.stop.IsIn code
  forward : comment.span.start.offset ≤ comment.span.stop.offset

variable {code before after : List Char} {comment : Comment}

/-- A comment stands in a text if its positions are those before and after its text. -/
theorem standsIn_of_append (start : comment.span.start.IsAfter before)
    (stop : comment.span.stop.IsAfter (before ++ comment.text))
    (whole : code = before ++ comment.text ++ after) : comment.StandsIn code where
  text := by rw [start.offset, stop.offset, whole, Text.slice_eq]
  start := ⟨before, comment.text ++ after, by rw [whole, List.append_assoc], start⟩
  stop := ⟨before ++ comment.text, after, whole, stop⟩
  forward := by
    rw [start.offset, stop.offset, byteLength_append]
    exact Nat.le_add_right _ _

/-- The file is cut at the ends of a comment that stands in it. -/
theorem StandsIn.exists_append (stands : comment.StandsIn code) :
    ∃ before after, code = before ++ comment.text ++ after ∧
      comment.span.start.IsAfter before ∧ comment.span.stop.IsAfter (before ++ comment.text) := by
  obtain ⟨before, rest, whole, start⟩ := stands.start
  obtain ⟨upTo, after, whole', stop⟩ := stands.stop
  have ordered : byteLength before ≤ byteLength upTo := by
    rw [← start.offset, ← stop.offset]
    exact stands.forward
  obtain ⟨middle, rfl⟩ : before <+: upTo :=
    prefix_of_byteLength_le ⟨rest, whole.symm⟩ ⟨after, whole'.symm⟩ ordered
  have text : comment.text = middle := by
    rw [stands.text, start.offset, stop.offset, whole', Text.slice_eq]
  rw [text]
  exact ⟨before, after, whole', start, stop⟩

/-- The end of a comment is computed from the text that remains, if anything is removed. -/
theorem normalize_eq (comment : Comment) :
    comment.normalize = comment ∧ withoutLineBreak comment.text = comment.text ∨
      comment.normalize =
        ⟨withoutLineBreak comment.text,
          ⟨comment.span.start, comment.span.start.advance (withoutLineBreak comment.text)⟩⟩ := by
  unfold normalize
  dsimp only
  split
  · rename_i sameLength
    obtain ⟨lineBreak, whole, _⟩ := exists_lineBreak comment.text
    exact .inl ⟨rfl, List.IsPrefix.eq_of_length ⟨lineBreak, whole.symm⟩ sameLength⟩
  · exact .inr rfl

/-- Normalizing a comment takes the line break at its end off its text. -/
theorem normalize_text (comment : Comment) :
    comment.normalize.text = withoutLineBreak comment.text := by
  rcases comment.normalize_eq with ⟨same, kept⟩ | computed
  · rw [same, kept]
  · rw [computed]

/-- Normalizing a comment leaves it where it starts. -/
theorem normalize_start (comment : Comment) :
    comment.normalize.span.start = comment.span.start := by
  rcases comment.normalize_eq with ⟨same, _⟩ | computed
  · rw [same]
  · rw [computed]

/-- **A comment without its line break stands where it stood.** One line break is removed at the end
of the text of a comment, and nothing else; the start stays, and the end is again the right one. In
computing it no word wraps, and reading one text after another leads where reading both at once
does. -/
theorem normalize_standsIn (short : byteLength code < UInt32.size)
    (stands : comment.StandsIn code) :
    (∃ lineBreak, comment.text = comment.normalize.text ++ lineBreak ∧
      EndsWithBreak comment.normalize.text lineBreak ∧
      comment.normalize.span.stop.offset + lineBreak.length = comment.span.stop.offset) ∧
    comment.normalize.span.start = comment.span.start ∧
    comment.normalize.StandsIn code ∧
    comment.span.start.ReadsWithin comment.normalize.text ∧
    ∀ (position : Position) (first second : List Char),
      (position.advance first).advance second = position.advance (first ++ second) := by
  obtain ⟨before, after, whole, start, stop⟩ := stands.exists_append
  obtain ⟨lineBreak, text, ends⟩ := exists_lineBreak comment.text
  rw [← normalize_text] at text ends
  have wholeAgain : code = before ++ comment.normalize.text ++ (lineBreak ++ after) := by
    rw [whole, text]
    simp
  have within : comment.span.start.ReadsWithin comment.normalize.text := by
    refine start.readsWithin ?_ ?_
    · -- The line at the end of the whole comment is a word, and this one is not after it.
      have line := comment.span.stop.line.toNat_lt_size
      rw [stop.line, text, ← List.append_assoc, List.count_append] at line
      omega
    · rw [wholeAgain, byteLength_append] at short
      omega
  have stopAgain :
      comment.normalize.span.stop.IsAfter (before ++ comment.normalize.text) := by
    rcases comment.normalize_eq with ⟨same, _⟩ | computed
    · rw [same]
      exact stop
    · have reached := start.advance within
      rw [normalize_text] at reached ⊢
      rw [computed]
      exact reached
  have startAgain : comment.normalize.span.start.IsAfter before := by
    rw [normalize_start]
    exact start
  refine ⟨⟨lineBreak, text, ends, ?_⟩, comment.normalize_start,
    standsIn_of_append startAgain stopAgain wholeAgain, within, Position.advance_append⟩
  rw [stopAgain.offset, stop.offset, ← ends.byteLength_eq, ← byteLength_append,
    List.append_assoc, ← text]

/-- A file with a comment of two lines. -/
def withComment : List Char :=
  "<?php\n  /* é\r\n é */\r\n$a;".toList

/-- The comment together with the line break after it. -/
def ofTwoLines : Comment :=
  ⟨"/* é\r\n é */\r\n".toList, ⟨⟨2, 2, 8⟩, ⟨4, 0, 23⟩⟩⟩

/-- A comment over two lines with a carriage return and characters of two bytes loses the line break
at its end alone, and still stands in the text. -/
theorem ofTwoLines_standsIn :
    byteLength withComment < UInt32.size ∧ ofTwoLines.StandsIn withComment ∧
      ofTwoLines.normalize = ⟨"/* é\r\n é */".toList, ⟨⟨2, 2, 8⟩, ⟨3, 6, 21⟩⟩⟩ ∧
      ofTwoLines.normalize.StandsIn withComment := by
  have short : byteLength withComment < UInt32.size := by decide +kernel
  have stands : ofTwoLines.StandsIn withComment := by
    refine @standsIn_of_append withComment "<?php\n  ".toList "$a;".toList ofTwoLines
      ⟨?_, ?_, ?_⟩ ⟨?_, ?_, ?_⟩ ?_ <;> decide +kernel
  obtain ⟨_, _, standsAgain, _⟩ := normalize_standsIn short stands
  exact ⟨short, stands, by decide +kernel, standsAgain⟩

end Comment

end PhpTestIndex.Php
