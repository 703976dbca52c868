import Mathlib.Data.List.TakeWhile
import PhpTestIndex.Text.Piece

/-! # Pieces of texts that are put together

What a text ends with is found after whatever stands before it. A separator between two texts cuts
between them and nowhere else (`PhpTestIndex.Text.split_append`), so that the pieces with a
separator after each are the text again (`PhpTestIndex.Text.flatMap_split`). The last piece of two
texts is that of the second one, if the separator occurs in it
(`PhpTestIndex.Text.afterLast_append_of_mem`).
-/

namespace PhpTestIndex.Text

variable {separator : Char} {first second piece chars : List Char}

/-- A search for a separator passes a text without it. -/
theorem bne_of_not_mem (absent : separator ∉ chars) : ∀ c ∈ chars, (c != separator) = true := by
  intro c member
  rw [bne_iff_ne]
  rintro rfl
  exact absent member

theorem before?_append (chars finish : List Char) :
    before? finish (chars ++ finish) = some chars := by
  simp [before?]

theorem getD_after?_of_not_prefix {start : List Char} (other : ¬ start <+: chars) :
    (after? start chars).getD chars = chars := by
  rw [after?, if_neg (by simpa using other), Option.getD_none]

theorem getD_before?_of_not_suffix {finish : List Char} (other : ¬ finish <:+ chars) :
    (before? finish chars).getD chars = chars := by
  rw [before?, if_neg (by simpa using other), Option.getD_none]

theorem split_cons_of_ne {c : Char} (other : c ≠ separator) {rest : List Char}
    {more : List (List Char)} (found : split separator rest = piece :: more) :
    split separator (c :: rest) = (c :: piece) :: more := by
  rw [split, if_neg other, found]

/-- A text without the separator is one piece. -/
theorem split_of_not_mem (absent : separator ∉ piece) : split separator piece = [piece] := by
  induction piece with
  | nil => rfl
  | cons c rest ih =>
      obtain ⟨other, later⟩ : separator ≠ c ∧ separator ∉ rest := by simpa using absent
      exact split_cons_of_ne (Ne.symm other) (ih later)

/-- A separator cuts between the texts around it. -/
theorem split_append (separator : Char) (first second : List Char) :
    split separator (first ++ separator :: second) =
      split separator first ++ split separator second := by
  induction first with
  | nil => simp [split]
  | cons c rest ih =>
      by_cases isSeparator : c = separator
      · rw [List.cons_append, isSeparator, split, if_pos rfl, split, if_pos rfl, ih,
          List.cons_append]
      · obtain ⟨piece, more, found⟩ := List.exists_cons_of_ne_nil (split_ne_nil separator rest)
        rw [found, List.cons_append] at ih
        rw [List.cons_append, split_cons_of_ne isSeparator ih,
          split_cons_of_ne isSeparator found, List.cons_append]

/-- There is one piece more than separators. -/
theorem length_split (separator : Char) (chars : List Char) :
    (split separator chars).length = chars.count separator + 1 := by
  induction chars with
  | nil => rfl
  | cons c rest ih =>
      by_cases isSeparator : c = separator
      · rw [isSeparator, split, if_pos rfl, List.length_cons, ih, List.count_cons_self]
      · obtain ⟨piece, more, found⟩ := List.exists_cons_of_ne_nil (split_ne_nil separator rest)
        rw [found] at ih
        rw [split_cons_of_ne isSeparator found, List.count_cons_of_ne isSeparator, ← ih,
          List.length_cons, List.length_cons]

/-- The pieces of a text, with a separator after each. -/
theorem flatMap_split (separator : Char) (chars : List Char) :
    (split separator chars).flatMap (fun piece => piece ++ [separator]) = chars ++ [separator] := by
  induction chars with
  | nil => rfl
  | cons c rest ih =>
      by_cases isSeparator : c = separator
      · rw [isSeparator, split, if_pos rfl, List.flatMap_cons, ih, List.nil_append,
          List.singleton_append, List.cons_append]
      · obtain ⟨piece, more, found⟩ := List.exists_cons_of_ne_nil (split_ne_nil separator rest)
        rw [found, List.flatMap_cons] at ih
        rw [split_cons_of_ne isSeparator found, List.flatMap_cons, List.cons_append,
          List.cons_append, ih, List.cons_append]

/-- No piece has the separator in it. -/
theorem not_mem_of_mem_split (member : piece ∈ split separator chars) : separator ∉ piece := by
  induction chars generalizing piece with
  | nil =>
      rw [split, List.mem_singleton] at member
      exact member ▸ List.not_mem_nil
  | cons c rest ih =>
      by_cases isSeparator : c = separator
      · rw [isSeparator, split, if_pos rfl] at member
        rcases List.mem_cons.mp member with rfl | later
        · exact List.not_mem_nil
        · exact ih later
      · obtain ⟨first, more, found⟩ := List.exists_cons_of_ne_nil (split_ne_nil separator rest)
        rw [split_cons_of_ne isSeparator found] at member
        rw [found] at ih
        rcases List.mem_cons.mp member with rfl | later
        · rw [List.mem_cons, not_or]
          exact ⟨Ne.symm isSeparator, ih List.mem_cons_self⟩
        · exact ih (List.mem_cons_of_mem first later)

/-- What follows the last separator is not changed by what stands before it. -/
theorem afterLast_append_of_mem (member : separator ∈ second) (first : List Char) :
    afterLast separator (first ++ second) = afterLast separator second := by
  have stops : (second.reverse.takeWhile fun c => c != separator).length ≠
      second.reverse.length := by
    intro whole
    have all := List.takeWhile_eq_self_iff.mp ((List.takeWhile_prefix _).eq_of_length whole)
    simpa using all separator (List.mem_reverse.mpr member)
  rw [afterLast, List.reverse_append, List.takeWhile_append, if_neg stops, afterLast]

/-- What comes behind the last separator goes on with a text that has none. -/
theorem afterLast_append_of_not_mem (absent : separator ∉ second) (first : List Char) :
    afterLast separator (first ++ second) = afterLast separator first ++ second := by
  have passed := bne_of_not_mem (mt List.mem_reverse.mp absent)
  rw [afterLast, List.reverse_append, List.takeWhile_append_of_pos passed, List.reverse_append,
    List.reverse_reverse, afterLast]

end PhpTestIndex.Text
