import PhpTestIndex.PhpUnit.DocBlock
import PhpTestIndex.Proofs.Php.Lines
import PhpTestIndex.Text.Replace

/-! # Parts of a text

Trimming a text, taking off its start or its end, and cutting it at its lines leave parts of it, and
so do the tags of a documentation block (`PhpTestIndex.PhpUnit.infix_of_mem_docTags`). Undoing
escape sequences makes no part that was not there before, unless it has the character that the
sequences stand for (`PhpTestIndex.Text.infix_of_infix_replacePair`), and breaks no part without the
characters of a sequence (`PhpTestIndex.Text.infix_replacePair`).
-/

namespace PhpTestIndex

namespace Text

variable {chars part : List Char}

/-- Dropping from the end leaves a beginning. -/
theorem dropEndWhile_isPrefix (keeps : Char → Bool) (chars : List Char) :
    dropEndWhile keeps chars <+: chars := by
  rw [dropEndWhile, ← List.reverse_suffix, List.reverse_reverse]
  exact List.dropWhile_suffix keeps

theorem dropWhile_isInfix (drops : Char → Bool) (chars : List Char) :
    chars.dropWhile drops <:+: chars :=
  (List.dropWhile_suffix drops).isInfix

theorem trim_isInfix (chars : List Char) : trim chars <:+: chars :=
  (dropEndWhile_isPrefix isBlank _).isInfix.trans (dropWhile_isInfix isBlank chars)

/-- What is found after a beginning makes the text together with it. -/
theorem eq_of_after? {start : List Char} (found : after? start chars = some part) :
    chars = start ++ part := by
  unfold after? at found
  split at found
  · rename_i starts
    obtain ⟨rest, rfl⟩ := List.isPrefixOf_iff_prefix.mp starts
    rw [← Option.some.inj found, List.drop_left]
  · cases found

/-- What is found before an ending makes the text together with it. -/
theorem eq_of_before? {finish : List Char} (found : before? finish chars = some part) :
    chars = part ++ finish := by
  unfold before? at found
  split at found
  · rename_i ends
    obtain ⟨rest, rfl⟩ := List.isSuffixOf_iff_suffix.mp ends
    rw [← Option.some.inj found, List.length_append, Nat.add_sub_cancel, List.take_left]
  · cases found

theorem infix_of_after? {start : List Char} (found : after? start chars = some part) :
    part <:+: chars :=
  eq_of_after? found ▸ (List.suffix_append start part).isInfix

theorem infix_of_before? {finish : List Char} (found : before? finish chars = some part) :
    part <:+: chars :=
  eq_of_before? found ▸ (List.prefix_append part finish).isInfix

/-- A part of a text, or else the text itself, is a part of the text. -/
theorem getD_isInfix {part? : Option (List Char)} (inside : ∀ part ∈ part?, part <:+: chars) :
    part?.getD chars <:+: chars := by
  cases part? with
  | none => exact List.infix_rfl
  | some part => exact inside part rfl

theorem getD_after?_isInfix (start chars : List Char) :
    (after? start chars).getD chars <:+: chars :=
  getD_isInfix fun _ => infix_of_after?

theorem getD_before?_isInfix (finish chars : List Char) :
    (before? finish chars).getD chars <:+: chars :=
  getD_isInfix fun _ => infix_of_before?

/-- A line is a part of its text. -/
theorem infix_of_mem_lines {line : List Char} (among : line ∈ lines chars) : line <:+: chars := by
  generalize found : lines chars = all at among
  induction all generalizing chars with
  | nil => cases among
  | cons first others ih =>
      rcases List.mem_cons.mp among with rfl | later
      · exact (prefix_of_lines found).isInfix
      · cases others with
        | nil => cases later
        | cons next more =>
            obtain ⟨rest, rfl, split⟩ := exists_of_lines_eq_cons found
            have inRest : line <:+: rest := ih split later
            exact inRest.trans ⟨first ++ ['\n'], [], by simp⟩

/-- The first word is a part of its text. -/
theorem infix_of_firstWord? (found : firstWord? chars = some part) : part <:+: chars := by
  unfold firstWord? at found
  split at found
  · cases found
  · rw [← Option.some.inj found]
    exact (List.takeWhile_prefix _).isInfix.trans (dropWhile_isInfix isBlank chars)

/-- A beginning without a sign ends before the sign comes. -/
theorem prefix_of_prefix_append_cons {first second : List Char} {sign : Char}
    (foreign : sign ∉ part) (starts : part <+: first ++ sign :: second) : part <+: first := by
  rcases List.prefix_or_prefix_of_prefix starts (List.prefix_append first _) with isPrefix | longer
  · exact isPrefix
  · obtain ⟨rest, rfl⟩ := longer
    rw [List.prefix_append_right_inj] at starts
    cases rest with
    | nil => simp
    | cons c rest =>
        obtain ⟨rfl, _⟩ := List.cons_prefix_cons.mp starts
        exact absurd (List.mem_append_right first List.mem_cons_self) foreign

/-- A part without some character stands on one side of it. -/
theorem infix_or_infix_of_append_cons {first second : List Char} {sign : Char}
    (foreign : sign ∉ part) (inside : part <:+: first ++ sign :: second) :
    part <:+: first ∨ part <:+: second := by
  induction first with
  | nil =>
      rcases List.infix_cons_iff.mp inside with starts | later
      · exact .inl (prefix_of_prefix_append_cons foreign starts).isInfix
      · exact .inr later
  | cons c first ih =>
      rcases List.infix_cons_iff.mp inside with starts | later
      · exact .inl (prefix_of_prefix_append_cons foreign starts).isInfix
      · exact (ih later).imp_left fun inFirst => inFirst.trans (List.suffix_cons c first).isInfix

/-- A part stands after the signs before it that it does not have. -/
theorem infix_of_infix_append {signs rest : List Char} (foreign : ∀ sign ∈ signs, sign ∉ part)
    (occupied : part ≠ []) (inside : part <:+: signs ++ rest) : part <:+: rest := by
  induction signs with
  | nil => exact inside
  | cons sign signs ih =>
      obtain ⟨first, others⟩ := List.forall_mem_cons.mp foreign
      have onOneSide : part <:+: [] ∨ part <:+: signs ++ rest :=
        infix_or_infix_of_append_cons first inside
      rcases onOneSide with nowhere | later
      · exact absurd (List.eq_nil_of_infix_nil nowhere) occupied
      · exact ih others later

section ReplacePair

variable {first second replacement : Char}

/-- A beginning that the replacement does not occur in was there before replacing. -/
theorem prefix_of_prefix_replacePair (foreign : replacement ∉ part)
    (starts : part <+: replacePair first second replacement chars) : part <+: chars := by
  fun_induction replacePair first second replacement chars generalizing part with
  | case1 rest _ _ _ =>
      cases part with
      | nil => exact List.nil_prefix
      | cons c part =>
          obtain ⟨rfl, _⟩ := List.cons_prefix_cons.mp starts
          exact absurd List.mem_cons_self foreign
  | case2 a b rest _ ih =>
      cases part with
      | nil => exact List.nil_prefix
      | cons c part =>
          obtain ⟨rfl, later⟩ := List.cons_prefix_cons.mp starts
          rw [List.mem_cons, not_or] at foreign
          exact List.cons_prefix_cons.mpr ⟨rfl, ih foreign.2 later⟩
  | case3 => exact starts

/-- Undoing escape sequences makes no part without the character that they stand for. -/
theorem infix_of_infix_replacePair (foreign : replacement ∉ part)
    (inside : part <:+: replacePair first second replacement chars) : part <:+: chars := by
  fun_induction replacePair first second replacement chars with
  | case1 _ _ rest _ ih =>
      rcases List.infix_cons_iff.mp inside with starts | later
      · cases part with
        | nil => exact List.nil_infix
        | cons c part =>
            obtain ⟨rfl, _⟩ := List.cons_prefix_cons.mp starts
            exact absurd List.mem_cons_self foreign
      · exact (ih later).trans (List.suffix_append [_, _] rest).isInfix
  | case2 a b rest other ih =>
      rcases List.infix_cons_iff.mp inside with starts | later
      · -- The pair does not stand here, so that the text begins as the result does.
        have unchanged : part <+: replacePair first second replacement (a :: b :: rest) := by
          rw [replacePair, if_neg other]
          exact starts
        exact (prefix_of_prefix_replacePair foreign unchanged).isInfix
      · exact (ih later).trans (List.suffix_cons a _).isInfix
  | case3 => exact inside

/-- A beginning that has nothing to replace stays. -/
theorem prefix_replacePair (foreign : first ∉ part) (starts : part <+: chars) :
    part <+: replacePair first second replacement chars := by
  fun_induction replacePair first second replacement chars generalizing part with
  | case1 a b rest isPair =>
      cases part with
      | nil => exact List.nil_prefix
      | cons c part =>
          obtain ⟨rfl, _⟩ := List.cons_prefix_cons.mp starts
          exact absurd (isPair.1 ▸ List.mem_cons_self) foreign
  | case2 a b rest _ ih =>
      cases part with
      | nil => exact List.nil_prefix
      | cons c part =>
          obtain ⟨rfl, later⟩ := List.cons_prefix_cons.mp starts
          rw [List.mem_cons, not_or] at foreign
          exact List.cons_prefix_cons.mpr ⟨rfl, ih foreign.2 later⟩
  | case3 => exact starts

/-- Undoing escape sequences leaves the parts in which no sequence can begin or end. -/
theorem infix_replacePair (foreign : first ∉ part) (foreign' : second ∉ part)
    (inside : part <:+: chars) : part <:+: replacePair first second replacement chars := by
  fun_induction replacePair first second replacement chars with
  | case1 a b rest isPair ih =>
      obtain ⟨rfl, rfl⟩ := isPair
      by_cases empty : part = []
      · exact empty ▸ List.nil_infix
      · have signs : ∀ sign ∈ [a, b], sign ∉ part := by simp [foreign, foreign']
        have later : part <:+: rest := infix_of_infix_append signs empty inside
        exact (ih later).trans (List.suffix_cons _ _).isInfix
  | case2 a b rest other ih =>
      rcases List.infix_cons_iff.mp inside with starts | later
      · have kept := @prefix_replacePair _ _ first second replacement foreign starts
        rw [replacePair, if_neg other] at kept
        exact kept.isInfix
      · exact (ih later).trans (List.suffix_cons a _).isInfix
  | case3 => exact inside

end ReplacePair

end Text

namespace PhpUnit

/-- What an entry of a documentation block says. -/
def DocTag.texts (tag : DocTag) : List String :=
  tag.value :: tag.rows

/-- A line of a docblock without the signs of the comment is a part of the line. -/
theorem docLine_isInfix (line : List Char) : docLine line <:+: line := by
  have opened := (Text.getD_after?_isInfix "/**".toList _).trans (Text.trim_isInfix line)
  have closed := (Text.getD_before?_isInfix "*/".toList _).trans opened
  have trimmed := (Text.trim_isInfix _).trans closed
  exact (Text.trim_isInfix _).trans ((Text.dropWhile_isInfix _ _).trans trimmed)

/-- A line that starts a tag gives it a value and no further rows. -/
theorem infix_of_docTag? {line : List Char} {tag : DocTag} (found : docTag? line = some tag) :
    tag.value.toList <:+: line ∧ tag.rows = [] := by
  unfold docTag? at found
  split at found
  · rename_i first rest
    split at found
    · have inRest := Text.dropWhile_isInfix isTagCharacter rest
      have inLine : rest <:+: '@' :: first :: rest := (List.suffix_append ['@', first] rest).isInfix
      dsimp only at found
      split at found
      · rw [← Option.some.inj found]
        exact ⟨List.nil_infix, rfl⟩
      · rename_i blank value split
        split at found
        · rw [← Option.some.inj found, String.toList_ofList]
          rw [split] at inRest
          have inValue := (Text.trim_isInfix value).trans (List.suffix_cons blank value).isInfix
          exact ⟨inValue.trans (inRest.trans inLine), rfl⟩
        · cases found
    · cases found
  · cases found

/-- Reading one more line keeps to the block. -/
theorem infix_readDocLine {block line : List Char} {found : List String × List DocTag}
    (inside : line <:+: block) (rows : ∀ row ∈ found.1, row.toList <:+: block)
    (tags : ∀ tag ∈ found.2, ∀ value ∈ tag.texts, value.toList <:+: block) :
    (∀ row ∈ (readDocLine line found).1, row.toList <:+: block) ∧
      ∀ tag ∈ (readDocLine line found).2, ∀ value ∈ tag.texts, value.toList <:+: block := by
  have inBlock := (docLine_isInfix line).trans inside
  unfold readDocLine
  split
  · exact ⟨rows, tags⟩
  · rename_i c rest isLine
    rw [isLine] at inBlock
    split
    · refine ⟨List.forall_mem_cons.mpr ⟨?_, rows⟩, tags⟩
      rw [String.toList_ofList]
      exact inBlock
    · rename_i tag isTag
      have value := (infix_of_docTag? isTag).1.trans inBlock
      exact ⟨by simp, List.forall_mem_cons.mpr ⟨List.forall_mem_cons.mpr ⟨value, rows⟩, tags⟩⟩

/-- Reading the lines of a block, from the last to the first, keeps to the block. -/
theorem infix_foldr_readDocLine {block : List Char} {lines : List (List Char)}
    (inside : ∀ line ∈ lines, line <:+: block) :
    (∀ row ∈ (lines.foldr readDocLine ([], [])).1, row.toList <:+: block) ∧
      ∀ tag ∈ (lines.foldr readDocLine ([], [])).2, ∀ value ∈ tag.texts,
        value.toList <:+: block := by
  induction lines with
  | nil => exact ⟨by simp, by simp⟩
  | cons line rest ih =>
      obtain ⟨first, others⟩ := List.forall_mem_cons.mp inside
      obtain ⟨rows, tags⟩ := ih others
      rw [List.foldr_cons]
      exact infix_readDocLine first rows tags

/-- What the tags of a documentation block say stands in the block. -/
theorem infix_of_mem_docTags {block : List Char} {tag : DocTag} {value : String}
    (among : tag ∈ docTags block) (said : value ∈ tag.texts) : value.toList <:+: block := by
  rw [docTags] at among
  have inside : ∀ line ∈ Text.lines block, line <:+: block :=
    fun _ isLine => Text.infix_of_mem_lines isLine
  exact (infix_foldr_readDocLine inside).2 tag among value said

end PhpUnit

end PhpTestIndex
