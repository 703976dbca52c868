import PhpTestIndex.Proofs.Php.InlineTag
import PhpTestIndex.Proofs.Text.Piece

/-! # What separating tags does to lines

Separating adjacent tags changes a text line by line. A line gets the placeholder if it begins with
the opening tag of a pair, and loses the carriage return at its end if the closing tag of a pair
stands before it; which pairs are separated is seen from a line, the one before it and the one after
it (`PhpTestIndex.Php.lines_separateTags`). So no line feed comes or goes, and what stands outside
the pairs stays on its line (`PhpTestIndex.Php.separateTags_keeps_lines`).

The characters of an opening tag that was just separated belong to no further closing tag: in
`<?>` after a separated line the question mark is taken.
-/

namespace PhpTestIndex

namespace Text

/-- Put some characters before the first line. -/
def extendFirst (start : List Char) : List (List Char) → List (List Char)
  | [] => [start]
  | line :: rest => (start ++ line) :: rest

/-- A character that is no line feed joins the first line. -/
theorem lines_cons_of_ne {c : Char} (other : c ≠ '\n') (rest : List Char) :
    lines (c :: rest) = extendFirst [c] (lines rest) := by
  rw [lines, split, if_neg other, lines]
  cases split '\n' rest <;> rfl

theorem lines_lineFeed (rest : List Char) : lines ('\n' :: rest) = [] :: lines rest := by
  rw [lines, split, if_pos rfl, lines]

/-- A text without line feeds joins the first line. -/
theorem lines_append {start : List Char} (unbroken : '\n' ∉ start) (rest : List Char) :
    lines (start ++ rest) = extendFirst start (lines rest) := by
  induction start with
  | nil => cases found : lines rest with
    | nil => exact absurd found (split_ne_nil _ _)
    | cons line more => simpa [extendFirst] using found
  | cons c start ih =>
      rw [List.mem_cons, not_or] at unbroken
      rw [List.cons_append, lines_cons_of_ne (Ne.symm unbroken.1), ih unbroken.2]
      cases lines rest <;> rfl

theorem exists_lines_eq_cons (chars : List Char) :
    ∃ line more, lines chars = line :: more :=
  List.exists_cons_of_ne_nil (split_ne_nil _ _)

/-- The first line starts the text. -/
theorem prefix_of_lines {chars line : List Char} {more : List (List Char)}
    (found : lines chars = line :: more) : line <+: chars := by
  induction chars generalizing line more with
  | nil =>
      cases found
      exact List.nil_prefix
  | cons c chars ih =>
      by_cases isBreak : c = '\n'
      · rw [isBreak, lines_lineFeed] at found
        injection found with empty
        rw [← empty]
        exact List.nil_prefix
      · obtain ⟨first, others, split⟩ := exists_lines_eq_cons chars
        rw [lines_cons_of_ne isBreak, split] at found
        injection found with same
        rw [← same]
        exact List.cons_prefix_cons.mpr ⟨rfl, ih split⟩

/-- After the first line and a line feed stands what the other lines are of. -/
theorem exists_of_lines_eq_cons {chars line next : List Char} {more : List (List Char)}
    (found : lines chars = line :: next :: more) :
    ∃ rest, chars = line ++ '\n' :: rest ∧ lines rest = next :: more := by
  induction chars generalizing line with
  | nil => cases found
  | cons c chars ih =>
      by_cases isBreak : c = '\n'
      · rw [isBreak, lines_lineFeed] at found
        injection found with empty others
        exact ⟨chars, by rw [isBreak, ← empty]; rfl, others⟩
      · obtain ⟨first, others, split⟩ := exists_lines_eq_cons chars
        rw [lines_cons_of_ne isBreak, split] at found
        injection found with same others
        rw [others] at split
        obtain ⟨rest, whole, later⟩ := ih split
        exact ⟨rest, by rw [whole, ← same]; rfl, later⟩

/-- The number of lines is one more than that of the line feeds. -/
theorem length_lines (chars : List Char) : (lines chars).length = chars.count '\n' + 1 :=
  length_split '\n' chars

/-- The number of line feeds before an offset. -/
def lineAt (chars : List Char) (offset : Nat) : Nat :=
  ((bytes chars).take offset).count 10

/-- A byte of the middle of a text, and its line. -/
theorem byte_middle {before middle : List Char} {offset : Nat}
    (low : byteLength before ≤ offset) (high : offset < byteLength (before ++ middle))
    (after : List Char) :
    (bytes (before ++ middle ++ after))[offset]? = (bytes middle)[offset - byteLength before]? ∧
      lineAt (before ++ middle ++ after) offset =
        (bytes before).count 10 + lineAt middle (offset - byteLength before) := by
  have lengthBefore := length_bytes before
  have lengthMiddle := length_bytes middle
  rw [byteLength_append] at high
  unfold lineAt
  rw [bytes_append, bytes_append, List.append_assoc]
  constructor
  · rw [List.getElem?_append_right (by omega), List.getElem?_append_left (by omega), lengthBefore]
  · rw [List.take_append, List.take_of_length_le (by omega), List.count_append,
      List.take_append_of_le_length (by omega), lengthBefore]

/-- Between the offsets of a part of a text there are the bytes of the part. -/
theorem bytesBetween_whole (before middle after : List Char) :
    bytesBetween (before ++ middle ++ after) (byteLength before) (byteLength (before ++ middle)) =
      bytes middle := by
  rw [bytesBetween_middle (Nat.le_refl _) (Nat.le_refl _), byteLength_append, Nat.sub_self,
    Nat.add_sub_cancel_left, bytesBetween, List.drop_zero, Nat.sub_zero, ← length_bytes,
    List.take_length]

end Text

namespace Php

/-- What is left of a line for a closing tag at its end: the opening tag of a pair is taken. -/
def freePart (marked : Bool) (line : List Char) : List Char :=
  if marked then line.drop 2 else line

/-- A closing tag at the end of a line and an opening tag at the start of the next one are a pair;
`marked` says that the line begins with the opening tag of a pair itself. -/
def areJoined (marked : Bool) (line next : List Char) : Bool :=
  ("?>".toList.isSuffixOf (freePart marked line) ||
    "?>\r".toList.isSuffixOf (freePart marked line)) && "<?".toList.isPrefixOf next

/-- A line without the carriage return at its end. -/
def withoutReturn (line : List Char) : List Char :=
  (Text.before? ['\r'] line).getD line

/-- A line after separating; `joined` says that it ends with the closing tag of a pair. -/
def separateLine (marked joined : Bool) (line : List Char) : List Char :=
  (if marked then placeholder else []) ++ if joined then withoutReturn line else line

/-- The lines of a text after separating. -/
def separateLines (marked : Bool) : List (List Char) → List (List Char)
  | [] => []
  | [line] => [separateLine marked false line]
  | line :: next :: rest =>
    let joined := areJoined marked line next
    separateLine marked joined line :: separateLines joined (next :: rest)

section Lines

theorem withoutReturn_append_return (line : List Char) : withoutReturn (line ++ ['\r']) = line := by
  simp [withoutReturn, Text.before?]

/-- A line that ends with another character stays as it is. -/
theorem withoutReturn_append_of_ne {last : Char} (other : last ≠ '\r') (line : List Char) :
    withoutReturn (line ++ [last]) = line ++ [last] := by
  have kept : ¬ ['\r'] <:+ line ++ [last] := by
    intro ends
    obtain ⟨before, same⟩ := ends
    injection List.append_inj_right' same rfl with isReturn
    exact other isReturn.symm
  rw [withoutReturn, Text.before?, if_neg (by simpa using kept)]
  rfl

/-- Only the end of a line decides whether a carriage return is taken off. -/
theorem withoutReturn_append {line : List Char} (occupied : line ≠ []) (start : List Char) :
    withoutReturn (start ++ line) = start ++ withoutReturn line := by
  obtain ⟨before, last, rfl⟩ := (List.eq_nil_or_concat line).resolve_left occupied
  rw [List.concat_eq_append, ← List.append_assoc]
  by_cases isReturn : last = '\r'
  · rw [isReturn, withoutReturn_append_return, withoutReturn_append_return]
  · rw [withoutReturn_append_of_ne isReturn, withoutReturn_append_of_ne isReturn,
      List.append_assoc]

/-- A line that ends with a closing tag is not empty. -/
theorem ne_nil_of_areJoined {line next : List Char} (joined : areJoined false line next = true) :
    line ≠ [] := by
  rintro rfl
  revert joined
  simp [areJoined, freePart]

/-- What stands before a line that is joined or not stays before it. -/
theorem separateLine_append {marked joined : Bool} {line : List Char}
    (occupied : joined = true → line ≠ []) (start : List Char) :
    separateLine marked joined (start ++ line) =
      (if marked then placeholder else []) ++ start ++ separateLine false joined line := by
  unfold separateLine
  cases joined with
  | false => simp
  | true => simp [withoutReturn_append (occupied rfl)]

/-- The first line goes on after some characters as it would without them. -/
theorem separateLines_append {marked : Bool} {start line : List Char} {more : List (List Char)}
    (apart : ∀ next rest, more = next :: rest →
      areJoined marked (start ++ line) next = areJoined false line next) :
    separateLines marked ((start ++ line) :: more) =
      Text.extendFirst ((if marked then placeholder else []) ++ start)
        (separateLines false (line :: more)) := by
  cases more with
  | nil =>
      have plain : (false = true → line ≠ []) := fun absurd => by cases absurd
      rw [separateLines, separateLines, separateLine_append plain]
      rfl
  | cons next rest =>
      have same := apart next rest rfl
      have occupied : areJoined false line next = true → line ≠ [] := ne_nil_of_areJoined
      rw [separateLines, separateLines, same, separateLine_append occupied]
      rfl

/-- A character completes a pair only where tags are separated. -/
theorem areJoined_cons {c : Char} {line next rest : List Char} (starts : next <+: rest)
    (noLineFeed : ∀ after, c = '?' →
      line ++ '\n' :: rest ≠ '>' :: '\n' :: '<' :: '?' :: after)
    (noReturn : ∀ after, c = '?' →
      line ++ '\n' :: rest ≠ '>' :: '\r' :: '\n' :: '<' :: '?' :: after) :
    areJoined false (c :: line) next = areJoined false line next := by
  by_cases opens : "<?".toList <+: next
  · obtain ⟨after, rfl⟩ := opens.trans starts
    have lineFeed : "?>".toList ≠ c :: line := by
      intro whole
      cases whole
      exact noLineFeed after rfl rfl
    have carriageReturn : "?>\r".toList ≠ c :: line := by
      intro whole
      cases whole
      exact noReturn after rfl rfl
    rw [Bool.eq_iff_iff]
    simp only [areJoined, freePart, Bool.false_eq_true, if_false, Bool.and_eq_true,
      Bool.or_eq_true, List.isSuffixOf_iff_suffix, List.suffix_cons_iff, lineFeed,
      carriageReturn, false_or]
  · have closed : "<?".toList.isPrefixOf next = false :=
      Bool.eq_false_iff.mpr fun isPrefix => opens (List.isPrefixOf_iff_prefix.mp isPrefix)
    simp only [areJoined, closed, Bool.and_false]

/-- Two adjacent tags stand on two lines, the closing one at the end of the first of them. -/
theorem lines_of_pair {closing start : List Char} (unbroken : '\n' ∉ closing)
    (within : '\n' ∉ start) (rest : List Char) :
    Text.lines (closing ++ '\n' :: (start ++ rest)) =
      closing :: Text.extendFirst start (Text.lines rest) := by
  rw [Text.lines_append unbroken, Text.lines_lineFeed, Text.lines_append within]
  simp [Text.extendFirst]

/-- Two lines with a pair of tags between them. -/
theorem lines_of_separated {closing rest code : List Char} (unbroken : '\n' ∉ closing)
    (kept : '\n' ∉ withoutReturn closing) (joined : areJoined false closing ['<', '?'] = true)
    (further : Text.lines code = separateLines false (Text.lines rest)) :
    Text.lines (withoutReturn closing ++ '\n' :: (placeholder ++ '<' :: '?' :: code)) =
      separateLines false (Text.lines (closing ++ '\n' :: '<' :: '?' :: rest)) := by
  obtain ⟨line, more, split⟩ := Text.exists_lines_eq_cons rest
  have marks : '\n' ∉ placeholder ++ ['<', '?'] := by decide
  have inText : Text.lines (closing ++ '\n' :: '<' :: '?' :: rest) =
      closing :: ('<' :: '?' :: line) :: more := by
    have lines := @lines_of_pair closing ['<', '?'] unbroken (by decide) rest
    rwa [split] at lines
  have inCode := lines_of_pair kept marks code
  have isPair : areJoined false closing ('<' :: '?' :: line) = true := by
    simpa [areJoined] using joined
  rw [List.append_assoc] at inCode
  rw [inText, separateLines, isPair]
  refine inCode.trans ?_
  rw [further, split]
  congr 1
  exact (@separateLines_append true ['<', '?'] line more fun _ _ _ => rfl).symm

/-- **Lines are separated one by one.** Which pairs of tags are separated, and so what becomes of a
line, is seen from the line, the one before it and the one after it. -/
theorem lines_separateTags (text : List Char) :
    Text.lines (separateTags text) = separateLines false (Text.lines text) := by
  fun_induction separateTags text with
  | case1 rest ih =>
      exact @lines_of_separated ['?', '>'] rest _ (by decide) (by decide) (by decide) ih
  | case2 rest ih =>
      exact @lines_of_separated ['?', '>', '\r'] rest _ (by decide) (by decide) (by decide) ih
  | case3 c rest noLineFeed noReturn ih =>
      obtain ⟨line, more, split⟩ := Text.exists_lines_eq_cons rest
      by_cases isBreak : c = '\n'
      · subst isBreak
        rw [Text.lines_lineFeed, Text.lines_lineFeed, ih, split]
        rfl
      · rw [Text.lines_cons_of_ne isBreak, Text.lines_cons_of_ne isBreak, ih, split]
        symm
        apply @separateLines_append false [c] line more
        intro next later same
        rw [same] at split
        obtain ⟨tail, whole, splitTail⟩ := Text.exists_of_lines_eq_cons split
        apply areJoined_cons (Text.prefix_of_lines splitTail)
        · intro after isMark same
          exact noLineFeed after isMark (whole.trans same)
        · intro after isMark same
          exact noReturn after isMark (whole.trans same)
  | case4 => rfl

/-- Tags that are joined stand where they should: one at the end of a line, the other at the start
of the next one. -/
theorem of_areJoined {marked : Bool} {line next : List Char}
    (joined : areJoined marked line next = true) :
    ("?>".toList <:+ line ∨ "?>\r".toList <:+ line) ∧ "<?".toList <+: next := by
  have part : freePart marked line <:+ line := by
    cases marked with
    | false => exact List.suffix_refl line
    | true => exact List.drop_suffix 2 line
  simp only [areJoined, Bool.and_eq_true, Bool.or_eq_true, List.isSuffixOf_iff_suffix,
    List.isPrefixOf_iff_prefix] at joined
  obtain ⟨closes, opens⟩ := joined
  exact ⟨closes.imp (fun ends => ends.trans part) fun ends => ends.trans part, opens⟩

/-- A line with the closing tag of a pair stays, or loses the carriage return after the tag. -/
theorem withoutReturn_cases {line : List Char}
    (closes : "?>".toList <:+ line ∨ "?>\r".toList <:+ line) :
    withoutReturn line = line ∨
      line = withoutReturn line ++ ['\r'] ∧ "?>".toList <:+ withoutReturn line := by
  rcases closes with ⟨before, rfl⟩ | ⟨before, rfl⟩
  · left
    have last : before ++ "?>".toList = (before ++ ['?']) ++ ['>'] := by simp
    rw [last]
    exact withoutReturn_append_of_ne (by decide) _
  · right
    have last : before ++ "?>\r".toList = (before ++ "?>".toList) ++ ['\r'] := by simp
    rw [last, withoutReturn_append_return]
    exact ⟨rfl, List.suffix_append _ _⟩

/-- What becomes of the line at a place, and why. -/
theorem getElem?_separateLines {marked : Bool} {lines : List (List Char)} {index : Nat}
    {line : List Char} (found : lines[index]? = some line) :
    ∃ mark joined, (separateLines marked lines)[index]? = some (separateLine mark joined line) ∧
      (mark = true → (index = 0 ∧ marked = true) ∨ ∃ earlier previous mark',
        index = earlier + 1 ∧ lines[earlier]? = some previous ∧
          areJoined mark' previous line = true) ∧
      (joined = true → ∃ next, lines[index + 1]? = some next ∧
        areJoined mark line next = true) := by
  induction lines generalizing marked index with
  | nil => cases found
  | cons first more ih =>
      cases more with
      | nil =>
          obtain rfl : index = 0 := by
            by_contra further
            rw [List.getElem?_eq_none (by simp; omega)] at found
            cases found
          cases found
          exact ⟨marked, false, rfl, fun mark => .inl ⟨rfl, mark⟩, by simp⟩
      | cons second rest =>
          cases index with
          | zero =>
              obtain rfl : first = line := Option.some.inj found
              exact ⟨marked, areJoined marked first second, rfl, fun mark => .inl ⟨rfl, mark⟩,
                fun joined => ⟨second, rfl, joined⟩⟩
          | succ index =>
              obtain ⟨mark, joined, place, markedBy, joinedBy⟩ :=
                @ih (areJoined marked first second) index found
              refine ⟨mark, joined, place, ?_, joinedBy⟩
              intro isMarked
              right
              rcases markedBy isMarked with
                ⟨rfl, pair⟩ | ⟨earlier, previous, mark', rfl, before, pair⟩
              · obtain rfl : second = line := Option.some.inj found
                exact ⟨0, _, marked, rfl, rfl, pair⟩
              · exact ⟨earlier + 1, previous, mark', rfl, before, pair⟩

end Lines

section Bytes

/-- The stretches of a text that are replaced where tags are separated, the tags included; `place`
is where the first line ends between two tags. -/
def replacedFrom (place : Nat) : List Joint → List (Nat × Nat)
  | [] => []
  | joint :: rest =>
    (place - 2, place + byteLength joint.lineEnd.chars + 2) ::
      replacedFrom (place + byteLength joint.inText) rest

/-- The number of bytes that are added before an offset. -/
def addedFrom (place : Nat) : List Joint → Nat → Nat
  | [], _ => 0
  | joint :: rest, offset =>
    if offset < place then 0
    else joint.lineEnd.added + addedFrom (place + byteLength joint.inText) rest offset

/-- The stretches of a text that are replaced where tags are separated, the tags included. -/
def replaced (text : List Char) : List (Nat × Nat) :=
  replacedFrom (byteLength (cuts text).first) (cuts text).joints

/-- The number of bytes that separating tags adds before an offset. -/
def addedBefore (text : List Char) (offset : Nat) : Nat :=
  addedFrom (byteLength (cuts text).first) (cuts text).joints offset

/-- Before each end of a line between two tags stands the closing tag. -/
theorem suffix_of_cuts (text : List Char) :
    ∀ before joint after, (cuts text).joints = before ++ joint :: after →
      "?>".toList <:+ (cuts text).first ++ before.flatMap Joint.inText := by
  fun_induction cuts text with
  | case1 rest further ih =>
      intro before joint after split
      cases before with
      | nil => exact List.suffix_refl _
      | cons earlier before =>
          injection split with isEarlier split
          subst isEarlier
          apply (ih before joint after split).trans
          exact ⟨['?', '>', '\n', '<', '?'],
            by simp [further, Joint.inText, Joint.run, LineEnd.chars]⟩
  | case2 rest further ih =>
      intro before joint after split
      cases before with
      | nil => exact List.suffix_refl _
      | cons earlier before =>
          injection split with isEarlier split
          subst isEarlier
          apply (ih before joint after split).trans
          exact ⟨['?', '>', '\r', '\n', '<', '?'],
            by simp [further, Joint.inText, Joint.run, LineEnd.chars]⟩
  | case3 c rest _ _ _ ih =>
      intro before joint after split
      exact (ih before joint after split).trans (List.suffix_cons c _)
  | case4 =>
      intro before joint after split
      simp at split

/-- Every stretch that is replaced is a closing tag, the end of a line and an opening tag. The
induction goes over the joints and keeps what stands before them. -/
theorem bytesBetween_of_mem_replacedFrom {before : List Char} {joints : List Joint}
    (closes : ∀ earlier joint later, joints = earlier ++ joint :: later →
      "?>".toList <:+ before ++ earlier.flatMap Joint.inText) :
    ∀ stretch ∈ replacedFrom (byteLength before) joints, ∃ lineEnd : LineEnd,
      Text.bytesBetween (before ++ joints.flatMap Joint.inText) stretch.1 stretch.2 =
        Text.bytes ("?>".toList ++ lineEnd.chars ++ "<?".toList) := by
  induction joints generalizing before with
  | nil => simp [replacedFrom]
  | cons joint rest ih =>
      intro stretch member
      have inText : before ++ (joint :: rest).flatMap Joint.inText =
          before ++ joint.inText ++ rest.flatMap Joint.inText := by
        simp
      rw [inText]
      rcases List.mem_cons.mp member with rfl | further
      · obtain ⟨early, ends⟩ := closes [] joint rest rfl
        obtain rfl : before = early ++ "?>".toList := by simpa using ends.symm
        refine ⟨joint.lineEnd, ?_⟩
        let pair := "?>".toList ++ joint.lineEnd.chars ++ "<?".toList
        have whole : early ++ "?>".toList ++ joint.inText ++ rest.flatMap Joint.inText =
            early ++ pair ++ (joint.rest ++ rest.flatMap Joint.inText) := by
          simp [pair, Joint.inText, Joint.run]
        have start : byteLength (early ++ "?>".toList) - 2 = byteLength early := by
          rw [byteLength_append]
          exact Nat.add_sub_cancel _ 2
        have stop : byteLength (early ++ "?>".toList) + byteLength joint.lineEnd.chars + 2 =
            byteLength (early ++ pair) := by
          simp only [pair, byteLength_append]
          have closing : byteLength "?>".toList = 2 := by decide
          have opening : byteLength "<?".toList = 2 := by decide
          omega
        rw [whole, start, stop]
        exact Text.bytesBetween_whole early pair _
      · apply ih _ stretch
        · rw [byteLength_append]
          exact further
        · intro earlier joint' later split
          have next := closes (joint :: earlier) joint' later (by rw [split]; rfl)
          rwa [List.flatMap_cons, ← List.append_assoc] at next

/-- Nothing is added before the first replaced stretch. -/
theorem addedFrom_of_lt {place offset : Nat} (early : offset < place) (joints : List Joint) :
    addedFrom place joints offset = 0 := by
  cases joints with
  | nil => rfl
  | cons joint rest => rw [addedFrom, if_pos early]

theorem byteLength_lineEnd (lineEnd : LineEnd) :
    byteLength lineEnd.chars + lineEnd.added = 32 := by
  cases lineEnd <;> decide

theorem count_lineEnd (lineEnd : LineEnd) :
    (Text.bytes lineEnd.chars).count 10 = (Text.bytes ('\n' :: placeholder)).count 10 := by
  cases lineEnd <;> decide

/-- What stands in a run stands in the text and in the code on the same line, if as many line feeds
stand before the run. -/
theorem byte_of_run {before before' run : List Char} {offset : Nat}
    (sameLine : (Text.bytes before).count 10 = (Text.bytes before').count 10)
    (low : byteLength before ≤ offset) (high : offset < byteLength (before ++ run))
    (after after' : List Char) :
    let moved := offset - byteLength before + byteLength before'
    (Text.bytes (before' ++ run ++ after'))[moved]? =
        (Text.bytes (before ++ run ++ after))[offset]? ∧
      Text.lineAt (before' ++ run ++ after') moved =
        Text.lineAt (before ++ run ++ after) offset := by
  intro moved
  have back : moved - byteLength before' = offset - byteLength before := by omega
  have highMoved : moved < byteLength (before' ++ run) := by
    rw [byteLength_append] at high ⊢
    omega
  obtain ⟨byte, line⟩ := Text.byte_middle low high after
  obtain ⟨byteMoved, lineMoved⟩ := Text.byte_middle (Nat.le_add_left _ _) highMoved after'
  rw [back] at byteMoved lineMoved
  exact ⟨byteMoved.trans byte.symm, by rw [lineMoved, line, sameLine]⟩

/-- A byte outside the replaced stretches stands in the code as it stands in the text, on the same
line and further on by what was added before it. -/
theorem byte_of_outside {before before' run : List Char} {joints : List Joint} {offset : Nat}
    (sameLine : (Text.bytes before).count 10 = (Text.bytes before').count 10)
    (low : byteLength before ≤ offset)
    (high : offset < byteLength (before ++ run ++ joints.flatMap Joint.inText))
    (outside : ∀ stretch ∈ replacedFrom (byteLength (before ++ run)) joints,
      offset < stretch.1 ∨ stretch.2 ≤ offset) :
    let moved := offset - byteLength before + byteLength before' +
      addedFrom (byteLength (before ++ run)) joints offset
    (Text.bytes (before' ++ run ++ joints.flatMap Joint.inCode))[moved]? =
        (Text.bytes (before ++ run ++ joints.flatMap Joint.inText))[offset]? ∧
      Text.lineAt (before' ++ run ++ joints.flatMap Joint.inCode) moved =
        Text.lineAt (before ++ run ++ joints.flatMap Joint.inText) offset := by
  induction joints generalizing before before' run with
  | nil =>
      have inRun : offset < byteLength (before ++ run) := by simpa using high
      exact byte_of_run sameLine low inRun _ _
  | cons joint rest ih =>
      by_cases inRun : offset < byteLength (before ++ run)
      · rw [addedFrom_of_lt inRun]
        exact byte_of_run sameLine low inRun _ _
      · -- The end of the line before the next run is over: it counts as much in both texts.
        obtain ⟨first, later⟩ := List.forall_mem_cons.mp outside
        dsimp only at first
        let ended := before ++ run ++ joint.lineEnd.chars
        let ended' := before' ++ run ++ '\n' :: placeholder
        have sameLine' : (Text.bytes ended).count 10 = (Text.bytes ended').count 10 := by
          simp only [ended, ended', Text.bytes_append, List.count_append, sameLine,
            count_lineEnd joint.lineEnd]
        have inText : before ++ run ++ (joint :: rest).flatMap Joint.inText =
            ended ++ joint.run ++ rest.flatMap Joint.inText := by
          simp [ended, Joint.inText]
        have inCode : before' ++ run ++ (joint :: rest).flatMap Joint.inCode =
            ended' ++ joint.run ++ rest.flatMap Joint.inCode := by
          simp [ended', Joint.inCode]
        have place : byteLength (before ++ run) + byteLength joint.inText =
            byteLength (ended ++ joint.run) := by
          simp only [ended, Joint.inText, byteLength_append]
          omega
        have placeholderLength : byteLength ('\n' :: placeholder) = 32 := by decide
        have lengths := byteLength_lineEnd joint.lineEnd
        rw [place] at later
        rw [inText] at high
        have lowEnded : byteLength ended ≤ offset := by
          simp only [ended, byteLength_append] at first inRun ⊢
          omega
        have stands := ih sameLine' lowEnded high later
        have moved : offset - byteLength ended + byteLength ended' =
            offset - byteLength before + byteLength before' + joint.lineEnd.added := by
          simp only [ended, ended', byteLength_append] at lowEnded ⊢
          omega
        rw [inText, inCode, addedFrom, if_neg inRun, place]
        rw [moved, Nat.add_assoc _ joint.lineEnd.added] at stands
        exact stands

end Bytes

section Unchanged

/-- A closing tag, the end of the line and an opening tag stand somewhere in a text. -/
def HasPair (text : List Char) : Prop :=
  "?>\n<?".toList <:+: text ∨ "?>\r\n<?".toList <:+: text

/-- Tags have to be separated exactly if two of them stand on lines that follow each other. -/
theorem hasAdjacentTags_iff_hasPair (text : List Char) :
    hasAdjacentTags text = true ↔ HasPair text := by
  fun_induction hasAdjacentTags text with
  | case1 rest =>
      simp only [true_iff]
      exact .inl ⟨[], rest, rfl⟩
  | case2 rest =>
      simp only [true_iff]
      exact .inr ⟨[], rest, rfl⟩
  | case3 c rest noLineFeed noReturn ih =>
      have lineFeed : ¬ "?>\n<?".toList <+: c :: rest := by
        rintro ⟨after, whole⟩
        cases whole
        exact noLineFeed after rfl rfl
      have carriageReturn : ¬ "?>\r\n<?".toList <+: c :: rest := by
        rintro ⟨after, whole⟩
        cases whole
        exact noReturn after rfl rfl
      rw [ih, HasPair, HasPair, List.infix_cons_iff, List.infix_cons_iff, or_iff_right lineFeed,
        or_iff_right carriageReturn]
  | case4 => simp [HasPair]

/-- Separating tags changes a text exactly if there are tags to separate. -/
theorem separateTags_eq_self_iff (text : List Char) :
    separateTags text = text ↔ ¬ HasPair text := by
  rw [← hasAdjacentTags_iff_hasPair, Bool.not_eq_true, ← firstChange?_eq_none_iff]
  constructor
  · intro same
    rw [firstChange?_eq_none_iff, ← Bool.not_eq_true]
    intro adjacent
    have longer := byteLength_lt_separateTags adjacent
    rw [same] at longer
    exact Nat.lt_irrefl _ longer
  · exact separateTags_of_firstChange?

end Unchanged

/-- What becomes of a line of a text. -/
theorem exists_line_of_separateTags {text line : List Char} {index : Nat}
    (found : (Text.lines text)[index]? = some line) :
    ∃ start kept, (Text.lines (separateTags text))[index]? = some (start ++ kept) ∧
      (kept = line ∨
        line = kept ++ ['\r'] ∧ "?>".toList <:+ kept ∧
          ∃ next, (Text.lines text)[index + 1]? = some next ∧ "<?".toList <+: next) ∧
      (start = [] ∨
        start = placeholder ∧ "<?".toList <+: line ∧
          ∃ earlier previous, index = earlier + 1 ∧
            (Text.lines text)[earlier]? = some previous ∧
            ("?>".toList <:+ previous ∨ "?>\r".toList <:+ previous)) := by
  obtain ⟨mark, joined, place, markedBy, joinedBy⟩ :=
    @getElem?_separateLines false _ index line found
  rw [lines_separateTags]
  refine ⟨_, _, place, ?_, ?_⟩
  · cases joined with
    | false => exact .inl rfl
    | true =>
        obtain ⟨next, follows, pair⟩ := joinedBy rfl
        obtain ⟨closes, opens⟩ := of_areJoined pair
        apply (withoutReturn_cases closes).imp id
        intro returns
        exact ⟨returns.1, returns.2, next, follows, opens⟩
  · cases mark with
    | false => exact .inl rfl
    | true =>
        right
        rcases markedBy rfl with ⟨_, absurd⟩ | ⟨earlier, previous, mark', rfl, before, pair⟩
        · cases absurd
        · obtain ⟨closes, opens⟩ := of_areJoined pair
          exact ⟨rfl, opens, earlier, previous, rfl, before, closes⟩

/-- No line is added and none is lost. -/
theorem length_separateLines (marked : Bool) (lines : List (List Char)) :
    (separateLines marked lines).length = lines.length := by
  fun_induction separateLines marked lines with
  | case1 => rfl
  | case2 => rfl
  | case3 marked line next rest joined ih =>
      rw [List.length_cons, ih]
      rfl

/-- Separating tags keeps the number of line feeds. -/
theorem count_separateTags (text : List Char) :
    (separateTags text).count '\n' = text.count '\n' := by
  have lengths := length_separateLines false (Text.lines text)
  rw [← lines_separateTags, Text.length_lines, Text.length_lines] at lengths
  exact Nat.succ.inj lengths

/-- **Lines are kept.** Separating tags keeps the number of line feeds. A line stays as it is, except
that it may lose the carriage return after a closing tag, if the next line begins with an opening
tag, and may get the placeholder before its opening tag, if the line before it ends with a closing
tag. What stands outside the replaced pairs of tags stays on its line, and a text without such a
pair stays as it is. -/
theorem separateTags_keeps_lines (text : List Char) :
    (separateTags text).count '\n' = text.count '\n' ∧
    (∀ index line, (Text.lines text)[index]? = some line →
      ∃ start kept, (Text.lines (separateTags text))[index]? = some (start ++ kept) ∧
        (kept = line ∨
          line = kept ++ ['\r'] ∧ "?>".toList <:+ kept ∧
            ∃ next, (Text.lines text)[index + 1]? = some next ∧ "<?".toList <+: next) ∧
        (start = [] ∨
          start = placeholder ∧ "<?".toList <+: line ∧
            ∃ earlier previous, index = earlier + 1 ∧
              (Text.lines text)[earlier]? = some previous ∧
              ("?>".toList <:+ previous ∨ "?>\r".toList <:+ previous))) ∧
    (∀ stretch ∈ replaced text, ∃ lineEnd : LineEnd,
      Text.bytesBetween text stretch.1 stretch.2 =
        Text.bytes ("?>".toList ++ lineEnd.chars ++ "<?".toList)) ∧
    (∀ offset < byteLength text,
      (∀ stretch ∈ replaced text, offset < stretch.1 ∨ stretch.2 ≤ offset) →
      (Text.bytes (separateTags text))[offset + addedBefore text offset]? =
          (Text.bytes text)[offset]? ∧
        Text.lineAt (separateTags text) (offset + addedBefore text offset) =
          Text.lineAt text offset) ∧
    (separateTags text = text ↔ ¬ HasPair text) := by
  have inText := eq_of_cuts text
  refine ⟨count_separateTags text, fun index line found => exists_line_of_separateTags found,
    ?_, ?_, separateTags_eq_self_iff text⟩
  · intro stretch member
    have pair := bytesBetween_of_mem_replacedFrom (suffix_of_cuts text) stretch member
    rwa [← inText] at pair
  · intro offset below outside
    rw [inText] at below
    have stands := @byte_of_outside [] [] _ _ offset rfl (Nat.zero_le offset) below outside
    dsimp only [List.nil_append] at stands
    rw [← inText, ← separateTags_eq] at stands
    exact stands

end Php

end PhpTestIndex
