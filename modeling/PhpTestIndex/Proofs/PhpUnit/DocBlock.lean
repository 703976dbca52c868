import Mathlib.Data.List.Infix
import Mathlib.Data.List.TakeWhile
import PhpTestIndex.Proofs.Php.Lexing
import PhpTestIndex.Proofs.Text.Blank
import PhpTestIndex.Proofs.Text.Parts
import PhpTestIndex.Proofs.Text.Piece

/-! # Documentation blocks that are written

An entry of a documentation block is written on a line of its own, and its rows on the lines after
it. A line shows its text after a star and white space, or after white space alone, whatever white
space follows (`PhpTestIndex.PhpUnit.Shows`). Reading a block that is written so gives back the
entries: indentation, the ends of lines, lines without a text and a description before the first
entry change nothing (`PhpTestIndex.PhpUnit.docTags_of_written`).
-/

namespace PhpTestIndex

namespace PhpUnit

/-! ### Texts of lines -/

/-- The text can stand on a line of a comment: it is trimmed, goes on no further line and does not
end the comment. -/
@[mk_iff]
structure IsText (text : List Char) : Prop where
  isTrimmed : Text.IsTrimmed text
  unbroken : '\n' ∉ text
  noEnd : ¬ "*/".toList <:+: text

instance (text : List Char) : Decidable (IsText text) :=
  decidable_of_iff' _ (isText_iff text)

/-- A letter, a digit, a low line or a hyphen. -/
def IsNameCharacter (c : Char) : Prop :=
  c.isAlphanum = true ∨ c = '_' ∨ c = '-'

/-- The name of a tag, which starts with a letter. -/
def IsTagName : List Char → Prop
  | [] => False
  | first :: rest => first.isAlpha = true ∧ ∀ c ∈ rest, IsNameCharacter c

/-- The pattern of the lines that start a tag: the sign of a tag, a letter and characters of a name,
and then nothing, or white space and anything. -/
inductive IsTagLine : List Char → Prop
  | named {first : Char} {rest : List Char} (letter : first.isAlpha = true)
      (name : ∀ c ∈ rest, isTagCharacter c = true) : IsTagLine ('@' :: first :: rest)
  | valued {first blank : Char} {rest : List Char} (value : List Char)
      (letter : first.isAlpha = true) (name : ∀ c ∈ rest, isTagCharacter c = true)
      (isBlank : Text.isBlank blank = true) : IsTagLine ('@' :: first :: rest ++ blank :: value)

namespace DocTag

/-- The entry can be written: its texts can stand on lines, and no row starts a tag. -/
structure IsWritable (tag : DocTag) : Prop where
  name : IsTagName tag.name.toList
  value : IsText tag.value.toList
  rows : ∀ row ∈ tag.rows, IsText row.toList ∧ row ≠ "" ∧ ¬ IsTagLine row.toList

/-- The text of the line that starts the entry. -/
def heading (tag : DocTag) : List Char :=
  '@' :: tag.name.toList ++ if tag.value = "" then [] else ' ' :: tag.value.toList

/-- The texts of the lines of the entry. -/
def lineTexts (tag : DocTag) : List (List Char) :=
  tag.heading :: tag.rows.map String.toList

end DocTag

/-! ### Blocks -/

/-- A line that shows a text. -/
inductive Shows : List Char → List Char → Prop
  /-- The text stands after a star. -/
  | starred {indent gap text trail : List Char} (before : Text.IsBlank indent)
      (between : Text.IsBlank gap) (apart : text ≠ [] → gap ≠ []) (after : Text.IsBlank trail) :
      Shows (indent ++ '*' :: gap ++ text ++ trail) text
  /-- The text stands alone, and cannot be taken for a sign of the comment. -/
  | bare {indent text trail : List Char} (before : Text.IsBlank indent)
      (noStar : text.head? ≠ some '*') (noOpening : ¬ "/**".toList <+: text)
      (after : Text.IsBlank trail) : Shows (indent ++ text ++ trail) text

/-- Lines that show some texts one after the other, and lines without a text between them. -/
inductive AreLinesOf : List (List Char) → List Char → Prop
  | nil : AreLinesOf [] []
  | empty {line rest : List Char} {texts : List (List Char)} (shows : Shows line [])
      (unbroken : '\n' ∉ line) (lineEnd : Php.LineEnd) (later : AreLinesOf texts rest) :
      AreLinesOf texts (line ++ lineEnd.chars ++ rest)
  | text {line text rest : List Char} {texts : List (List Char)} (shows : Shows line text)
      (unbroken : '\n' ∉ line) (lineEnd : Php.LineEnd) (later : AreLinesOf texts rest) :
      AreLinesOf (text :: texts) (line ++ lineEnd.chars ++ rest)

/-- The block has lines that show the texts between the line that opens the comment and the sign
that ends it. -/
def IsBlockOf (texts : List (List Char)) (block : List Char) : Prop :=
  ∃ (lineEnd : Php.LineEnd) (lines indent : List Char),
    AreLinesOf texts lines ∧ Text.IsBlank indent ∧ '\n' ∉ indent ∧
      block = "/**".toList ++ lineEnd.chars ++ lines ++ indent ++ "*/".toList

/-- What follows the opening sign of a comment: lines that show some texts, the last of them before
the sign that ends the comment. -/
inductive EndsComment : List (List Char) → List Char → Prop
  /-- The last line, which cannot be taken for an opening sign with the sign after it. -/
  | last {line text : List Char} (shows : Shows line text) (unbroken : '\n' ∉ line)
      (noOpening : text ≠ "/*".toList) : EndsComment [text] (line ++ "*/".toList)
  | line {line text rest : List Char} {texts : List (List Char)} (shows : Shows line text)
      (unbroken : '\n' ∉ line) (lineEnd : Php.LineEnd) (later : EndsComment texts rest) :
      EndsComment (text :: texts) (line ++ lineEnd.chars ++ rest)

/-- The comment shows the texts on its lines, which may be those of its signs, or one line. -/
def IsCommentOf (texts : List (List Char)) (block : List Char) : Prop :=
  ∃ shown rest, EndsComment shown rest ∧ shown.filter (· ≠ []) = texts ∧
    block = "/**".toList ++ rest

/-- The texts as they are usually written. -/
def blockOf (texts : List (List Char)) : List Char :=
  "/**\n".toList ++ texts.flatMap (fun text => " * ".toList ++ text ++ ['\n']) ++ " */".toList

section Lines

variable {line text trail : List Char}

theorem isText_nil : IsText [] := by
  decide

theorem docLine_append (blank : Text.IsBlank trail) (line : List Char) :
    docLine (line ++ trail) = docLine line := by
  rw [docLine, docLine, Text.trim_append blank]

/-- A line without the signs of the opening and the end of a comment loses stars at its start. -/
theorem docLine_around {indent core : List Char} (before : Text.IsBlank indent)
    (trimmed : Text.IsTrimmed core) (after : Text.IsBlank trail)
    (noOpening : ¬ "/**".toList <+: core) (noEnd : ¬ "*/".toList <:+ core) :
    docLine (indent ++ core ++ trail) = Text.trim (core.dropWhile fun c => c == '*') := by
  rw [docLine]
  simp only [Text.trim_around before trimmed after, Text.getD_after?_of_not_prefix noOpening,
    Text.getD_before?_of_not_suffix noEnd, Text.trim_of_isTrimmed trimmed]

/-- A text does not come to end the comment after something that does not end with a star. -/
theorem not_end_suffix {before : List Char} (noStar : ∀ c ∈ before.getLast?, c ≠ '*')
    (occupied : text ≠ []) (noEnd : ¬ "*/".toList <:+ text) :
    ¬ "*/".toList <:+ before ++ text := by
  intro ends
  have parts : text = ['*', '/'] ∨ text = ['/'] := by
    rcases List.suffix_or_suffix_of_suffix ends (List.suffix_append before text) with
      inText | ofSign
    · exact absurd inText noEnd
    · simpa [List.suffix_cons_iff, occupied] using ofSign
  rcases parts with rfl | rfl
  · exact noEnd List.suffix_rfl
  · obtain ⟨start, same⟩ := ends
    have slashes : start ++ ['*'] ++ ['/'] = before ++ ['/'] := by simpa using same
    obtain rfl := List.append_cancel_right slashes
    exact noStar '*' (by simp) rfl

/-- White space does not end in a star. -/
theorem ne_star_of_isBlank {gap : List Char} (blank : Text.IsBlank gap) :
    ∀ c ∈ gap.getLast?, c ≠ '*' := by
  rintro c last rfl
  exact absurd (blank '*' (List.mem_of_getLast? last)) (by decide)

/-- What is left of a line that shows a text, without the white space around it. -/
structure IsCore (core text : List Char) : Prop where
  trimmed : Text.IsTrimmed core
  noOpening : ¬ "/**".toList <+: core
  noEnd : ¬ "*/".toList <:+ core
  shown : Text.trim (core.dropWhile fun c => c == '*') = text

/-- A line that shows a text is white space around a core that shows it. -/
theorem exists_core_of_shows (isText : IsText text) (shows : Shows line text) :
    ∃ lead core trail, Text.IsBlank lead ∧ Text.IsBlank trail ∧ IsCore core text ∧
      line = lead ++ core ++ trail := by
  cases shows with
  | @starred indent gap _ trail before between apart after =>
      by_cases occupied : text = []
      · have star : indent ++ '*' :: gap ++ text ++ trail = indent ++ ['*'] ++ (gap ++ trail) := by
          simp [occupied]
        have blank := Text.isBlank_append.mpr ⟨between, after⟩
        refine ⟨indent, ['*'], gap ++ trail, before, blank, ?_, star⟩
        exact ⟨by decide, by decide, by decide, by rw [occupied]; rfl⟩
      · have trimmed : Text.IsTrimmed ('*' :: gap ++ text) := by
          refine ⟨by simp +decide, ?_⟩
          rw [List.getLast?_append_of_ne_nil _ occupied]
          exact isText.isTrimmed.atEnd
        have noStarLast : ∀ c ∈ ('*' :: gap).getLast?, c ≠ '*' := by
          rw [← List.singleton_append, List.getLast?_append_of_ne_nil _ (apart occupied)]
          exact ne_star_of_isBlank between
        have noEnd := not_end_suffix noStarLast occupied fun ends => isText.noEnd ends.isInfix
        obtain ⟨sign, more, rfl⟩ := List.exists_cons_of_ne_nil (apart occupied)
        have noStar : sign ≠ '*' := by
          rintro rfl
          exact absurd (between '*' List.mem_cons_self) (by decide)
        have line : indent ++ '*' :: (sign :: more) ++ text ++ trail =
            indent ++ ('*' :: (sign :: more) ++ text) ++ trail := by
          simp
        have trimmedText := Text.trim_around between isText.isTrimmed Text.isBlank_nil
        rw [List.append_nil] at trimmedText
        refine ⟨indent, _, trail, before, after, ⟨trimmed, by simp, noEnd, ?_⟩, line⟩
        rw [List.cons_append, List.dropWhile_cons_of_pos (by simp), List.cons_append,
          List.dropWhile_cons_of_neg (by simpa using noStar)]
        exact trimmedText
  | @bare indent _ trail before noStar noOpening after =>
      have noEnd : ¬ "*/".toList <:+ text := fun ends => isText.noEnd ends.isInfix
      have kept : text.dropWhile (fun c => c == '*') = text := by
        cases text with
        | nil => rfl
        | cons c rest => rw [List.dropWhile_cons_of_neg (by simpa using noStar)]
      refine ⟨indent, text, trail, before, after, ⟨isText.isTrimmed, noOpening, noEnd, ?_⟩, rfl⟩
      rw [kept, Text.trim_of_isTrimmed isText.isTrimmed]

/-- **A line is read as the text that it shows.** -/
theorem docLine_of_shows (isText : IsText text) (shows : Shows line text) :
    docLine line = text := by
  obtain ⟨lead, core, trail, before, after, isCore, rfl⟩ := exists_core_of_shows isText shows
  rw [docLine_around before isCore.trimmed after isCore.noOpening isCore.noEnd, isCore.shown]

/-- White space at the start of a line says nothing. -/
theorem docLine_append_left {lead : List Char} (blank : Text.IsBlank lead) (line : List Char) :
    docLine (lead ++ line) = docLine line := by
  have trimmed : Text.trim (lead ++ line) = Text.trim line := by
    rw [Text.trim, Text.trim, Text.trimStart_append blank]
  rw [docLine, docLine, trimmed]

/-- A line is read as the text that it shows after the sign that opens the comment. -/
theorem docLine_opening (isText : IsText text) (shows : Shows line text) :
    docLine ("/**".toList ++ line) = text := by
  obtain ⟨lead, core, trail, before, after, isCore, rfl⟩ := exists_core_of_shows isText shows
  rw [← List.append_assoc, docLine_append after]
  by_cases empty : core = []
  · rw [empty, List.append_nil, docLine_append before, ← isCore.shown, empty]
    rfl
  · have trimmed : Text.IsTrimmed ("/**".toList ++ (lead ++ core)) := by
      refine ⟨by simp +decide, ?_⟩
      rw [← List.append_assoc, List.getLast?_append_of_ne_nil _ empty]
      exact isCore.trimmed.atEnd
    have noEnd := not_end_suffix (ne_star_of_isBlank before) empty isCore.noEnd
    have inner := Text.trim_around before isCore.trimmed Text.isBlank_nil
    rw [List.append_nil] at inner
    simp only [docLine, Text.trim_of_isTrimmed trimmed, Text.after?_append, Option.getD_some,
      Text.getD_before?_of_not_suffix noEnd, inner, isCore.shown]

/-- What a line shows cannot be taken for an opening sign with the sign after it. -/
theorem not_opening_prefix {core : List Char} (isCore : IsCore core text) (occupied : core ≠ [])
    (after : Text.IsBlank trail) (noOpening : text ≠ "/*".toList) :
    ¬ "/**".toList <+: core ++ (trail ++ "*/".toList) := by
  intro starts
  have parts : core = ['/'] ∨ core = ['/', '*'] := by
    rcases List.prefix_or_prefix_of_prefix starts (List.prefix_append core _) with inCore | ofSign
    · exact absurd inCore isCore.noOpening
    · obtain ⟨_, rfl, rfl | ⟨_, rfl, rfl | rfl⟩⟩ : ∃ rest, core = '/' :: rest ∧
          (rest = [] ∨ ∃ more, rest = '*' :: more ∧ (more = [] ∨ more = ['*'])) := by
        simpa [List.prefix_cons_iff, occupied] using ofSign
      · exact .inl rfl
      · exact .inr rfl
      · exact absurd List.prefix_rfl isCore.noOpening
  rcases parts with rfl | rfl
  · cases trail with
    | nil => exact absurd starts (by decide)
    | cons c rest =>
        obtain rfl : '*' = c := by simpa using starts.getElem (i := 1) (by decide)
        exact absurd (after '*' List.mem_cons_self) (by decide)
  · exact noOpening isCore.shown.symm

/-- A line is read as the text that it shows before the sign that ends the comment. -/
theorem docLine_closing (isText : IsText text) (shows : Shows line text)
    (noOpening : text ≠ "/*".toList) : docLine (line ++ "*/".toList) = text := by
  obtain ⟨lead, core, trail, before, after, isCore, rfl⟩ := exists_core_of_shows isText shows
  rw [List.append_assoc, List.append_assoc, docLine_append_left before]
  by_cases empty : core = []
  · rw [empty, List.nil_append, docLine_append_left after, ← isCore.shown, empty]
    rfl
  · have trimmed : Text.IsTrimmed (core ++ (trail ++ "*/".toList)) := by
      refine ⟨?_, by simp +decide⟩
      rw [List.head?_append_of_ne_nil _ empty]
      exact isCore.trimmed.atStart
    have noSign := not_opening_prefix isCore empty after noOpening
    have inner := Text.trim_around Text.isBlank_nil isCore.trimmed after
    rw [List.nil_append] at inner
    simp only [docLine, Text.trim_of_isTrimmed trimmed, Text.getD_after?_of_not_prefix noSign]
    rw [← List.append_assoc, Text.before?_append, Option.getD_some, inner, isCore.shown]

/-- A line is read as the text that it shows between the signs of the comment. -/
theorem docLine_between (isText : IsText text) (shows : Shows line text) :
    docLine ("/**".toList ++ (line ++ "*/".toList)) = text := by
  obtain ⟨lead, core, trail, before, after, isCore, rfl⟩ := exists_core_of_shows isText shows
  have trimmed : Text.IsTrimmed ("/**".toList ++ (lead ++ core ++ trail ++ "*/".toList)) :=
    ⟨by simp +decide, by rw [← List.append_assoc, List.getLast?_append]; simp +decide⟩
  simp only [docLine, Text.trim_of_isTrimmed trimmed, Text.after?_append, Option.getD_some,
    Text.before?_append, Text.trim_around before isCore.trimmed after, isCore.shown]

end Lines

section Tags

variable {text rest : List Char} {c : Char}

/-- The letters and digits of ASCII lie between `0` and `z`. -/
theorem toNat_of_isAlphanum (alphanum : c.isAlphanum = true) : 48 ≤ c.toNat ∧ c.toNat ≤ 122 := by
  rcases Bool.or_eq_true_iff.mp alphanum with alpha | digit
  · have places := Php.Lexeme.toNat_of_isAlpha alpha
    omega
  · have places := Php.Lexeme.toNat_of_isDigit digit
    omega

/-- A character of the name of a tag is read as one. -/
theorem IsNameCharacter.isTagCharacter (isName : IsNameCharacter c) :
    isTagCharacter c = true := by
  rcases isName with alphanum | rfl | rfl
  · have low : c.toNat < 0x80 := by
      have places := toNat_of_isAlphanum alphanum
      omega
    simp [PhpUnit.isTagCharacter, Text.isWordCharacter, low, alphanum]
  · decide
  · decide

/-- A character of the name of a tag is neither white space nor a star, so trimming a line leaves
it. -/
theorem IsNameCharacter.shown (isName : IsNameCharacter c) :
    Text.isBlank c = false ∧ c ≠ '*' := by
  rcases isName with alphanum | rfl | rfl
  · have places := toNat_of_isAlphanum alphanum
    have other {mark : Char} (noName : mark.isAlphanum = false) : c ≠ mark := by
      rintro rfl
      rw [alphanum] at noName
      cases noName
    have noSpace : (c == ' ') = false := by simpa using other (by decide)
    refine ⟨?_, other (by decide)⟩
    simp only [Text.isBlank, noSpace, Bool.or_eq_false_iff, Bool.and_eq_false_iff,
      decide_eq_false_iff_not, beq_eq_false_iff_ne, and_true]
    omega
  · decide
  · decide

/-- All characters of the name of a tag may stand in one. -/
theorem IsTagName.characters {name : List Char} (isName : IsTagName name) :
    ∀ c ∈ name, IsNameCharacter c := by
  cases name with
  | nil => exact isName.elim
  | cons first rest =>
      have letter : IsNameCharacter first := .inl (by simp [Char.isAlphanum, isName.1])
      exact List.forall_mem_cons.mpr ⟨letter, isName.2⟩

theorem IsTagName.tagCharacters {first : Char} (isName : IsTagName (first :: rest)) :
    ∀ c ∈ rest, isTagCharacter c = true :=
  fun c member => (isName.2 c member).isTagCharacter

/-- A tag is read only off lines of the pattern. -/
theorem docTag?_of_not_isTagLine (other : ¬ IsTagLine text) : docTag? text = none := by
  unfold docTag?
  split
  · rename_i first rest
    split
    · rename_i letter
      have name : ∀ c ∈ rest.takeWhile isTagCharacter, isTagCharacter c = true :=
        List.all_eq_true.mp List.all_takeWhile
      have whole := List.takeWhile_append_dropWhile (p := isTagCharacter) (l := rest)
      dsimp only
      split
      · rename_i ended
        rw [ended, List.append_nil] at whole
        rw [whole] at name
        exact absurd (.named letter name) other
      · rename_i blank value ended
        split
        · rename_i isBlank
          rw [← whole, ended] at other
          exact absurd (.valued value letter name isBlank) other
        · rfl
    · rfl
  · rfl

/-- A line with the sign and the name of a tag is read as the tag without a value. -/
theorem docTag?_named {first : Char} (isName : IsTagName (first :: rest)) :
    docTag? ('@' :: first :: rest) = some ⟨String.ofList (first :: rest), "", []⟩ := by
  have name := isName.tagCharacters
  have taken : rest.takeWhile isTagCharacter = rest := List.takeWhile_eq_self_iff.mpr name
  have dropped : rest.dropWhile isTagCharacter = [] := List.dropWhile_eq_nil_iff.mpr name
  simp only [docTag?, isName.1, if_pos, taken, dropped]

/-- With a blank and a trimmed text after the name, the text is the value. -/
theorem docTag?_valued {first : Char} {value : List Char} (isName : IsTagName (first :: rest))
    (trimmed : Text.IsTrimmed value) :
    docTag? ('@' :: first :: rest ++ ' ' :: value) =
      some ⟨String.ofList (first :: rest), String.ofList value, []⟩ := by
  have name := isName.tagCharacters
  have ends : ¬ isTagCharacter ' ' = true := by decide
  have taken : (rest ++ ' ' :: value).takeWhile isTagCharacter = rest := by
    rw [List.takeWhile_append_of_pos name, List.takeWhile_cons_of_neg ends, List.append_nil]
  have dropped : (rest ++ ' ' :: value).dropWhile isTagCharacter = ' ' :: value := by
    rw [List.dropWhile_append_of_pos name, List.dropWhile_cons_of_neg ends]
  have blank : Text.isBlank ' ' = true := by decide
  simp only [docTag?, List.cons_append, isName.1, if_pos, taken, dropped, blank,
    Text.trim_of_isTrimmed trimmed]

/-- The line that starts an entry is read as the entry without rows. -/
theorem docTag?_heading {tag : DocTag} (writable : tag.IsWritable) :
    docTag? tag.heading = some ⟨tag.name, tag.value, []⟩ := by
  obtain ⟨name, value, rows⟩ := tag
  obtain ⟨isName, isText, -⟩ := writable
  obtain ⟨chars, rfl⟩ : ∃ chars, String.ofList chars = name := ⟨name.toList, by simp⟩
  dsimp only [DocTag.heading] at *
  rw [String.toList_ofList] at *
  cases chars with
  | nil => exact absurd isName id
  | cons first rest =>
      split
      · rename_i empty
        rw [List.append_nil, docTag?_named isName, empty]
      · rw [docTag?_valued isName isText.isTrimmed, String.ofList_toList]

/-- The signs before the value neither are blank nor end a comment. -/
theorem isText_named {name : List Char} (isName : IsTagName name) : IsText ('@' :: name) := by
  have shown : ∀ c ∈ '@' :: name, Text.isBlank c = false ∧ c ≠ '*' :=
    List.forall_mem_cons.mpr ⟨by decide, fun c member => (isName.characters c member).shown⟩
  refine ⟨⟨by simp +decide, ?_⟩, ?_, ?_⟩
  · intro c last
    exact (shown c (List.mem_of_getLast? last)).1
  · intro member
    exact absurd (shown _ member).1 (by decide)
  · intro ends
    exact (shown '*' (ends.subset List.mem_cons_self)).2 rfl

/-- The line that starts an entry can stand in a comment. -/
theorem isText_heading {tag : DocTag} (writable : tag.IsWritable) : IsText tag.heading := by
  have named := isText_named writable.name
  unfold DocTag.heading
  split
  · rwa [List.append_nil]
  · rename_i occupied
    have shown : tag.value.toList ≠ [] := by simpa using occupied
    obtain ⟨trimmed, unbroken, noEnd⟩ := writable.value
    refine ⟨⟨by simp +decide, ?_⟩, ?_, ?_⟩
    · rw [List.append_cons, List.getLast?_append_of_ne_nil _ shown]
      exact trimmed.atEnd
    · simpa [unbroken] using named.unbroken
    · intro ends
      rcases Text.infix_or_infix_of_append_cons (by decide) ends with inName | inValue
      · exact named.noEnd inName
      · exact noEnd inValue

end Tags

section Reading

/-- Read a text of a line: the tags found so far, and the lines that continue a tag before them. -/
def readText (text : List Char) (found : List String × List DocTag) : List String × List DocTag :=
  match text with
  | [] => found
  | c :: rest =>
    match docTag? (c :: rest) with
    | none => (String.ofList (c :: rest) :: found.1, found.2)
    | some tag => ([], { tag with rows := found.1 } :: found.2)

variable {line text : List Char} {texts : List (List Char)} {found : List String × List DocTag}

/-- A line is read by what is left of it without the signs of the comment. -/
theorem readDocLine_eq (line : List Char) (found : List String × List DocTag) :
    readDocLine line found = readText (docLine line) found := by
  unfold readDocLine
  cases docLine line <;> rfl

/-- A text that starts no tag is a row for the tag before it. -/
theorem readText_of_not_isTagLine (occupied : text ≠ []) (other : ¬ IsTagLine text) :
    readText text found = (String.ofList text :: found.1, found.2) := by
  obtain ⟨c, rest, rfl⟩ := List.exists_cons_of_ne_nil occupied
  rw [readText, docTag?_of_not_isTagLine other]

/-- The line that starts a tag takes the rows that were found below it. -/
theorem readText_heading {tag : DocTag} (writable : tag.IsWritable) (tags : List DocTag) :
    readText tag.heading (tag.rows, tags) = ([], tag :: tags) := by
  have read := docTag?_heading writable
  unfold DocTag.heading at read ⊢
  rw [List.cons_append] at read ⊢
  rw [readText, read]

/-- The lines of an entry are read as the entry. -/
theorem foldr_readText_lineTexts {tag : DocTag} (writable : tag.IsWritable) (tags : List DocTag) :
    tag.lineTexts.foldr readText ([], tags) = ([], tag :: tags) := by
  have rows : ∀ rows : List String, (∀ row ∈ rows, row ∈ tag.rows) →
      (rows.map String.toList).foldr readText ([], tags) = (rows, tags) := by
    intro rows among
    induction rows with
    | nil => rfl
    | cons row rows ih =>
        obtain ⟨first, others⟩ := List.forall_mem_cons.mp among
        obtain ⟨-, occupied, other⟩ := writable.rows row first
        have shown : row.toList ≠ [] := by simpa using occupied
        rw [List.map_cons, List.foldr_cons, ih others, readText_of_not_isTagLine shown other,
          String.ofList_toList]
  rw [DocTag.lineTexts, List.foldr_cons, rows tag.rows fun _ member => member,
    readText_heading writable]

/-- Reading the lines of some entries from the last to the first gives the entries. -/
theorem foldr_readText_tags {tags : List DocTag} (writable : ∀ tag ∈ tags, tag.IsWritable) :
    (tags.flatMap DocTag.lineTexts).foldr readText ([], []) = ([], tags) := by
  induction tags with
  | nil => rfl
  | cons tag tags ih =>
      obtain ⟨first, others⟩ := List.forall_mem_cons.mp writable
      rw [List.flatMap_cons, List.foldr_append, ih others, foldr_readText_lineTexts first]

/-- A description before the entries adds no tag. -/
theorem foldr_readText_description (description : ∀ text ∈ texts, ¬ IsTagLine text) :
    (texts.foldr readText found).2 = found.2 := by
  induction texts with
  | nil => rfl
  | cons text texts ih =>
      obtain ⟨first, others⟩ := List.forall_mem_cons.mp description
      rw [List.foldr_cons, ← ih others]
      by_cases empty : text = []
      · rw [empty, readText]
      · rw [readText_of_not_isTagLine empty first]

/-- A line at the start of a comment is read after all the others. -/
theorem foldr_lines_append (unbroken : '\n' ∉ line) (lineEnd : Php.LineEnd) (rest : List Char) :
    (Text.lines (line ++ lineEnd.chars ++ rest)).foldr readDocLine found =
      readDocLine line ((Text.lines rest).foldr readDocLine found) := by
  cases lineEnd with
  | lineFeed =>
      rw [List.append_assoc, Text.lines_append unbroken, Php.LineEnd.chars, List.singleton_append,
        Text.lines_lineFeed, Text.extendFirst, List.append_nil, List.foldr_cons]
  | carriageReturn =>
      have unbrokenLine : '\n' ∉ line ++ ['\r'] := by simpa using unbroken
      have blank : Text.IsBlank ['\r'] := by decide
      have whole : line ++ Php.LineEnd.carriageReturn.chars ++ rest =
          (line ++ ['\r']) ++ '\n' :: rest := by
        simp [Php.LineEnd.chars]
      rw [whole, Text.lines_append unbrokenLine, Text.lines_lineFeed, Text.extendFirst,
        List.append_nil, List.foldr_cons, readDocLine_eq, docLine_append blank, ← readDocLine_eq]

/-- Lines without a text are passed over. -/
theorem foldr_readText_filter (texts : List (List Char)) (found : List String × List DocTag) :
    (texts.filter (· ≠ [])).foldr readText found = texts.foldr readText found := by
  induction texts with
  | nil => rfl
  | cons text texts ih =>
      by_cases empty : text = []
      · rw [List.filter_cons_of_neg (by simpa using empty), ih, List.foldr_cons, empty, readText]
      · rw [List.filter_cons_of_pos (by simpa using empty), List.foldr_cons, List.foldr_cons, ih]

theorem lines_of_unbroken (unbroken : '\n' ∉ line) : Text.lines line = [line] :=
  Text.split_of_not_mem unbroken

/-- **Lines are read as the texts that they show.** -/
theorem foldr_readDocLine_of_endsComment {rest : List Char} (ends : EndsComment texts rest)
    (areTexts : ∀ text ∈ texts, IsText text) :
    (Text.lines rest).foldr readDocLine ([], []) = texts.foldr readText ([], []) := by
  induction ends with
  | @last line text shows unbroken noOpening =>
      have isText : IsText text := areTexts text List.mem_cons_self
      have isLine : '\n' ∉ line ++ "*/".toList := by simp [unbroken]
      rw [lines_of_unbroken isLine, List.foldr_cons, List.foldr_nil, readDocLine_eq,
        docLine_closing isText shows noOpening, List.foldr_cons, List.foldr_nil]
  | line shows unbroken lineEnd _ ih =>
      obtain ⟨isText, others⟩ := List.forall_mem_cons.mp areTexts
      rw [foldr_lines_append unbroken, ih others, readDocLine_eq, docLine_of_shows isText shows,
        List.foldr_cons]

/-- A comment is read as the texts that its lines show. -/
theorem docTags_of_endsComment {rest : List Char} (ends : EndsComment texts rest)
    (areTexts : ∀ text ∈ texts, IsText text) :
    docTags ("/**".toList ++ rest) = (texts.foldr readText ([], [])).2 := by
  rw [docTags]
  cases ends with
  | @last line text shows unbroken noOpening =>
      have isText : IsText text := areTexts text List.mem_cons_self
      have isLine : '\n' ∉ "/**".toList ++ (line ++ "*/".toList) := by simp [unbroken]
      rw [lines_of_unbroken isLine, List.foldr_cons, List.foldr_nil, readDocLine_eq,
        docLine_between isText shows, List.foldr_cons, List.foldr_nil]
  | @line line text rest texts shows unbroken lineEnd later =>
      obtain ⟨isText, others⟩ := List.forall_mem_cons.mp areTexts
      have isLine : '\n' ∉ "/**".toList ++ line := by simp [unbroken]
      rw [← List.append_assoc, ← List.append_assoc, foldr_lines_append isLine,
        foldr_readDocLine_of_endsComment later others, readDocLine_eq,
        docLine_opening isText shows, List.foldr_cons]

/-- Texts that differ in nothing but lines without a text are read alike. -/
theorem docTags_of_filter_eq {shown : List (List Char)} {rest : List Char}
    (ends : EndsComment shown rest) (same : shown.filter (· ≠ []) = texts.filter (· ≠ []))
    (areTexts : ∀ text ∈ texts, IsText text) :
    docTags ("/**".toList ++ rest) = (texts.foldr readText ([], [])).2 := by
  have areShown : ∀ text ∈ shown, IsText text := by
    intro text member
    by_cases empty : text = []
    · exact empty ▸ isText_nil
    · have kept : text ∈ shown.filter (· ≠ []) := List.mem_filter.mpr ⟨member, by simpa using empty⟩
      rw [same] at kept
      exact areTexts text (List.mem_of_mem_filter kept)
  rw [docTags_of_endsComment ends areShown, ← foldr_readText_filter, same, foldr_readText_filter]

/-- Lines before the sign that ends a comment are lines of the comment. -/
theorem exists_endsComment_of_areLinesOf {lines indent : List Char}
    (areLines : AreLinesOf texts lines) (blank : Text.IsBlank indent) (unbroken : '\n' ∉ indent) :
    ∃ shown, EndsComment shown (lines ++ (indent ++ "*/".toList)) ∧
      shown.filter (· ≠ []) = texts.filter (· ≠ []) := by
  induction areLines with
  | nil =>
      have shows : Shows (indent ++ [] ++ []) [] :=
        .bare blank (by simp) (by decide) Text.isBlank_nil
      rw [List.append_nil, List.append_nil] at shows
      exact ⟨[[]], .last shows unbroken (by decide), rfl⟩
  | @empty line _ _ shows unbrokenLine lineEnd _ ih =>
      obtain ⟨shown, ends, same⟩ := ih
      refine ⟨[] :: shown, ?_, by simpa using same⟩
      rw [List.append_assoc]
      exact .line shows unbrokenLine lineEnd ends
  | @text line text _ _ shows unbrokenLine lineEnd _ ih =>
      obtain ⟨shown, ends, same⟩ := ih
      refine ⟨text :: shown, ?_, ?_⟩
      · rw [List.append_assoc]
        exact .line shows unbrokenLine lineEnd ends
      · rw [List.filter_cons, List.filter_cons, same]

/-- A block shows the texts of its lines, up to lines without a text. -/
theorem IsBlockOf.exists_endsComment {block : List Char} (isBlock : IsBlockOf texts block) :
    ∃ shown rest, EndsComment shown rest ∧
      shown.filter (· ≠ []) = texts.filter (· ≠ []) ∧ block = "/**".toList ++ rest := by
  obtain ⟨lineEnd, lines, indent, areLines, blank, unbroken, rfl⟩ := isBlock
  obtain ⟨shown, ends, same⟩ := exists_endsComment_of_areLinesOf areLines blank unbroken
  refine ⟨[] :: shown, [] ++ lineEnd.chars ++ (lines ++ (indent ++ "*/".toList)), ?_,
    by simpa using same, ?_⟩
  · exact .line (.bare Text.isBlank_nil (by simp) (by decide) Text.isBlank_nil) (by simp) lineEnd ends
  · simp only [List.append_assoc, List.nil_append]

/-- A block is read as the texts that its lines show. -/
theorem docTags_of_isBlockOf {block : List Char} (isBlock : IsBlockOf texts block)
    (areTexts : ∀ text ∈ texts, IsText text) :
    docTags block = (texts.foldr readText ([], [])).2 := by
  obtain ⟨shown, rest, ends, same, rfl⟩ := isBlock.exists_endsComment
  exact docTags_of_filter_eq ends same areTexts

end Reading

section Writing

variable {tags : List DocTag} {texts : List (List Char)}

/-- Every line of entries that can be written can stand in a comment. -/
theorem isText_of_mem_lineTexts (writable : ∀ tag ∈ tags, tag.IsWritable) :
    ∀ text ∈ tags.flatMap DocTag.lineTexts, IsText text := by
  intro text among
  obtain ⟨tag, member, ofTag⟩ := List.mem_flatMap.mp among
  rcases List.mem_cons.mp ofTag with rfl | ofRows
  · exact isText_heading (writable tag member)
  · obtain ⟨row, isRow, rfl⟩ := List.mem_map.mp ofRows
    exact ((writable tag member).rows row isRow).1

/-- A description and entries are read as the entries. -/
theorem foldr_readText_entries (writable : ∀ tag ∈ tags, tag.IsWritable)
    (description : ∀ text ∈ texts, ¬ IsTagLine text) :
    ((texts ++ tags.flatMap DocTag.lineTexts).foldr readText ([], [])).2 = tags := by
  rw [List.foldr_append, foldr_readText_tags writable, foldr_readText_description description]

theorem isText_of_mem_entries (writable : ∀ tag ∈ tags, tag.IsWritable)
    (description : ∀ text ∈ texts, IsText text) :
    ∀ text ∈ texts ++ tags.flatMap DocTag.lineTexts, IsText text :=
  List.forall_mem_append.mpr ⟨description, isText_of_mem_lineTexts writable⟩

/-- Entries are read from every comment that shows them after a description. -/
theorem docTags_of_isCommentOf {block : List Char} (writable : ∀ tag ∈ tags, tag.IsWritable)
    (description : ∀ text ∈ texts, IsText text ∧ ¬ IsTagLine text)
    (isComment : IsCommentOf (texts ++ tags.flatMap DocTag.lineTexts) block) :
    docTags block = tags := by
  obtain ⟨shown, rest, ends, kept, rfl⟩ := isComment
  have areTexts := isText_of_mem_entries writable fun text member => (description text member).1
  have same : shown.filter (· ≠ []) =
      (texts ++ tags.flatMap DocTag.lineTexts).filter (· ≠ []) := by
    rw [← kept, List.filter_filter]
    simp
  rw [docTags_of_filter_eq ends same areTexts,
    foldr_readText_entries writable fun text member => (description text member).2]

/-- What is usually written is a block. -/
theorem isBlockOf_blockOf (areTexts : ∀ text ∈ texts, IsText text) :
    IsBlockOf texts (blockOf texts) := by
  have blank : Text.IsBlank [' '] := by decide
  have written :
      AreLinesOf texts (texts.flatMap fun text => " * ".toList ++ text ++ ['\n']) := by
    induction texts with
    | nil => exact .nil
    | cons text texts ih =>
        obtain ⟨isText, others⟩ := List.forall_mem_cons.mp areTexts
        have shows : Shows (" * ".toList ++ text ++ []) text :=
          .starred blank blank (fun _ => by simp) Text.isBlank_nil
        rw [List.append_nil] at shows
        exact .text shows (by simp [isText.unbroken]) .lineFeed (ih others)
  refine ⟨.lineFeed, _, [' '], written, blank, by decide, ?_⟩
  rw [List.append_assoc _ [' ']]
  rfl

/-- The usual comment for some texts shows these texts. -/
theorem isCommentOf_blockOf (areTexts : ∀ text ∈ texts, IsText text)
    (occupied : ∀ text ∈ texts, text ≠ []) : IsCommentOf texts (blockOf texts) := by
  obtain ⟨shown, rest, ends, same, isBlock⟩ := (isBlockOf_blockOf areTexts).exists_endsComment
  have all : texts.filter (· ≠ []) = texts :=
    List.filter_eq_self.mpr fun text member => by simpa using occupied text member
  exact ⟨shown, rest, ends, same.trans all, isBlock⟩

/-- No line of an entry is empty. -/
theorem ne_nil_of_mem_lineTexts (writable : ∀ tag ∈ tags, tag.IsWritable) :
    ∀ text ∈ tags.flatMap DocTag.lineTexts, text ≠ [] := by
  intro text among
  obtain ⟨tag, member, ofTag⟩ := List.mem_flatMap.mp among
  rcases List.mem_cons.mp ofTag with rfl | ofRows
  · exact List.cons_ne_nil _ _
  · obtain ⟨row, isRow, rfl⟩ := List.mem_map.mp ofRows
    simpa using ((writable tag member).rows row isRow).2.1

end Writing

/-- **Reading a block gives back what was written.** Entries that can be written are read from the
block that is usually written for them, and from every block with their lines: white space before
and after the stars, the ends of the lines, lines without a text and a description before the first
entry change nothing. -/
theorem docTags_of_written (tags : List DocTag) (writable : ∀ tag ∈ tags, tag.IsWritable) :
    docTags (blockOf (tags.flatMap DocTag.lineTexts)) = tags ∧
      ∀ (description : List (List Char)) (block : List Char),
        (∀ text ∈ description, IsText text ∧ ¬ IsTagLine text) →
          IsBlockOf (description ++ tags.flatMap DocTag.lineTexts) block →
            docTags block = tags := by
  have ofTags := isText_of_mem_lineTexts writable
  refine ⟨?_, ?_⟩
  · rw [docTags_of_isBlockOf (isBlockOf_blockOf ofTags) ofTags, foldr_readText_tags writable]
  · intro description block described isBlock
    have areTexts := isText_of_mem_entries writable fun text member => (described text member).1
    rw [docTags_of_isBlockOf isBlock areTexts,
      foldr_readText_entries writable fun text member => (described text member).2]

/-- Entries with signs that a comment has too, and a row. -/
def signedTags : List DocTag :=
  [⟨"group", "* @math /", []⟩, ⟨"testWith", "", ["[1, 2]"]⟩]

/-- Entries with stars, slashes and signs of tags inside are read back from two different comments.
-/
theorem signedTags_read :
    (∀ tag ∈ signedTags, tag.IsWritable) ∧
      docTags (blockOf (signedTags.flatMap DocTag.lineTexts)) = signedTags ∧
      docTags ("/**\n * Adds.\n *\n\t*   @group * @math /\r\n" ++
        "*\t@testWith \r\n   [1, 2]\n */").toList = signedTags := by
  have startsTag {text : List Char} (line : IsTagLine text) : text.head? = some '@' := by
    cases line <;> rfl
  have group : IsText "* @math /".toList := by decide +kernel
  have row : IsText "[1, 2]".toList := by decide +kernel
  have adds : IsText "Adds.".toList := by decide +kernel
  have noTag : ¬ IsTagLine "[1, 2]".toList ∧ ¬ IsTagLine "Adds.".toList :=
    ⟨fun line => absurd (startsTag line) (by decide +kernel),
      fun line => absurd (startsTag line) (by decide +kernel)⟩
  have writable : ∀ tag ∈ signedTags, tag.IsWritable := by
    refine List.forall_mem_cons.mpr ⟨⟨?_, group, by simp⟩,
      List.forall_mem_cons.mpr ⟨⟨?_, isText_nil, ?_⟩, by simp⟩⟩
    · simp [IsTagName, IsNameCharacter]
    · simp [IsTagName, IsNameCharacter]
    · exact List.forall_mem_singleton.mpr ⟨row, by decide, noTag.1⟩
  obtain ⟨usual, laidOut⟩ := docTags_of_written signedTags writable
  refine ⟨writable, usual, laidOut ["Adds.".toList] _ ?_ ?_⟩
  · exact List.forall_mem_singleton.mpr ⟨adds, noTag.2⟩
  · have space : Text.IsBlank [' '] := by decide
    have spaces : Text.IsBlank [' ', ' ', ' '] := by decide
    have tab : Text.IsBlank ['\t'] := by decide
    have rows : AreLinesOf ["[1, 2]".toList] "   [1, 2]\n".toList :=
      .text (.bare spaces (by decide +kernel) (by decide +kernel) Text.isBlank_nil)
        (by decide +kernel) .lineFeed .nil
    have entries : AreLinesOf (signedTags.flatMap DocTag.lineTexts)
        "\t*   @group * @math /\r\n*\t@testWith \r\n   [1, 2]\n".toList :=
      .text (.starred tab spaces (by simp) Text.isBlank_nil) (by decide +kernel) .carriageReturn
        (.text (.starred Text.isBlank_nil tab (by simp) space) (by decide +kernel) .carriageReturn
          rows)
    have lines : AreLinesOf ("Adds.".toList :: signedTags.flatMap DocTag.lineTexts)
        (" * Adds.\n *\n\t*   @group * @math /\r\n*\t@testWith \r\n   [1, 2]\n").toList :=
      .text (.starred space space (by simp) Text.isBlank_nil) (by decide +kernel) .lineFeed
        (.empty (.starred space Text.isBlank_nil (by simp) Text.isBlank_nil) (by decide +kernel)
          .lineFeed entries)
    exact ⟨.lineFeed, _, [' '], lines, space, by decide, by decide +kernel⟩

end PhpUnit

end PhpTestIndex
