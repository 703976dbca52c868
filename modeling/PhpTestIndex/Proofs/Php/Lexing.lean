import Mathlib.Data.List.Basic
import PhpTestIndex.Php.Token

/-! # Where names stand in a text

A word token covers a name. What stands between it and the token before sets the name apart: a
colon or a number sign directly before the name would belong to a comment, and a comment ends with
its own sign or with its line (`PhpTestIndex.Php.Token.parted_of_triviaLexeme`). The tokens of a
file cover its text in this way from its start to its end
(`PhpTestIndex.Php.Token.lexed_readFrom`).
-/

namespace PhpTestIndex.Php

/-- The text is a name. -/
structure IsWord (chars : List Char) : Prop where
  nonempty : chars ≠ []
  characters : ∀ c ∈ chars, Lexeme.isNameCharacter c = true

/-- The text has neither a colon nor a number sign. -/
def Unmarked (chars : List Char) : Prop :=
  ∀ c ∈ chars, c ≠ ':' ∧ c ≠ '#'

/-- A character that no name contains stands in the text after every colon and every number sign. -/
def Parted (chars : List Char) : Prop :=
  ∃ before last, chars = before ++ last ∧ Unmarked last ∧
    ∃ c ∈ last, Lexeme.isNameCharacter c = false

section Marks

variable {chars more : List Char}

theorem unmarked_append_iff : Unmarked (chars ++ more) ↔ Unmarked chars ∧ Unmarked more :=
  List.forall_mem_append

/-- A name has neither a colon nor a number sign. -/
theorem IsWord.unmarked (word : IsWord chars) : Unmarked chars := by
  intro c member
  have name := word.characters c member
  constructor
  · rintro rfl
    exact absurd name (by decide)
  · rintro rfl
    exact absurd name (by decide)

/-- Text without marks may follow, since no further mark has to be set apart. -/
theorem Parted.append_unmarked (parted : Parted chars) (unmarked : Unmarked more) :
    Parted (chars ++ more) := by
  obtain ⟨before, last, rfl, plain, c, member, other⟩ := parted
  exact ⟨before, last ++ more, List.append_assoc .., unmarked_append_iff.mpr ⟨plain, unmarked⟩, c,
    List.mem_append_left more member, other⟩

/-- Whatever stands in front: its marks are set apart by the same character as those behind. -/
theorem Parted.append_left (parted : Parted chars) (before : List Char) :
    Parted (before ++ chars) := by
  obtain ⟨earlier, last, rfl, plain⟩ := parted
  exact ⟨before ++ earlier, last, (List.append_assoc ..).symm, plain⟩

/-- After a colon or a number sign, a text that ends with it and a name is not set apart. -/
theorem not_parted_of_mark {mark : Char} (marks : mark = ':' ∨ mark = '#')
    (word : ∀ c ∈ more, Lexeme.isNameCharacter c = true) : ¬ Parted (chars ++ mark :: more) := by
  rintro ⟨before, last, equal, plain, c, member, other⟩
  have absent : mark ∉ last := by
    intro present
    rcases marks with rfl | rfl
    · exact (plain _ present).1 rfl
    · exact (plain _ present).2 rfl
  rcases List.append_eq_append_iff.mp equal with ⟨between, _, split⟩ | ⟨between, _, split⟩
  · cases between with
    | nil =>
        have same : mark :: more = last := split
        exact absent (same ▸ List.mem_cons_self)
    | cons first rest =>
        obtain ⟨_, rfl⟩ := List.cons_eq_cons.mp split
        rw [word c (List.mem_append_right rest member)] at other
        cases other
  · exact absent (split ▸ List.mem_append_right between List.mem_cons_self)

end Marks

namespace Lexeme

/-- The letters of ASCII lie between `A` and `z`. -/
theorem toNat_of_isAlpha {c : Char} (alpha : c.isAlpha = true) : 65 ≤ c.toNat ∧ c.toNat ≤ 122 := by
  change (decide (c.val ≥ 'A'.val ∧ c.val ≤ 'Z'.val) ||
    c.val ≥ 'a'.val && c.val ≤ 'z'.val) = true at alpha
  simp only [Bool.or_eq_true, Bool.and_eq_true, decide_eq_true_eq, ge_iff_le,
    UInt32.le_iff_toNat_le] at alpha
  simp only [Char.toNat]
  have : 'A'.val.toNat = 65 ∧ 'Z'.val.toNat = 90 ∧ 'a'.val.toNat = 97 ∧ 'z'.val.toNat = 122 := by
    decide
  omega

/-- The digits of ASCII lie between `0` and `9`. -/
theorem toNat_of_isDigit {c : Char} (digit : c.isDigit = true) : 48 ≤ c.toNat ∧ c.toNat ≤ 57 := by
  simp only [Char.isDigit, Bool.and_eq_true, decide_eq_true_eq, ge_iff_le,
    UInt32.le_iff_toNat_le] at digit
  exact digit

/-- No sign before the letters in ASCII starts a name. -/
theorem isNameStart_of_toNat_lt {c : Char} (small : c.toNat < 65) : isNameStart c = false := by
  by_contra name
  simp only [isNameStart, Bool.not_eq_false, Bool.or_eq_true, Bool.and_eq_true, decide_eq_true_eq,
    beq_iff_eq] at name
  have underscore : '_'.toNat = 95 := by decide
  rcases name with (alpha | rfl) | ⟨large, _⟩
  · have := toNat_of_isAlpha alpha
    omega
  · omega
  · omega

/-- Blanks are no characters of names. -/
theorem isNameCharacter_of_isSpace {c : Char} (space : isSpace c = true) :
    isNameCharacter c = false := by
  by_contra name
  simp only [isNameCharacter, isNameStart, Bool.not_eq_false, Bool.or_eq_true, space, Bool.not_true,
    Bool.and_false, Bool.false_eq_true, or_false, beq_iff_eq] at name
  simp only [isSpace, Bool.or_eq_true, Bool.and_eq_true, decide_eq_true_eq, beq_iff_eq] at space
  have blank : ' '.toNat = 32 := by decide
  rcases name with (alpha | rfl) | digit
  · have := toNat_of_isAlpha alpha
    rcases space with ((((_ | rfl) | _) | _) | _) | _ <;> omega
  · simp at space
  · have := toNat_of_isDigit digit
    rcases space with ((((_ | rfl) | _) | _) | _) | _ <;> omega

theorem take_spanLength (p : Char → Bool) (chars : List Char) :
    chars.take (spanLength p chars) = chars.takeWhile p :=
  (List.prefix_iff_eq_take.mp (List.takeWhile_prefix p)).symm

/-- What is measured as a name is a name, and the text begins with a character that may start one.
-/
theorem isWord_take_name {chars : List Char} {length : Nat} (read : name chars = length + 1) :
    IsWord (chars.take (length + 1)) ∧ ∃ c ∈ chars.head?, isNameStart c = true := by
  cases chars with
  | nil => simp [name] at read
  | cons c rest =>
      rw [name] at read
      split at read
      · rename_i starts
        have span : length = spanLength isNameCharacter rest := by omega
        rw [List.take_succ_cons, span, take_spanLength]
        refine ⟨⟨List.cons_ne_nil _ _, List.forall_mem_cons.mpr ⟨?_, ?_⟩⟩, c, rfl, starts⟩
        · simp [isNameCharacter, starts]
        · intro other member
          exact List.all_eq_true.mp List.all_takeWhile other member
      · simp at read

section Gaps

variable (chars : List Char)

/-- Nothing that starts a name follows. -/
def EndsBeforeNoName (rest : List Char) : Prop :=
  ∀ c ∈ rest.head?, isNameStart c = false

/-- Blanks set what stands before them apart. -/
theorem parted_spaces (moved : spaces chars ≠ 0) : Parted (chars.take (spaces chars)) := by
  rw [spaces, take_spanLength]
  have all : ∀ c ∈ chars.takeWhile isSpace, isSpace c = true :=
    List.all_eq_true.mp List.all_takeWhile
  have occupied : chars.takeWhile isSpace ≠ [] := fun empty =>
    moved (by simp [spaces, spanLength, empty])
  refine ⟨[], _, rfl, fun c member => ?_, ?_⟩
  · have space := all c member
    constructor
    · rintro rfl
      exact absurd space (by decide)
    · rintro rfl
      exact absurd space (by decide)
  · obtain ⟨c, member⟩ := List.exists_mem_of_ne_nil _ occupied
    exact ⟨c, member, isNameCharacter_of_isSpace (all c member)⟩

/-- A line comment ends with a line feed, or else with a closing tag or the text; no name follows
then. -/
theorem lineCommentRest_ends :
    (∃ before, chars.take (lineCommentRest chars) = before ++ ['\n']) ∨
      EndsBeforeNoName (chars.drop (lineCommentRest chars)) := by
  fun_induction lineCommentRest chars with
  | case1 => exact .inr (by simp [EndsBeforeNoName])
  | case2 rest => exact .inl ⟨['?'], rfl⟩
  | case3 rest follows =>
      obtain ⟨tail, rfl⟩ := List.head?_eq_some_iff.mp follows
      exact .inl ⟨['?', '\x0d'], rfl⟩
  | case4 rest => exact .inr (by simp [EndsBeforeNoName]; decide)
  | case5 c rest => exact .inr (by simp [EndsBeforeNoName]; decide)
  | case6 c rest _ _ _ ih =>
      rw [Nat.add_comm]
      rcases ih with ⟨before, same⟩ | other
      · exact .inl ⟨'?' :: c :: before, by simp [same]⟩
      · exact .inr (by simpa [EndsBeforeNoName] using other)
  | case7 c rest _ ends =>
      refine .inr fun first present => ?_
      obtain rfl : c = first := by simpa using present
      simp only [Bool.or_eq_true, decide_eq_true_eq] at ends
      rcases ends with ((rfl | rfl) | rfl) | zero
      · decide
      · decide
      · decide
      · exact isNameStart_of_toNat_lt (by omega)
  | case8 c rest _ _ ih =>
      rw [Nat.add_comm]
      rcases ih with ⟨before, same⟩ | other
      · exact .inl ⟨c :: before, by simp [same]⟩
      · exact .inr (by simpa [EndsBeforeNoName] using other)

theorem parted_lineFeed (before : List Char) : Parted (before ++ ['\n']) :=
  ⟨before, ['\n'], rfl, by simp [Unmarked], '\n', List.mem_singleton_self _, by decide⟩

/-- A line comment sets a name apart, or no name follows. -/
theorem lineComment_ends :
    lineComment chars = 0 ∨ Parted (chars.take (lineComment chars)) ∨
      EndsBeforeNoName (chars.drop (lineComment chars)) := by
  fun_cases lineComment chars with
  | case1 rest =>
      rw [Nat.add_comm]
      rcases lineCommentRest_ends rest with ⟨before, same⟩ | other
      · refine .inr (.inl ?_)
        have split : ('/' :: '/' :: rest).take (lineCommentRest rest + 2) =
            '/' :: '/' :: before ++ ['\n'] := by simp [same]
        exact split ▸ parted_lineFeed _
      · exact .inr (.inr (by simpa using other))
  | case2 rest => exact .inl rfl
  | case3 c rest _ ends =>
      refine .inr (.inr fun first present => ?_)
      obtain rfl : c = first := by simpa using present
      simp only [Bool.or_eq_true, decide_eq_true_eq] at ends
      rcases ends with ((rfl | rfl) | rfl) | zero
      · decide
      · decide
      · decide
      · exact isNameStart_of_toNat_lt (by omega)
  | case4 c rest _ _ =>
      rw [Nat.add_comm]
      rcases lineCommentRest_ends rest with ⟨before, same⟩ | other
      · refine .inr (.inl ?_)
        have split : ('#' :: c :: rest).take (lineCommentRest rest + 2) =
            '#' :: c :: before ++ ['\n'] := by simp [same]
        exact split ▸ parted_lineFeed _
      · exact .inr (.inr (by simpa using other))
  | case5 => exact .inr (.inr (by simp [EndsBeforeNoName]))
  | case6 => exact .inl rfl

/-- A comment of several lines ends with its closing sign. -/
theorem take_blockCommentRest {length : Nat} (read : blockCommentRest chars = some length) :
    ∃ before, chars.take length = before ++ ['*', '/'] := by
  fun_induction blockCommentRest chars generalizing length with
  | case1 => cases read
  | case2 rest =>
      obtain rfl : 2 = length := Option.some.inj read
      exact ⟨[], rfl⟩
  | case3 => cases read
  | case4 c rest _ _ ih =>
      obtain ⟨shorter, found, rfl⟩ := Option.map_eq_some_iff.mp read
      obtain ⟨before, same⟩ := ih found
      rw [Nat.add_comm]
      exact ⟨c :: before, by simp [same]⟩

/-- The closing sign of a comment of several lines sets the comment apart. -/
theorem parted_blockComment {length : Nat} (read : blockComment chars = some length) :
    Parted (chars.take length) := by
  unfold blockComment at read
  split at read
  · rename_i rest
    obtain ⟨shorter, found, rfl⟩ := Option.map_eq_some_iff.mp read
    obtain ⟨before, same⟩ := take_blockCommentRest rest found
    have split : ('/' :: '*' :: rest).take (2 + shorter) = '/' :: '*' :: before ++ ['*', '/'] := by
      rw [Nat.add_comm]
      simp [same]
    rw [split]
    exact ⟨'/' :: '*' :: before, ['*', '/'], rfl, by simp [Unmarked], '/', by simp, by decide⟩
  · cases read

/-- Text outside of code goes on to an opening tag or to the end of the file. -/
theorem drop_plainText :
    chars.drop (plainText chars) = [] ∨
      ∃ rest, chars.drop (plainText chars) = '<' :: '?' :: rest := by
  fun_induction plainText chars with
  | case1 => exact .inl rfl
  | case2 rest => exact .inr ⟨rest, rfl⟩
  | case3 c rest _ ih =>
      rw [Nat.add_comm]
      simpa using ih

/-- The question mark of an opening tag sets apart what stands before the code. -/
theorem parted_openingTag (rest : List Char) :
    Parted (('<' :: '?' :: rest).take (openingTag ('<' :: '?' :: rest))) := by
  have parted (tag : List Char) (unmarked : Unmarked tag) : Parted ('<' :: '?' :: tag) :=
    ⟨[], _, rfl, by simpa [Unmarked] using unmarked, '<', by simp, by decide⟩
  rw [openingTag]
  split
  · rename_i tag
    refine parted (rest.take 3) fun c member => ?_
    have lower : c.toLower ∈ "php".toList := by
      rw [← eq_of_beq tag]
      exact List.mem_map_of_mem member
    constructor
    · rintro rfl
      exact absurd lower (by decide)
    · rintro rfl
      exact absurd lower (by decide)
  · split
    · rename_i equals
      obtain ⟨tail, rfl⟩ := List.head?_eq_some_iff.mp equals
      exact parted ['='] (by simp [Unmarked])
    · exact parted [] (by simp [Unmarked])

/-- A closing tag with what follows up to the next opening tag sets a name apart, or the text
ends. -/
theorem interpolation_ends :
    interpolation chars = 0 ∨ Parted (chars.take (interpolation chars)) ∨
      EndsBeforeNoName (chars.drop (interpolation chars)) := by
  unfold interpolation
  split
  · rename_i rest
    split
    · exact .inr (.inl ⟨['?'], ['>'], rfl, by simp [Unmarked], '>', by simp, by decide⟩)
    · dsimp only
      have split (more : Nat) : ('?' :: '>' :: rest).take (2 + plainText rest + more) =
          '?' :: '>' :: rest.take (plainText rest) ++ (rest.drop (plainText rest)).take more := by
        rw [show 2 + plainText rest + more = plainText rest + more + 2 by omega,
          List.take_succ_cons, List.take_succ_cons, List.take_add]
        rfl
      rcases drop_plainText rest with ended | ⟨tail, tag⟩
      · refine .inr (.inr ?_)
        rw [ended, show 2 + plainText rest + openingTag [] = plainText rest + 2 by
          simp [openingTag]; omega, List.drop_succ_cons, List.drop_succ_cons, ended]
        simp [EndsBeforeNoName]
      · refine .inr (.inl ?_)
        rw [split, tag]
        exact (parted_openingTag tail).append_left _
  · exact .inl rfl

end Gaps

end Lexeme

namespace Token

/-- What stands between two tokens sets a name apart, piece by piece. -/
theorem parted_of_triviaLexeme (chars : List Char) :
    (triviaLexeme chars).2 = 0 ∨ Parted (chars.take (triviaLexeme chars).2) ∨
      Lexeme.EndsBeforeNoName (chars.drop (triviaLexeme chars).2) := by
  unfold triviaLexeme
  split
  · cases read : Lexeme.blockComment chars with
    | none => exact Lexeme.lineComment_ends chars
    | some length => exact .inr (.inl (Lexeme.parted_blockComment chars read))
  · exact Lexeme.lineComment_ends chars
  · exact Lexeme.interpolation_ends chars
  · by_cases moved : Lexeme.spaces chars = 0
    · exact .inl moved
    · exact .inr (.inl (Lexeme.parted_spaces chars moved))

/-- A cursor stands in a text after some characters. -/
structure Cursor.StandsAfter (code before : List Char) (cursor : Cursor) : Prop where
  code : code = before ++ cursor.rest
  offset : cursor.point.offset = byteLength before

/-- A cursor that skips some characters stands after them. -/
theorem Cursor.StandsAfter.skip {code before : List Char} {cursor : Cursor}
    (stands : cursor.StandsAfter code before) (count : Nat) :
    (cursor.skip count).StandsAfter code (before ++ cursor.rest.take count) where
  code := by
    rw [List.append_assoc, stands.code]
    simp [Cursor.skip]
  offset := by
    rw [Cursor.skip, Point.offset_read, stands.offset, byteLength_append]

/-- Nodes without a role and without anything in them. -/
def Bare (nodes : List Node) : Prop :=
  ∀ node ∈ nodes, node.role = none ∧ node.children = []

/-- What is read before a token leaves the cursor behind it and sets a name apart. -/
theorem readTrivia_stands {code : List Char} (fuel : Nat) {before : List Char} {cursor : Cursor}
    (stands : cursor.StandsAfter code before) :
    Bare (readTrivia fuel cursor).nodes ∧
      ∃ gap, (readTrivia fuel cursor).after.StandsAfter code (before ++ gap) ∧
        (gap = [] ∨ Parted gap ∨ Lexeme.EndsBeforeNoName (readTrivia fuel cursor).after.rest) := by
  induction fuel generalizing before cursor with
  | zero => exact ⟨by simp [Bare, readTrivia], [], by simpa [readTrivia] using stands, .inl rfl⟩
  | succ fuel ih =>
      have parted := parted_of_triviaLexeme cursor.rest
      rw [readTrivia]
      rcases lexeme : triviaLexeme cursor.rest with ⟨kind, length⟩
      rw [lexeme] at parted
      dsimp only at parted ⊢
      split
      · exact ⟨by simp [Bare], [], by simpa using stands, .inl rfl⟩
      · rename_i moved
        obtain ⟨bare, gap, after, apart⟩ := ih (stands.skip length)
        rw [List.append_assoc] at after
        have all : cursor.rest.take length ++ gap = [] ∨ Parted (cursor.rest.take length ++ gap) ∨
            Lexeme.EndsBeforeNoName (readTrivia fuel (cursor.skip length)).after.rest := by
          rcases apart with rfl | apart | none'
          -- Nothing more was read, so this piece alone has to set the name apart.
          · have same : (readTrivia fuel (cursor.skip length)).after.rest =
                cursor.rest.drop length := by
              have split := after.code.symm.trans (stands.skip length).code
              rw [List.append_nil] at split
              exact List.append_cancel_left split
            rcases parted with zero | parted | none'
            · exact absurd zero moved
            · exact .inr (.inl (by simpa using parted))
            · exact .inr (.inr (same ▸ none'))
          · exact .inr (.inl (apart.append_left _))
          · exact .inr (.inr none')
        cases kind with
        | none => exact ⟨bare, _, after, all⟩
        | some kind =>
            refine ⟨List.forall_mem_cons.mpr ⟨⟨rfl, rfl⟩, bare⟩, _, after, all⟩

/-- The tokens that are left cover the text after `before`: each covers a stretch, a word token
covers a name that is set apart, and the sign of a namespace covers that sign. -/
inductive Lexed (code : List Char) : List Char → List Token → Prop
  | nil (before : List Char) : Lexed code before []
  | cons {before gap text after : List Char} {token : Token} {rest : List Token}
      (covered : code = before ++ gap ++ text ++ after)
      (start : token.start.offset = byteLength (before ++ gap))
      (stop : token.stop.offset = byteLength (before ++ gap ++ text))
      (word : token.kind = .word → IsWord text ∧ (gap = [] ∨ Parted gap))
      (separator : token.kind = .sign → token.key = "\\" → text = ['\\'])
      (bare : Bare token.leading)
      (later : Lexed code (before ++ gap ++ text) rest) : Lexed code before (token :: rest)

/-- What a cut says of the text that it covers. -/
structure Cut.Fits (chars : List Char) (cut : Cut) : Prop where
  word : cut.kind = .word → IsWord (chars.take cut.length) ∧
    ∃ c ∈ chars.head?, Lexeme.isNameStart c = true
  separator : cut.kind = .sign → cut.key = "\\" → chars.take cut.length = ['\\']

/-- A cut that is neither a word nor a separator says nothing of its text, so it fits any text. -/
theorem Cut.fits_of_plain {chars : List Char} {cut : Cut} (noWord : cut.kind ≠ .word)
    (noSeparator : cut.kind = .sign → cut.key ≠ "\\") : cut.Fits chars where
  word kind := absurd kind noWord
  separator kind key := absurd key (noSeparator kind)

/-- What is cut in code fits: words are names, and separators are separators. -/
theorem fits_cutCode {opened : List Open} {chars : List Char} {cut : Cut}
    (made : cutCode opened chars = some cut) : cut.Fits chars := by
  unfold cutCode at made
  split at made
  · cases made
    exact Cut.fits_of_plain (by simp) (by simp)
  · split at made
    · cases made
      exact Cut.fits_of_plain (by simp) (by simp)
    · split at made
      · split at made
        · obtain ⟨length, _, rfl⟩ := Option.map_eq_some_iff.mp made
          exact Cut.fits_of_plain (by simp) (by simp)
        · cases made
          exact Cut.fits_of_plain (by simp) (by simp)
      · split at made
        · rename_i length read
          cases made
          exact ⟨fun _ => Lexeme.isWord_take_name read, fun kind => by simp at kind⟩
        · split at made
          · cases made
            exact Cut.fits_of_plain (by simp) (by simp)
          · split at made
            · cases made
              exact Cut.fits_of_plain (by simp) (by simp)
            · obtain ⟨sign, found, rfl⟩ := Option.map_eq_some_iff.mp made
              refine ⟨fun kind => by simp at kind, fun _ key => ?_⟩
              unfold Lexeme.sign? at found
              have starts := List.find?_some found
              obtain ⟨rest, rfl⟩ := List.isPrefixOf_iff_prefix.mp starts
              obtain rfl : sign = "\\" := key
              rfl

/-- What is cut in a string with variables fits, by the cases of what may stand there. -/
theorem fits_cutPart {quote : Option Char} {inside : List Open} {chars : List Char} {cut : Cut}
    (made : cutPart quote inside chars = some cut) : cut.Fits chars := by
  unfold cutPart at made
  split at made
  · split at made <;> cases made <;> exact Cut.fits_of_plain (by simp) (by simp)
  · split at made
    · obtain ⟨length, _, rfl⟩ := Option.map_eq_some_iff.mp made
      exact Cut.fits_of_plain (by simp) (by simp)
    · split at made
      · cases made
      · cases made
        exact Cut.fits_of_plain (by simp) (by simp)

/-- What is cut between quotes fits. -/
theorem fits_cutQuoted {quote : Char} {opened : List Open} {chars : List Char} {cut : Cut}
    (made : cutQuoted quote opened chars = some cut) : cut.Fits chars := by
  unfold cutQuoted at made
  split at made
  · cases made
    exact Cut.fits_of_plain (by simp) (by simp)
  · exact fits_cutPart made

/-- What is cut in a text between labels fits. -/
theorem fits_cutLabelled {label : List Char} {atLineStart : Bool} {opened : List Open}
    {chars : List Char} {cut : Cut}
    (made : cutLabelled label atLineStart opened chars = some cut) : cut.Fits chars := by
  unfold cutLabelled at made
  split at made
  · cases made
    exact Cut.fits_of_plain (by simp) (by simp)
  · obtain ⟨part, read, rfl⟩ := Option.map_eq_some_iff.mp made
    have fits := fits_cutPart read
    split
    · exact ⟨fits.word, fits.separator⟩
    · exact fits

/-- Whatever is open, the next cut fits the text that it covers. -/
theorem fits_cut? {opened : List Open} {chars : List Char} {cut : Cut}
    (made : cut? opened chars = some cut) : cut.Fits chars := by
  unfold cut? at made
  split at made
  · exact fits_cutQuoted made
  · exact fits_cutLabelled made
  · exact fits_cutCode made

/-- The token that ends the file covers what stands between the last token and the end. -/
theorem lexed_endOfFile {code before : List Char} (between : List Char) {trivia : Trivia}
    {opened : List Open} {last : Point} (start : last.offset = byteLength before)
    (after : trivia.after.StandsAfter code (before ++ between)) (bare : Bare trivia.nodes) :
    Lexed code before [endOfFile trivia opened last] := by
  have covered : code = before ++ [] ++ between ++ trivia.after.rest := by
    simpa using after.code
  refine .cons covered ?_ ?_ ?_ ?_ bare (.nil _)
  · simpa [endOfFile] using start
  · simpa [endOfFile] using after.offset
  · simp [endOfFile]
  · simp [endOfFile]

/-- A token that is cut off a text covers what it is cut off from, after what stands before it. -/
theorem lexed_cut {code before : List Char} {trivia : Trivia} {gap : List Char} {cut : Cut}
    {isAfterTag : Bool} {rest : List Token}
    (after : trivia.after.StandsAfter code (before ++ gap)) (bare : Bare trivia.nodes)
    (apart : gap = [] ∨ Parted gap ∨ Lexeme.EndsBeforeNoName trivia.after.rest)
    (fits : cut.Fits trivia.after.rest)
    (later : Lexed code (before ++ gap ++ trivia.after.rest.take cut.length) rest) :
    Lexed code before
      (⟨cut.kind, cut.key, trivia.after.point, (trivia.after.skip cut.length).point, trivia.nodes,
        isAfterTag⟩ :: rest) := by
  have covered : code = before ++ gap ++ trivia.after.rest.take cut.length ++
      trivia.after.rest.drop cut.length := by
    rw [List.append_assoc, List.take_append_drop]
    exact after.code
  refine .cons covered after.offset (after.skip cut.length).offset (fun kind => ?_) fits.separator
    bare later
  obtain ⟨word, c, first, starts⟩ := fits.word kind
  refine ⟨word, ?_⟩
  rcases apart with empty | parted | none'
  · exact .inl empty
  · exact .inr parted
  · rw [none' c first] at starts
    cases starts

/-- The tokens that are read from a cursor on cover the text from there on. -/
theorem lexed_readFrom {code : List Char} (fuel : Nat) {opened : List Open} {before : List Char}
    {cursor : Cursor} (stands : cursor.StandsAfter code before) :
    Lexed code before (readFrom fuel opened cursor.point cursor) := by
  induction fuel generalizing opened before cursor with
  | zero =>
      exact lexed_endOfFile [] stands.offset (by simpa using stands) (by simp [Bare])
  | succ fuel ih =>
      rw [readFrom]
      generalize read : (if isCode opened then readTrivia (fuel + 1) cursor
        else ⟨[], false, cursor⟩) = trivia
      obtain ⟨bare, gap, after, apart⟩ : Bare trivia.nodes ∧
          ∃ gap, trivia.after.StandsAfter code (before ++ gap) ∧
            (gap = [] ∨ Parted gap ∨ Lexeme.EndsBeforeNoName trivia.after.rest) := by
        rw [← read]
        split
        · exact readTrivia_stands (fuel + 1) stands
        · exact ⟨by simp [Bare], [], by simpa using stands, .inl rfl⟩
      dsimp only
      split
      · exact lexed_endOfFile gap stands.offset after bare
      · split
        · have covered : code = before ++ gap ++ [] ++ trivia.after.rest := by
            simpa using after.code
          refine .cons covered after.offset ?_ ?_ ?_ bare
            (lexed_endOfFile trivia.after.rest ?_ ?_ (by simp [Bare]))
          · simpa using after.offset
          · simp
          · simp
          · simpa using after.offset
          · simpa using after.skip trivia.after.rest.length
        · rename_i cut made
          exact lexed_cut after bare apart (fits_cut? made) (ih (after.skip cut.length))

end Token

end PhpTestIndex.Php
