import Mathlib.Data.List.Infix
import PhpTestIndex.Proofs.Php.InlineTag
import PhpTestIndex.Proofs.Php.Literals
import PhpTestIndex.Text.Decimal

/-! # What a string between double quotes evaluates to

In a string between double quotes, an escape sequence may stand for the character after the
backslash, for a control character, or for a byte or a character that is given by its number.
`PhpTestIndex.Php.evaluate` gives the bytes of the string that such a text evaluates to if nothing
is put into it. Decoding undoes the sequences of the first sort only, so its result is the evaluated
string exactly where the text has no other sequence (`PhpTestIndex.Php.decoded_iff_evaluated`): any
other sequence is longer than what it stands for.
-/

namespace PhpTestIndex.Php

/-! ### Evaluation -/

/-- A digit to the base sixteen. -/
def isHexDigit (c : Char) : Bool :=
  c.isDigit || ('a' ≤ c && c ≤ 'f') || ('A' ≤ c && c ≤ 'F')

/-- What a backslash stands for with what follows it, and how many of the characters after it belong
to the sequence. -/
abbrev Sequence := List UInt8 × Nat

/-- A control character, by its letter. -/
def control? : List Char → Option Sequence
  | 'n' :: _ => some ([10], 1)
  | 't' :: _ => some ([9], 1)
  | 'r' :: _ => some ([13], 1)
  | 'v' :: _ => some ([11], 1)
  | 'e' :: _ => some ([27], 1)
  | 'f' :: _ => some ([12], 1)
  | _ => none

/-- A byte, by its number to the base eight: three digits at most. A larger number wraps. -/
def octal? (chars : List Char) : Option Sequence :=
  match (chars.take 3).takeWhile Lexeme.isOctalDigit with
  | [] => none
  | digits => some ([.ofNat (Text.digitsValue 8 digits)], digits.length)

/-- A byte, by its number to the base sixteen after an `x`: two digits at most. -/
def hexadecimal? : List Char → Option Sequence
  | [] => none
  | mark :: rest =>
    if mark = 'x' ∨ mark = 'X' then
      match (rest.take 2).takeWhile isHexDigit with
      | [] => none
      | digits => some ([.ofNat (Text.digitsValue 16 digits)], digits.length + 1)
    else none

/-- A character that is there for itself and would mean something else without the backslash. -/
def hidden? : List Char → Option Sequence
  | [] => none
  | c :: _ => if Quote.double.hides c then some (String.utf8EncodeChar c, 1) else none

/-- The bytes of the character with a number. -/
def codePointBytes (number : Nat) : List UInt8 :=
  let low (shift : Nat) : UInt8 := .ofNat (0x80 + number / shift % 0x40)
  if number < 0x80 then [.ofNat number]
  else if number < 0x800 then [.ofNat (0xC0 + number / 0x40), low 1]
  else if number < 0x10000 then [.ofNat (0xE0 + number / 0x1000), low 0x40, low 1]
  else [.ofNat (0xF0 + number / 0x40000), low 0x1000, low 0x40, low 1]

example : codePointBytes 0x1F600 = String.utf8EncodeChar '😀' := by decide

/-- A character, by its number in braces, of which the first is read already. Nothing else may stand
in the braces. -/
def codePoint? (chars : List Char) : Option Sequence :=
  let digits := chars.takeWhile isHexDigit
  let number := Text.digitsValue 16 digits
  if digits ≠ [] ∧ (chars.drop digits.length).head? = some '\x7d' ∧ number ≤ 0x10FFFF then
    some (codePointBytes number, digits.length + 3)
  else none

/-- A control character or a byte. -/
def other? (chars : List Char) : Option Sequence :=
  (control? chars).or ((octal? chars).or (hexadecimal? chars))

/-- The sequence that a backslash before a text starts. A backslash that starts none stands for
itself, and after `u` and a brace there must be a character. -/
def sequence? : List Char → Option Sequence
  | 'u' :: '\x7b' :: rest => codePoint? rest
  | chars => some (((other? chars).or (hidden? chars)).getD (String.utf8EncodeChar '\\', 0))

/-- The bytes that the text of a string between double quotes evaluates to, if it may stand
there. -/
def evaluate (chars : List Char) : Option (List UInt8) :=
  match chars with
  | [] => some []
  | '\\' :: rest =>
    match sequence? rest with
    | some (bytes, length) => (evaluate (rest.drop length)).map (bytes ++ ·)
    | none => none
  | c :: rest => (evaluate rest).map (String.utf8EncodeChar c ++ ·)
termination_by chars.length
decreasing_by all_goals simp; try omega

/-- A sequence that does not stand for the character after the backslash starts here. -/
def startsOther : List Char → Bool
  | 'u' :: '\x7b' :: _ => true
  | chars => (other? chars).isSome

/-- Some escape sequence does not stand for the character after its backslash. -/
def hasOther : List Char → Bool
  | '\\' :: c :: rest => startsOther (c :: rest) || hasOther rest
  | _ :: rest => hasOther rest
  | [] => false

example : evaluate "a\\tb\\x41\\u\x7b20\x7d\\101\\\\".toList =
    some [97, 9, 98, 65, 32, 65, 92] := by decide +kernel
example : evaluate "\\u\x7b\x7d".toList = none := by decide +kernel

/-! ### Sequences -/

/-- A sequence for another character: it takes characters that are no backslashes, of which the
first is not there for itself, and stands for no more bytes than it takes characters. -/
structure Sequence.Replaces (sequence : Sequence) (first : Char) (others rest : List Char)
    (chars : List Char) : Prop where
  taken : chars = first :: others ++ rest
  length : sequence.2 = others.length + 1
  shorter : sequence.1.length ≤ sequence.2
  notItself : Quote.double.hides first = false
  noBackslash : '\\' ∉ others

section Sequences

variable {c : Char} {chars : List Char} {sequence : Sequence}

/-- A character without a property is not among characters that all have it. -/
theorem not_mem_of_all {p : Char → Bool} (all : ∀ c ∈ chars, p c = true)
    (refused : p c = false) : c ∉ chars := by
  intro member
  rw [all c member] at refused
  cases refused

/-- Digits at the start of a text are taken from it. -/
theorem exists_digits {p : Char → Bool} {count : Nat} {digit : Char} {digits : List Char}
    (found : (chars.take count).takeWhile p = digit :: digits) :
    (∃ rest, chars = digit :: digits ++ rest) ∧ ∀ c ∈ digit :: digits, p c = true := by
  have starts : digit :: digits <+: chars :=
    found ▸ (List.takeWhile_prefix p).trans (List.take_prefix count chars)
  obtain ⟨rest, whole⟩ := starts
  refine ⟨⟨rest, whole.symm⟩, ?_⟩
  rw [← found]
  exact List.all_eq_true.mp List.all_takeWhile

/-- The letter of a control character is replaced by one byte. -/
theorem replaces_of_control? (found : control? chars = some sequence) :
    ∃ first others rest, sequence.Replaces first others rest chars := by
  unfold control? at found
  split at found
  case h_7 => cases found
  all_goals
    rename_i rest
    obtain rfl := Option.some.inj found
    exact ⟨_, [], rest, rfl, rfl, Nat.le_refl 1, by decide, by simp⟩

/-- Up to three octal digits are replaced by one byte. -/
theorem replaces_of_octal? (found : octal? chars = some sequence) :
    ∃ first others rest, sequence.Replaces first others rest chars := by
  unfold octal? at found
  split at found
  · cases found
  · rename_i taken occupied
    obtain rfl := Option.some.inj found
    cases digits : (chars.take 3).takeWhile Lexeme.isOctalDigit with
    | nil => exact absurd digits occupied
    | cons first others =>
        obtain ⟨⟨rest, whole⟩, all⟩ := exists_digits digits
        obtain ⟨isDigit, areDigits⟩ := List.forall_mem_cons.mp all
        refine ⟨first, others, rest, whole, rfl, by simp, ?_, ?_⟩
        · rw [Bool.eq_false_iff]
          intro hidden
          simp only [Quote.hides, Bool.or_eq_true, beq_iff_eq] at hidden
          rcases hidden with (rfl | rfl) | rfl <;> exact absurd isDigit (by decide)
        · exact not_mem_of_all areDigits (by decide)

/-- An `x` with one or two digits is replaced by one byte. -/
theorem replaces_of_hexadecimal? (found : hexadecimal? chars = some sequence) :
    ∃ first others rest, sequence.Replaces first others rest chars := by
  unfold hexadecimal? at found
  split at found
  · cases found
  · rename_i mark rest
    split at found
    · rename_i isMark
      split at found
      · cases found
      · rename_i taken occupied
        obtain rfl := Option.some.inj found
        cases digits : (rest.take 2).takeWhile isHexDigit with
        | nil => exact absurd digits occupied
        | cons first others =>
            obtain ⟨⟨more, whole⟩, all⟩ := exists_digits digits
            refine ⟨mark, first :: others, more, congrArg (mark :: ·) whole, rfl, by simp, ?_, ?_⟩
            · rcases isMark with rfl | rfl <;> decide
            · exact not_mem_of_all all (by decide)
    · cases found

/-- A character has at most four bytes. -/
theorem length_codePointBytes_le (number : Nat) : (codePointBytes number).length ≤ 4 := by
  unfold codePointBytes
  split_ifs <;> simp

/-- A number in braces has at least as many signs as its character has bytes: with the letter, the
braces and a digit there are four. -/
theorem replaces_of_codePoint? (found : codePoint? chars = some sequence) :
    ∃ others rest, sequence.Replaces 'u' others rest ('u' :: '\x7b' :: chars) := by
  unfold codePoint? at found
  dsimp only at found
  split at found
  · rename_i isCharacter
    obtain ⟨occupied, closed, _⟩ := isCharacter
    obtain rfl := Option.some.inj found
    obtain ⟨rest, after⟩ := List.head?_eq_some_iff.mp closed
    have whole : chars = chars.takeWhile isHexDigit ++ '\x7d' :: rest := by
      rw [← after]
      exact List.prefix_append_drop (List.takeWhile_prefix isHexDigit)
    have atLeast : 1 ≤ (chars.takeWhile isHexDigit).length :=
      List.length_pos_iff.mpr occupied
    have bytes := length_codePointBytes_le (Text.digitsValue 16 (chars.takeWhile isHexDigit))
    refine ⟨'\x7b' :: chars.takeWhile isHexDigit ++ ['\x7d'], rest, ?_, ?_, ?_, by decide, ?_⟩
    · conv_lhs => rw [whole]
      simp
    · simp
    · dsimp only
      omega
    · have noDigit : '\\' ∉ chars.takeWhile isHexDigit :=
        not_mem_of_all (List.all_eq_true.mp List.all_takeWhile) (by decide)
      simpa using noDigit
  · cases found

/-- Whatever sequence for another character is found, it is replaced by no more bytes than it has
characters, and it has no backslash in it. -/
theorem replaces_of_other? (found : other? chars = some sequence) :
    ∃ first others rest, sequence.Replaces first others rest chars := by
  rcases Option.or_eq_some_iff.mp found with control | ⟨_, byte⟩
  · exact replaces_of_control? control
  · rcases Option.or_eq_some_iff.mp byte with octal | ⟨_, hexadecimal⟩
    · exact replaces_of_octal? octal
    · exact replaces_of_hexadecimal? hexadecimal

/-- A character that means nothing else without the backslash is not hidden by one. -/
theorem hidden?_of_shown (shown : ∀ c ∈ chars.head?, Quote.double.hides c = false) :
    hidden? chars = none := by
  cases chars with
  | nil => rfl
  | cons c rest =>
      have plain : Quote.double.hides c = false := shown c rfl
      simp [hidden?, plain]

/-- A backslash that hides a character starts no sequence for another one. -/
theorem startsOther_of_hides {rest : List Char} (hidden : Quote.double.hides c = true) :
    startsOther (c :: rest) = false := by
  have nothing : ∀ sequence, other? (c :: rest) ≠ some sequence := by
    intro sequence found
    obtain ⟨first, others, more, replaces⟩ := replaces_of_other? found
    obtain ⟨rfl, _⟩ := List.cons_eq_cons.mp replaces.taken
    rw [replaces.notItself] at hidden
    cases hidden
  unfold startsOther
  split
  · rename_i starts
    obtain ⟨rfl, _⟩ := List.cons_eq_cons.mp starts
    exact absurd hidden (by decide)
  · rw [Option.eq_none_iff_forall_ne_some.mpr nothing]
    rfl

/-- A backslash that starts no other sequence stands for the character that it hides, or for
itself. -/
theorem sequence?_of_not_startsOther (noOther : startsOther chars = false) :
    sequence? chars = some ((hidden? chars).getD (String.utf8EncodeChar '\\', 0)) := by
  unfold startsOther at noOther
  split at noOther
  · cases noOther
  · rename_i notNumbered
    rw [Option.isSome_eq_false_iff, Option.isNone_iff_eq_none] at noOther
    unfold sequence?
    split
    · exact absurd rfl (notNumbered _)
    · rw [noOther, Option.none_or]

/-- Where a sequence for another character starts and the text may be evaluated, the text is changed
there. -/
theorem replaces_of_startsOther (starts : startsOther chars = true)
    (found : sequence? chars = some sequence) :
    ∃ first others rest, sequence.Replaces first others rest chars := by
  unfold sequence? at found
  split at found
  · exact ⟨'u', replaces_of_codePoint? found⟩
  · rename_i notNumbered
    unfold startsOther at starts
    split at starts
    · exact absurd rfl (notNumbered _)
    · obtain ⟨other, isOther⟩ := Option.isSome_iff_exists.mp starts
      rw [isOther, Option.some_or, Option.getD_some] at found
      exact replaces_of_other? (isOther.trans found)

end Sequences

/-! ### Decoding and evaluation -/

section Evaluation

variable {c : Char} {chars rest : List Char}

/-- At a backslash the sequence that it starts is evaluated, and what follows the sequence after it.
-/
theorem evaluate_backslash :
    evaluate ('\\' :: rest) =
      (sequence? rest).bind fun sequence =>
        (evaluate (rest.drop sequence.2)).map (sequence.1 ++ ·) := by
  rw [evaluate]
  cases sequence? rest <;> rfl

/-- A character that is no backslash stands for its own bytes. -/
theorem evaluate_of_ne (plain : c ≠ '\\') :
    evaluate (c :: rest) = (evaluate rest).map (String.utf8EncodeChar c ++ ·) := by
  rw [evaluate]
  exact plain

/-- Whether there is a sequence for another character is decided at backslashes alone. -/
theorem hasOther_of_ne (plain : c ≠ '\\') : hasOther (c :: rest) = hasOther rest := by
  cases rest with
  | nil => simp [hasOther]
  | cons next rest =>
      rw [hasOther]
      simp [plain]

/-- A hidden character stands for its own bytes, without the backslash. -/
theorem evaluate_of_hides (hidden : Quote.double.hides c = true) :
    evaluate ('\\' :: c :: rest) = (evaluate rest).map (String.utf8EncodeChar c ++ ·) := by
  rw [evaluate_backslash, sequence?_of_not_startsOther (startsOther_of_hides hidden), hidden?,
    if_pos hidden]
  rfl

/-- A backslash that starts no sequence is as any other character. -/
theorem evaluate_of_shown (shown : ∀ c ∈ rest.head?, Quote.double.hides c = false)
    (noOther : startsOther rest = false) :
    evaluate ('\\' :: rest) = (evaluate rest).map (String.utf8EncodeChar '\\' ++ ·) := by
  rw [evaluate_backslash, sequence?_of_not_startsOther noOther, hidden?_of_shown shown]
  rfl

theorem ne_backslash_of_shown (shown : Quote.double.hides c = false) : c ≠ '\\' :=
  ne_of_shown (by simp [shown]) Quote.double.hides_backslash

/-- Decoding gives what a text without other sequences evaluates to. -/
theorem evaluate_of_not_hasOther (noOther : hasOther chars = false) :
    evaluate chars = some (Text.bytes (unescape Quote.double.hides chars)) := by
  fun_induction unescape Quote.double.hides chars with
  | case1 c rest hidden ih =>
      rw [hasOther, Bool.or_eq_false_iff] at noOther
      rw [evaluate_of_hides hidden, ih noOther.2]
      rfl
  | case2 c rest shown ih =>
      rw [hasOther, Bool.or_eq_false_iff] at noOther
      have shown : Quote.double.hides c = false := by simpa using shown
      rw [evaluate_of_shown (by simpa using shown) noOther.1,
        evaluate_of_ne (ne_backslash_of_shown shown), ih noOther.2]
      rfl
  | case3 c rest notPair ih =>
      rcases plain_or_last notPair with plain | ⟨rfl, rfl⟩
      · rw [hasOther_of_ne plain] at noOther
        rw [evaluate_of_ne plain, ih noOther]
        rfl
      · decide +kernel
  | case4 => rw [evaluate]; rfl

/-- One pass leaves characters as they are up to the first backslash. -/
theorem unescape_append {others : List Char} (noBackslash : '\\' ∉ others) :
    unescape Quote.double.hides (others ++ rest) =
      others ++ unescape Quote.double.hides rest := by
  induction others with
  | nil => rfl
  | cons c others ih =>
      obtain ⟨plain, later⟩ : '\\' ≠ c ∧ '\\' ∉ others := by simpa using noBackslash
      rw [List.cons_append, unescape_of_ne (Ne.symm plain), ih later, List.cons_append]

/-- Every character has at least one byte. -/
theorem length_le_byteLength (chars : List Char) : chars.length ≤ byteLength chars := by
  induction chars with
  | nil => exact Nat.le_refl _
  | cons c rest ih =>
      have positive := c.utf8Size_pos
      rw [byteLength_cons, List.length_cons]
      omega

/-- A text evaluates to no more bytes than decoding gives, and to fewer if it has an other
sequence. -/
theorem length_evaluate_le {value : List UInt8} (evaluated : evaluate chars = some value) :
    value.length + (hasOther chars).toNat ≤
      byteLength (unescape Quote.double.hides chars) := by
  fun_induction evaluate chars generalizing value with
  | case1 =>
      obtain rfl := Option.some.inj evaluated
      exact Nat.le_refl 0
  | case2 rest bytes length found ih =>
      obtain ⟨later, evaluatedLater, rfl⟩ := Option.map_eq_some_iff.mp evaluated
      have bound := ih evaluatedLater
      by_cases starts : startsOther rest = true
      · obtain ⟨first, others, more, rfl, rfl, shorter, shown, noBackslash⟩ :=
          replaces_of_startsOther starts found
        have decoded : unescape Quote.double.hides ('\\' :: (first :: others ++ more)) =
            '\\' :: first :: (others ++ unescape Quote.double.hides more) := by
          rw [List.cons_append, unescape_of_not_hides shown, unescape_append noBackslash]
        have after : (first :: others ++ more).drop (others.length + 1) = more := by simp
        have atMostOne := Bool.toNat_le (hasOther ('\\' :: (first :: others ++ more)))
        have taken := length_le_byteLength others
        have positive := first.utf8Size_pos
        have backslash : '\\'.utf8Size = 1 := by decide
        rw [after] at bound
        rw [decoded, byteLength_cons, byteLength_cons, byteLength_append, List.length_append]
        dsimp only at shorter
        omega
      have noOther : startsOther rest = false := by simpa using starts
      rw [sequence?_of_not_startsOther noOther] at found
      cases rest with
      | nil =>
          obtain ⟨rfl, rfl⟩ := Prod.mk.inj (Option.some.inj found)
          obtain rfl : later = [] := by simpa [hasOther, unescape] using bound
          decide
      | cons c more =>
          rw [hasOther, noOther, Bool.false_or]
          by_cases hidden : Quote.double.hides c = true
          · rw [hidden?, if_pos hidden] at found
            obtain ⟨rfl, rfl⟩ := Prod.mk.inj (Option.some.inj found)
            rw [List.drop_one, List.tail_cons] at bound
            rw [unescape_of_hides hidden, byteLength_cons, List.length_append,
              String.length_utf8EncodeChar]
            omega
          · have shown : Quote.double.hides c = false := by simpa using hidden
            have plain := ne_backslash_of_shown shown
            rw [hidden?_of_shown (by simpa using shown)] at found
            obtain ⟨rfl, rfl⟩ := Prod.mk.inj (Option.some.inj found)
            rw [List.drop_zero, hasOther_of_ne plain, unescape_of_ne plain] at bound
            rw [unescape_of_not_hides shown, byteLength_cons, List.length_append,
              String.length_utf8EncodeChar]
            omega
  | case3 => cases evaluated
  | case4 c rest notBackslash ih =>
      obtain ⟨later, evaluatedLater, rfl⟩ := Option.map_eq_some_iff.mp evaluated
      have bound := ih evaluatedLater
      rw [hasOther_of_ne notBackslash, unescape_of_ne notBackslash, byteLength_cons,
        List.length_append, String.length_utf8EncodeChar]
      omega

end Evaluation

namespace Literal

/-- The literal means a text: after one pass between single quotes, and after evaluation between
double quotes. -/
def Means (literal : Literal) (text : List Char) : Prop :=
  match literal.quote with
  | .single => literal.value = text
  | .double => evaluate literal.body = some (Text.bytes text)

/-- Each escape sequence stands for the character after its backslash. -/
def IsPlain (literal : Literal) : Prop :=
  literal.quote = .double → hasOther literal.body = false

end Literal

/-- Decoding gives what a literal means exactly if each of its escape sequences stands for the
character after the backslash. -/
theorem value_eq_iff_isPlain {literal : Literal} {text : List Char} (means : literal.Means text) :
    literal.value = text ↔ literal.IsPlain := by
  obtain ⟨mark, quote, body, isMark⟩ := literal
  cases quote with
  | single => exact iff_of_true means fun isDouble => nomatch isDouble
  | double =>
      have evaluated : evaluate body = some (Text.bytes text) := means
      constructor
      · intro same _
        have bound := length_evaluate_le evaluated
        rw [Text.length_bytes, ← same, Literal.value] at bound
        by_contra other
        have isOther : hasOther body = true := by simpa using other
        rw [isOther, Bool.toNat_true] at bound
        dsimp only at bound
        omega
      · intro plain
        rw [evaluate_of_not_hasOther (plain rfl)] at evaluated
        exact Text.bytes_injective (Option.some.inj evaluated)

/-- **Decoding evaluates what has no other sequences.** The value of a string between double quotes
into which nothing is put is the string that it evaluates to, exactly if each of its escape
sequences stands for the character after the backslash. -/
theorem decoded_iff_evaluated {document : Document} {node : Node} {literal : Literal}
    (isDouble : literal.quote = .double) (kind : node.kind = literal.quote.kind)
    (text : document.text node = literal.text) :
    (∃ value, document.stringValue? node = some value ∧
      evaluate literal.body = some (Text.bytes value.toList)) ↔ hasOther literal.body = false := by
  have decoded : document.stringValue? node =
      some (String.ofList (unescape Quote.double.hides literal.body)) := by
    rw [Document.stringValue?, kind, text, stringValue?_text, Literal.value, isDouble,
      Option.map_some]
  rw [decoded]
  constructor
  · rintro ⟨value, same, evaluated⟩
    obtain rfl := Option.some.inj same
    have bound := length_evaluate_le evaluated
    rw [String.toList_ofList, Text.length_bytes] at bound
    by_contra other
    have isOther : hasOther literal.body = true := by simpa using other
    rw [isOther, Bool.toNat_true] at bound
    omega
  · intro noOther
    refine ⟨_, rfl, ?_⟩
    rw [String.toList_ofList, evaluate_of_not_hasOther noOther]

/-- A call with a string whose sequences all stand for the character after the backslash. -/
def hiddenSigns : List Char :=
  "<?php f(\"\\$5 \\\\ \\\"\\d\\\\\");".toList

/-- A call with a string that gives a character by its number and a line feed by its letter. -/
def numberedCharacter : List Char :=
  "<?php f(\"\\x41\\n\");".toList

/-- A string with hidden quotes, dollar signs and backslashes evaluates to what is decoded. -/
theorem hiddenSigns_evaluated :
    ∃ document, Document.read hiddenSigns = .ok document ∧
      ∃ placed ∈ document.root.descendants none,
        placed.node.kind = .interpolatedString ∧
        document.string placed.node = "\"\\$5 \\\\ \\\"\\d\\\\\"" ∧
        hasOther "\\$5 \\\\ \\\"\\d\\\\".toList = false ∧
        ∃ value, document.stringValue? placed.node = some value ∧
          evaluate "\\$5 \\\\ \\\"\\d\\\\".toList = some (Text.bytes value.toList) := by
  let literal : Literal :=
    ⟨[], .double, "\\$5 \\\\ \\\"\\d\\\\".toList, List.mem_cons_self⟩
  obtain ⟨document, parsed, placed, among, kind, text⟩ :=
    @exists_document_of_check hiddenSigns
      (fun document => ∃ placed ∈ document.root.descendants none,
        placed.node.kind = .interpolatedString ∧
        document.text placed.node = "\"\\$5 \\\\ \\\"\\d\\\\\"".toList)
      _ (by decide +kernel)
  have noOther : hasOther literal.body = false := by decide +kernel
  have isText : document.text placed.node = literal.text := text
  exact ⟨document, parsed, placed, among, kind, congrArg String.ofList text, noOther,
    (decoded_iff_evaluated rfl kind isText).mpr noOther⟩

/-- Neither sequence is undone. -/
theorem numberedCharacter_misread :
    ∃ document, Document.read numberedCharacter = .ok document ∧
      ∃ placed ∈ document.root.descendants none,
        placed.node.kind = .interpolatedString ∧
        document.string placed.node = "\"\\x41\\n\"" ∧
        evaluate "\\x41\\n".toList = some (Text.bytes "A\n".toList) ∧
        document.stringValue? placed.node = some "\\x41\\n" := by
  obtain ⟨document, parsed, placed, among, kind, text, value⟩ :=
    @exists_document_of_check numberedCharacter
      (fun document => ∃ placed ∈ document.root.descendants none,
        placed.node.kind = .interpolatedString ∧
        document.string placed.node = "\"\\x41\\n\"" ∧
        document.stringValue? placed.node = some "\\x41\\n")
      _ (by decide +kernel)
  exact ⟨document, parsed, placed, among, kind, text, by decide +kernel, value⟩

end PhpTestIndex.Php
