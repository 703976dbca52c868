import Mathlib.Data.List.TakeWhile
import PhpTestIndex.Proofs.Text.Piece
import PhpTestIndex.Toml.Text
import PhpTestIndex.Toml.Value

/-! # Texts in TOML documents are read as they are written

A text is written in one of five styles. A character that is written as an escape sequence is what
the sequence stands for (`PhpTestIndex.Toml.escape_cases`), and quotation marks at the end of a long
text are told from the three that close it (`PhpTestIndex.Toml.closes_escapeAll`). So whatever the
style is, reading gives the text back (`PhpTestIndex.Toml.readText_renderString`).
-/

namespace PhpTestIndex.Toml

/-! ### Characters -/

/-- A space, a tab or a character of a line break. -/
def isBlankOrBreak (c : Char) : Bool :=
  c == ' ' || c == '\t' || c == '\n' || c == '\r'

/-- The four digits that are written for a control character mean its code point; there are few
enough of them to look at each. -/
theorem digitsValue_controlDigits_of_lt : ∀ n < 128, isControl (Char.ofNat n) = true →
    (controlDigits (Char.ofNat n)).toList.all isHexDigit = true ∧
      Text.digitsValue 16 (controlDigits (Char.ofNat n)).toList = n := by
  decide +kernel

/-- Control characters lie in ASCII. -/
theorem toNat_lt_of_isControl {c : Char} (control : isControl c = true) : c.toNat < 128 := by
  simp only [isControl, Bool.or_eq_true, Bool.and_eq_true, decide_eq_true_eq, beq_iff_eq] at control
  omega

/-- A control character that is written by its code point is read as it is. -/
theorem readCodePoint_controlDigits {c : Char} (control : isControl c = true) (name : String)
    (rest : List Char) :
    readCodePoint name 4 ((controlDigits c).toList ++ rest) = .ok (c, rest) := by
  have size : (controlDigits c).toList.length = 4 := by simp [controlDigits]
  have here := digitsValue_controlDigits_of_lt c.toNat (toNat_lt_of_isControl control)
  rw [Char.ofNat_toNat] at here
  obtain ⟨digits, value⟩ := here control
  have valid : c.toNat.isValidChar := c.valid
  simp only [readCodePoint, List.take_left' size, List.drop_left' size, size, digits, value, valid,
    Char.ofNat_toNat]
  rfl

/-- A character that is no control character may stand in a text as it is, unless it breaks the
line. -/
theorem isForbidden_of_not_isControl {c : Char} (plain : isControl c = false) (noBreak : c ≠ '\n') :
    isForbidden c = false := by
  simpa [isControl, isForbidden, noBreak] using plain

/-- A carriage return is a control character, so plain text has none. -/
theorem ne_return_of_not_isControl {c : Char} (plain : isControl c = false) : c ≠ '\r' := by
  rintro rfl
  exact absurd plain (by decide)

/-- A character that is no quotation mark is written as an escape sequence that stands for it, or as
it is. -/
theorem escape_cases (isLong : Bool) (c : Char) :
    (∃ first more, (escape isLong c).toList = '\\' :: first :: more ∧ isBlankOrBreak first = false ∧
      ∀ rest, readEscaped (first :: (more ++ rest)) = .ok (c, rest)) ∨
    ((escape isLong c).toList = [c] ∧ c ≠ '\\' ∧ isControl c = false ∧
      (c = '\n' → isLong = true)) := by
  unfold escape
  split
  case h_1 => exact .inl ⟨'b', [], rfl, rfl, fun rest => rfl⟩
  case h_2 => exact .inl ⟨'t', [], rfl, rfl, fun rest => rfl⟩
  case h_3 =>
    cases isLong with
    | false => exact .inl ⟨'n', [], rfl, rfl, fun rest => rfl⟩
    | true => exact .inr ⟨rfl, by decide, rfl, fun _ => rfl⟩
  case h_4 => exact .inl ⟨'f', [], rfl, rfl, fun rest => rfl⟩
  case h_5 => exact .inl ⟨'r', [], rfl, rfl, fun rest => rfl⟩
  case h_6 => exact .inl ⟨'\\', [], rfl, rfl, fun rest => rfl⟩
  case h_7 _ _ notBreak _ _ notBackslash =>
    split
    · next control =>
      refine .inl ⟨'u', (controlDigits c).toList, by simp, rfl, fun rest => ?_⟩
      rw [readEscaped, readCodePoint_controlDigits control]
    · next plain =>
      exact .inr ⟨by simp, notBackslash, by simpa using plain,
        fun isBreak => absurd isBreak notBreak⟩

/-! ### Texts on one line -/

/-- What may stand after a value: the end, a line break, a comma or a bracket. -/
def Ends (rest : List Char) : Prop :=
  ∀ c ∈ rest.head?, c = '\n' ∨ c = ',' ∨ c = ']'

/-- What follows a value begins with nothing else than these characters. -/
theorem Ends.head?_ne {rest : List Char} (ends : Ends rest) {c : Char} (noBreak : c ≠ '\n')
    (noComma : c ≠ ',') (noBracket : c ≠ ']') : rest.head? ≠ some c := by
  intro begins
  rcases ends c begins with rfl | rfl | rfl
  · exact noBreak rfl
  · exact noComma rfl
  · exact noBracket rfl

/-- A text is read back from what it is escaped to in one line; fuel for each character is enough.
-/
theorem readBasic_escapeAll (chars rest : List Char) {fuel run : Nat}
    (enough : chars.length < fuel) :
    readBasic fuel ((escapeAll false 0 run chars).toList ++ '\x22' :: rest) =
      .ok (chars, rest) := by
  induction chars generalizing fuel run with
  | nil =>
      obtain ⟨fuel, rfl⟩ := Nat.exists_eq_add_of_lt enough
      simp [escapeAll, readBasic]
  | cons c chars ih =>
      obtain ⟨fuel, rfl⟩ : ∃ before, fuel = before + 1 := ⟨fuel - 1, by omega⟩
      have later {run : Nat} := @ih fuel run (Nat.lt_of_succ_lt_succ enough)
      rw [escapeAll]
      split
      · next isQuote =>
        have sign : '\x22' ≠ '\\' := by decide
        rw [if_neg (Nat.not_lt_zero run), isQuote]
        simp [readBasic, readEscaped, later, prepend, Except.map]
      · next notQuote =>
        rcases escape_cases false c with ⟨first, more, written, -, means⟩ |
          ⟨written, notBackslash, plain, noBreak⟩
        · rw [String.toList_append, written, List.append_assoc, List.cons_append, List.cons_append,
            readBasic, if_neg (by decide), if_pos (by simp), means]
          simp only [later, prepend, Except.map]
        · have allowed := isForbidden_of_not_isControl plain fun isBreak => nomatch noBreak isBreak
          rw [String.toList_append, written, List.append_assoc, List.singleton_append, readBasic,
            if_neg notQuote, if_neg (by simp [notBackslash]),
            if_neg (by simp [notBackslash, allowed]), later]
          rfl

/-- A text without quotes, line breaks and control characters is read back as it is. -/
theorem readLiteral_append {chars : List Char} (rest : List Char) (noQuote : '\'' ∉ chars)
    (noBreak : '\n' ∉ chars) (plain : ∀ c ∈ chars, isControl c = false) :
    readLiteral (chars ++ '\'' :: rest) = .ok (chars, rest) := by
  induction chars with
  | nil => simp [readLiteral]
  | cons c chars ih =>
      have notQuote : c ≠ '\'' := fun same => noQuote (same ▸ List.mem_cons_self)
      have notBreak : c ≠ '\n' := fun same => noBreak (same ▸ List.mem_cons_self)
      have allowed := isForbidden_of_not_isControl (plain c List.mem_cons_self) notBreak
      have later := ih (fun member => noQuote (List.mem_cons_of_mem c member))
        (fun member => noBreak (List.mem_cons_of_mem c member))
        fun d member => plain d (List.mem_cons_of_mem c member)
      rw [List.cons_append, readLiteral, if_neg notQuote, if_neg (by simp [allowed]), later]
      rfl

/-! ### Long texts -/

section Long

variable {quote : Char} {rest more : List Char}

/-- A run of quotes is as long as it was made, if no quote follows. -/
theorem length_takeWhile_replicate (other : more.head? ≠ some quote) (count : Nat) :
    ((List.replicate count quote ++ more).takeWhile fun c => c == quote).length = count := by
  have stops : more.takeWhile (fun c => c == quote) = [] := by
    cases more with
    | nil => rfl
    | cons c more =>
        have noQuote : (c == quote) = false := by simpa using other
        simp [noQuote]
  rw [List.takeWhile_append_of_pos (by simp), stops, List.append_nil, List.length_replicate]

/-- Three quotation marks close a long text, and up to two before them belong to it. -/
theorem tripleEnd?_replicate_add (other : rest.head? ≠ some quote) {count : Nat}
    (few : count ≤ 2) :
    tripleEnd? quote (List.replicate (count + 3) quote ++ rest) =
      some (List.replicate count quote, rest) := by
  have least : min (count + 3) 5 = count + 3 := by omega
  simp only [tripleEnd?, length_takeWhile_replicate other, least]
  rw [if_neg (by omega), List.drop_left' (List.length_replicate), Nat.add_sub_cancel]

/-- Fewer quotation marks do not close a long text. -/
theorem tripleEnd?_replicate (other : more.head? ≠ some quote) {count : Nat} (few : count ≤ 2) :
    tripleEnd? quote (List.replicate count quote ++ more) = none := by
  simp only [tripleEnd?, length_takeWhile_replicate other]
  rw [if_pos (by omega)]

/-- Where a long text is not closed, fewer than three quotation marks follow each other. -/
theorem length_takeWhile_of_tripleEnd? {chars : List Char}
    (isOpen : tripleEnd? quote chars = none) :
    (chars.takeWhile fun c => c == quote).length < 3 := by
  simp only [tripleEnd?, ite_eq_left_iff, reduceCtorEq, imp_false, not_not] at isOpen
  exact isOpen

/-- Fewer than three quotation marks do not fill what is left of a longer text. -/
theorem not_all_of_tripleEnd? {chars : List Char} (isOpen : tripleEnd? quote chars = none)
    (size : 3 ≤ chars.length) : ¬ chars.all (· == quote) = true := by
  intro all
  have few := length_takeWhile_of_tripleEnd? isOpen
  rw [List.takeWhile_eq_self_iff.mpr (List.all_eq_true.mp all)] at few
  exact absurd size (Nat.not_le.mpr few)

/-- What is left of a long text is written with at most two quotation marks at its start, together
with the `run` of them before it, or it is nothing but these, and three more close it. -/
def Closes (quote : Char) (run : Nat) (chars rest written : List Char) : Prop :=
  ∃ count more, written = List.replicate count quote ++ more ∧ more.head? ≠ some quote ∧
    (count + run ≤ 2 ∨
      more = rest ∧ count = chars.length + 3 ∧ chars = List.replicate chars.length quote ∧
        chars.length + run ≤ 2)

/-- At the end of a long text stand its own quotes, at most two, and the three that close it. -/
theorem closes_nil (other : rest.head? ≠ some quote) {run : Nat} (few : run ≤ 2) :
    Closes quote run [] rest (quote :: quote :: quote :: rest) :=
  ⟨3, rest, rfl, other, .inr ⟨rfl, rfl, rfl, by simpa using few⟩⟩

/-- A quote of the text makes the run before the rest one longer. -/
theorem Closes.cons {run : Nat} {chars written : List Char}
    (closes : Closes quote (run + 1) chars rest written) :
    Closes quote run (quote :: chars) rest (quote :: written) := by
  obtain ⟨count, more, rfl, other, few | ⟨isRest, all, same, few⟩⟩ := closes
  · exact ⟨count + 1, more, rfl, other, .inl (by omega)⟩
  · refine ⟨count + 1, more, rfl, other, .inr ⟨isRest, ?_, ?_, ?_⟩⟩
    · rw [all, List.length_cons]
    · rw [List.length_cons, List.replicate_succ, ← same]
    · rw [List.length_cons]
      omega

theorem closes_of_ne {run : Nat} (few : run ≤ 2) {chars written : List Char}
    (other : written.head? ≠ some quote) : Closes quote run chars rest written :=
  ⟨0, written, rfl, other, .inl (by omega)⟩

/-- Where quotation marks close a long text, all of it has been read. -/
theorem Closes.tripleEnd? {run : Nat} {chars written : List Char}
    (closes : Closes quote run chars rest written) :
    tripleEnd? quote written = none ∨ tripleEnd? quote written = some (chars, rest) := by
  obtain ⟨count, more, rfl, other, few | ⟨rfl, rfl, same, few⟩⟩ := closes
  · exact .inl (tripleEnd?_replicate other (by omega))
  · refine .inr ?_
    rw [tripleEnd?_replicate_add other (by omega), ← same]

/-! ### Long texts with escapes -/

/-- Three quotes or more end a long text. -/
theorem readLongBasic_of_tripleEnd? {chars : List Char} {finish : List Char × List Char}
    (closed : Toml.tripleEnd? '\x22' chars = some finish) (fuel : Nat) :
    readLongBasic (fuel + 1) chars = .ok finish := by
  cases chars with
  | nil => cases closed
  | cons c chars => rw [readLongBasic, closed]

/-- Escaping in several lines allows at most two quotes in a row, so the text does not end early. -/
theorem closes_escapeAll (chars : List Char) (other : rest.head? ≠ some '\x22') {run : Nat}
    (few : run ≤ 2) :
    Closes '\x22' run chars rest
      ((escapeAll true 2 run chars).toList ++ '\x22' :: '\x22' :: '\x22' :: rest) := by
  induction chars generalizing run with
  | nil => exact closes_nil other few
  | cons c chars ih =>
      rw [escapeAll]
      split
      · next isQuote =>
        split
        · next fewer =>
          subst isQuote
          simpa using Closes.cons (ih fewer)
        · exact closes_of_ne few (by simp)
      · next notQuote =>
        refine closes_of_ne few ?_
        rcases escape_cases true c with ⟨first, more, written, -⟩ | ⟨written, -⟩
        · simp [written]
        · simpa [written] using notQuote

/-- An escape sequence in a long text. -/
theorem readLongBasic_escape {first c : Char} (noBlank : isBlankOrBreak first = false)
    (means : readEscaped (first :: more) = .ok (c, rest)) (fuel : Nat) :
    readLongBasic (fuel + 1) ('\\' :: first :: more) = prepend c (readLongBasic fuel rest) := by
  have isOpen : Toml.tripleEnd? '\x22' ('\\' :: first :: more) = none :=
    @tripleEnd?_replicate _ ('\\' :: first :: more) (by simp) 0 (Nat.zero_le 2)
  simp only [isBlankOrBreak, Bool.or_eq_false_iff, beq_eq_false_iff_ne] at noBlank
  obtain ⟨⟨⟨noSpace, noTab⟩, noFeed⟩, noReturn⟩ := noBlank
  rw [readLongBasic, isOpen]
  simp [startsWithBreak, noSpace, noTab, noFeed, noReturn, means]

/-- A character that stands in a long text as it is. -/
theorem readLongBasic_plain {c : Char} (isOpen : Toml.tripleEnd? '\x22' (c :: more) = none)
    (size : 2 ≤ more.length) (notBackslash : c ≠ '\\') (plain : isControl c = false) (fuel : Nat) :
    readLongBasic (fuel + 1) (c :: more) = prepend c (readLongBasic fuel more) := by
  have notReturn := ne_return_of_not_isControl plain
  have allowed : (c != '\n' && isForbidden c) = false := by
    by_cases isBreak : c = '\n'
    · simp [isBreak]
    · simp [isForbidden_of_not_isControl plain isBreak]
  have goesOn : ¬ (c :: more).all (· == '\x22') = true :=
    not_all_of_tripleEnd? isOpen (Nat.succ_le_succ size)
  rw [readLongBasic, isOpen]
  simp only [notBackslash, notReturn, allowed, goesOn, decide_false, Bool.false_and, Bool.false_or,
    Bool.false_eq_true, if_false]

/-- A text is read back from what it is escaped to in several lines. -/
theorem readLongBasic_escapeAll (chars : List Char) (other : rest.head? ≠ some '\x22')
    {fuel run : Nat} (enough : chars.length < fuel) (few : run ≤ 2) :
    readLongBasic fuel ((escapeAll true 2 run chars).toList ++ '\x22' :: '\x22' :: '\x22' :: rest) =
      .ok (chars, rest) := by
  induction chars generalizing fuel run with
  | nil =>
      obtain ⟨fuel, rfl⟩ : ∃ before, fuel = before + 1 := ⟨fuel - 1, by omega⟩
      exact readLongBasic_of_tripleEnd? (tripleEnd?_replicate_add other (Nat.zero_le 2)) fuel
  | cons c chars ih =>
      obtain ⟨fuel, rfl⟩ : ∃ before, fuel = before + 1 := ⟨fuel - 1, by omega⟩
      have shorter : chars.length < fuel := Nat.lt_of_succ_lt_succ enough
      have size (written : List Char) :
          2 ≤ (written ++ '\x22' :: '\x22' :: '\x22' :: rest).length := by
        rw [List.length_append, List.length_cons, List.length_cons]
        omega
      -- Either the text goes on here, or all that is left of it are quotes before those that close it.
      rcases (closes_escapeAll (c :: chars) other few).tripleEnd? with isOpen | closed
      · rw [escapeAll] at isOpen ⊢
        split
        · next isQuote =>
          subst isQuote
          rw [if_pos rfl] at isOpen
          split
          · next fewer =>
            rw [if_pos fewer] at isOpen
            simp only [String.toList_append, String.reduceToList, List.cons_append,
              List.nil_append] at isOpen ⊢
            rw [readLongBasic_plain isOpen (size _) (by decide) rfl, ih shorter fewer]
            rfl
          · simp only [String.toList_append, String.reduceToList, List.cons_append,
              List.nil_append]
            rw [readLongBasic_escape rfl rfl, ih shorter (Nat.zero_le 2)]
            rfl
        · next notQuote =>
          rw [if_neg notQuote] at isOpen
          rcases escape_cases true c with ⟨first, more, written, noBlank, means⟩ |
            ⟨written, notBackslash, plain, -⟩
          · rw [String.toList_append, written, List.append_assoc, List.cons_append,
              List.cons_append, readLongBasic_escape noBlank (means _),
              ih shorter (Nat.zero_le 2)]
            rfl
          · rw [String.toList_append, written, List.append_assoc, List.singleton_append] at isOpen ⊢
            rw [readLongBasic_plain isOpen (size _) notBackslash plain, ih shorter (Nat.zero_le 2)]
            rfl
      · exact readLongBasic_of_tripleEnd? closed fuel

/-! ### Long texts without escapes -/

/-- Three apostrophes or more end a long literal text. -/
theorem readLongLiteral_of_tripleEnd? {chars : List Char} {finish : List Char × List Char}
    (closed : Toml.tripleEnd? '\'' chars = some finish) : readLongLiteral chars = .ok finish := by
  cases chars with
  | nil => cases closed
  | cons c chars => rw [readLongLiteral, closed]

/-- The longest run is at least as long as the run that is open. -/
theorem le_longestRun (sign : Char) (run : Nat) (chars : List Char) :
    run ≤ longestRun sign run chars := by
  induction chars generalizing run with
  | nil => exact Nat.le_refl run
  | cons c chars ih =>
      rw [longestRun]
      split
      · exact (Nat.le_succ run).trans (ih (run + 1))
      · exact Nat.le_max_left ..

/-- Without three quotes in a row, a text can stand between triple quotes as it is. -/
theorem closes_of_longestRun {chars : List Char} (other : rest.head? ≠ some quote) {run : Nat}
    (few : longestRun quote run chars ≤ 2) :
    Closes quote run chars rest (chars ++ quote :: quote :: quote :: rest) := by
  induction chars generalizing run with
  | nil => exact closes_nil other few
  | cons c chars ih =>
      by_cases isQuote : c = quote
      · subst isQuote
        rw [longestRun, if_pos rfl] at few
        exact (ih few).cons
      · exact closes_of_ne ((le_longestRun quote run _).trans few) (by simpa using isQuote)

/-- Where quotation marks do not close a long text, a character follows that it can have. -/
theorem continuesLiteral_of_length_takeWhile {chars : List Char}
    (few : ((chars ++ '\'' :: '\'' :: '\'' :: rest).takeWhile fun c => c == '\'').length < 3)
    (plain : ∀ c ∈ chars, isControl c = false) :
    continuesLiteral ((chars ++ '\'' :: '\'' :: '\'' :: rest).dropWhile (· == '\'')) = true := by
  induction chars with
  | nil =>
      simp only [List.nil_append, List.takeWhile_cons, beq_self_eq_true, if_true,
        List.length_cons] at few
      omega
  | cons c chars ih =>
      by_cases isQuote : c = '\''
      · subst isQuote
        simp only [List.cons_append, List.takeWhile_cons, beq_self_eq_true, if_true,
          List.length_cons] at few
        simpa using ih (Nat.lt_of_succ_lt few) fun d member => plain d (List.mem_cons_of_mem _ member)
      · have stops : ((c :: chars) ++ '\'' :: '\'' :: '\'' :: rest).dropWhile (· == '\'') =
            c :: (chars ++ '\'' :: '\'' :: '\'' :: rest) := by
          simp [isQuote]
        rw [stops, continuesLiteral]
        by_cases isBreak : c = '\n'
        · simp [isBreak, startsWithBreak]
        · simp [isForbidden_of_not_isControl (plain c List.mem_cons_self) isBreak]

/-- A text without three apostrophes in a row and without control characters is read back from
between triple apostrophes. -/
theorem readLongLiteral_append {chars : List Char} (other : rest.head? ≠ some '\'') {run : Nat}
    (few : longestRun '\'' run chars ≤ 2) (plain : ∀ c ∈ chars, isControl c = false) :
    readLongLiteral (chars ++ '\'' :: '\'' :: '\'' :: rest) = .ok (chars, rest) := by
  induction chars generalizing run with
  | nil => exact readLongLiteral_of_tripleEnd? (tripleEnd?_replicate_add other (Nat.zero_le 2))
  | cons c chars ih =>
      rcases (closes_of_longestRun other few).tripleEnd? with isOpen | closed
      · have fewer : ∃ run, longestRun '\'' run chars ≤ 2 := by
          rw [longestRun] at few
          split at few
          · exact ⟨run + 1, few⟩
          · exact ⟨0, (Nat.le_max_right ..).trans few⟩
        obtain ⟨run, fewer⟩ := fewer
        have later := ih fewer fun d member => plain d (List.mem_cons_of_mem c member)
        have notReturn := ne_return_of_not_isControl (plain c List.mem_cons_self)
        rw [List.cons_append] at isOpen ⊢
        rw [readLongLiteral, isOpen]
        by_cases isBreak : c = '\n'
        · simp [isBreak, later, prepend, Except.map]
        · have allowed := isForbidden_of_not_isControl (plain c List.mem_cons_self) isBreak
          by_cases isQuote : c = '\''
          · subst isQuote
            have few := length_takeWhile_of_tripleEnd? isOpen
            simp only [List.takeWhile_cons, beq_self_eq_true, if_true, List.length_cons] at few
            have goesOn := continuesLiteral_of_length_takeWhile (Nat.lt_of_succ_lt few) fun d member =>
              plain d (List.mem_cons_of_mem _ member)
            simp [allowed, goesOn, later, prepend, Except.map]
          · simp [isQuote, notReturn, allowed, later, prepend, Except.map]
      · exact readLongLiteral_of_tripleEnd? closed

end Long

/-! ### The five styles -/

/-- There is no run of a sign exactly if the sign does not occur. -/
theorem longestRun_eq_zero_iff {sign : Char} {run : Nat} {chars : List Char} :
    longestRun sign run chars = 0 ↔ run = 0 ∧ sign ∉ chars := by
  induction chars generalizing run with
  | nil => simp [longestRun]
  | cons c chars ih =>
      by_cases isSign : c = sign
      · simp [longestRun, isSign, ih]
      · simp [longestRun, isSign, ih, Ne.symm isSign]

/-- A line break after the opening quotation marks of a long text, if the text has one itself, is
the only one that is dropped. -/
theorem dropFirstBreak_lead {chars written : List Char}
    (first : ∀ c ∈ written.head?, c = '\n' → '\n' ∈ chars)
    (noReturn : written.head? ≠ some '\r') :
    dropFirstBreak ((if chars.contains '\n' then "\n" else "").toList ++ written) = written := by
  split
  · simp [dropFirstBreak]
  · next noBreak =>
    rw [String.toList_empty, List.nil_append]
    unfold dropFirstBreak
    split
    · exact absurd (first '\n' rfl rfl) (by simpa using noBreak)
    · exact absurd rfl noReturn
    · rfl

/-- Escaping makes no text shorter, so the length of what is written is fuel enough. -/
theorem length_le_escapeAll (isLong : Bool) (allowed run : Nat) (chars : List Char) :
    chars.length ≤ (escapeAll isLong allowed run chars).toList.length := by
  induction chars generalizing run with
  | nil => exact Nat.zero_le _
  | cons c chars ih =>
      have written : 0 < (escape isLong c).toList.length := by
        rcases escape_cases isLong c with ⟨first, more, written, -⟩ | ⟨written, -⟩
        · simp [written]
        · simp [written]
      rw [escapeAll]
      split
      · split
        · simpa using ih (run + 1)
        · simpa using (ih 0).trans (Nat.le_succ _)
      · have later := ih 0
        rw [String.toList_append, List.length_append, List.length_cons]
        omega

/-- How a text begins that is written with escapes. -/
theorem head?_escapeAll {isLong : Bool} {allowed run : Nat} {first : Char} {chars : List Char}
    (begins : (escapeAll isLong allowed run chars).toList.head? = some first) :
    first = '\\' ∨ (run < allowed ∧ first = '\x22') ∨
      (first ≠ '\x22' ∧ first ≠ '\r' ∧ chars.head? = some first) := by
  cases chars with
  | nil => cases begins
  | cons c chars =>
      rw [escapeAll] at begins
      split at begins
      · split at begins
        · next fewer => exact .inr (.inl ⟨fewer, by simpa [eq_comm] using begins⟩)
        · exact .inl (by simpa [eq_comm] using begins)
      · next notQuote =>
        rcases escape_cases isLong c with ⟨name, more, written, -⟩ | ⟨written, -, plain, -⟩
        · exact .inl (by simpa [written, eq_comm] using begins)
        · obtain rfl : c = first := by simpa [written] using begins
          exact .inr (.inr ⟨notQuote, ne_return_of_not_isControl plain, rfl⟩)

/-- A text between double quotation marks. -/
theorem readText_short (chars : List Char) {rest : List Char} (ends : Ends rest) :
    readText ('\x22' :: ((escapeAll false 0 0 chars).toList ++ '\x22' :: rest)) =
      .ok (chars, rest) := by
  have notLong (more : List Char) :
      (escapeAll false 0 0 chars).toList ++ '\x22' :: rest ≠ '\x22' :: '\x22' :: more := by
    intro same
    cases written : (escapeAll false 0 0 chars).toList with
    | nil =>
        rw [written, List.nil_append, List.cons.injEq] at same
        exact ends.head?_ne (c := '\x22') (by decide) (by decide) (by decide) (by rw [same.2]; rfl)
    | cons first more' =>
        rw [written, List.cons_append, List.cons.injEq] at same
        rcases head?_escapeAll (by rw [written]; rfl) with escape | ⟨fewer, -⟩ | ⟨notQuote, -⟩
        · exact absurd (same.1.symm.trans escape) (by decide)
        · exact absurd fewer (Nat.not_lt_zero 0)
        · exact notQuote same.1
  have enough :
      chars.length < ((escapeAll false 0 0 chars).toList ++ '\x22' :: rest).length + 1 := by
    have written := length_le_escapeAll false 0 0 chars
    rw [List.length_append]
    omega
  rw [readText]
  · exact readBasic_escapeAll chars rest enough
  · intro more same
    exact notLong more (List.cons.inj same).2
  · nofun

/-- A text between single quotation marks. -/
theorem readText_literal {chars rest : List Char} (occupied : chars ≠ []) (noQuote : '\'' ∉ chars)
    (noBreak : '\n' ∉ chars) (plain : ∀ c ∈ chars, isControl c = false) :
    readText ('\'' :: (chars ++ '\'' :: rest)) = .ok (chars, rest) := by
  rw [readText]
  · exact readLiteral_append rest noQuote noBreak plain
  · nofun
  · intro more same
    cases chars with
    | nil => exact occupied rfl
    | cons c chars =>
        simp only [List.cons_append, List.cons.injEq, true_and] at same
        exact noQuote (same.1 ▸ List.mem_cons_self)

/-- A text between three double quotation marks. -/
theorem readText_longBasic (chars : List Char) {rest : List Char} (ends : Ends rest) :
    readText ("\"\"\"".toList ++ ((if chars.contains '\n' then "\n" else "").toList ++
        ((escapeAll true 2 0 chars).toList ++ '\x22' :: '\x22' :: '\x22' :: rest))) =
      .ok (chars, rest) := by
  have other : rest.head? ≠ some '\x22' := ends.head?_ne (by decide) (by decide) (by decide)
  -- A line break right behind the opening quotes does not belong to the text, so one is written there
  -- if the text may begin with a line break itself.
  have starts {first : Char}
      (begins : ((escapeAll true 2 0 chars).toList ++ '\x22' :: '\x22' :: '\x22' :: rest).head? =
        some first) :
      first = '\\' ∨ first = '\x22' ∨ (first ≠ '\r' ∧ chars.head? = some first) := by
    cases written : (escapeAll true 2 0 chars).toList with
    | nil =>
        rw [written] at begins
        exact .inr (.inl (Option.some.inj begins).symm)
    | cons c more =>
        rw [written] at begins
        have forms := head?_escapeAll (by rw [written]; exact begins)
        rcases forms with escape | ⟨-, quote⟩ | ⟨-, noReturn, first⟩
        · exact .inl escape
        · exact .inr (.inl quote)
        · exact .inr (.inr ⟨noReturn, first⟩)
  have lead := @dropFirstBreak_lead chars _
    (fun c begins isBreak => by
      subst isBreak
      rcases starts begins with escape | quote | ⟨-, first⟩
      · cases escape
      · cases quote
      · exact List.mem_of_mem_head? first)
    (fun begins => by
      rcases starts begins with escape | quote | ⟨noReturn, -⟩
      · cases escape
      · cases quote
      · exact noReturn rfl)
  have enough := length_le_escapeAll true 2 0 chars
  simp only [String.reduceToList, List.cons_append, List.nil_append, readText, lead]
  refine readLongBasic_escapeAll chars other ?_ (Nat.zero_le 2)
  rw [List.length_append]
  omega

/-- A text between three single quotation marks. -/
theorem readText_longLiteral {chars rest : List Char} (ends : Ends rest)
    (few : longestRun '\'' 0 chars ≤ 2) (plain : ∀ c ∈ chars, isControl c = false) :
    readText ("\'\'\'".toList ++ ((if chars.contains '\n' then "\n" else "").toList ++
        (chars ++ '\'' :: '\'' :: '\'' :: rest))) =
      .ok (chars, rest) := by
  have other : rest.head? ≠ some '\'' := ends.head?_ne (by decide) (by decide) (by decide)
  have starts {first : Char}
      (begins : (chars ++ '\'' :: '\'' :: '\'' :: rest).head? = some first) :
      first = '\'' ∨ first ∈ chars := by
    cases chars with
    | nil => exact .inl (Option.some.inj begins).symm
    | cons c chars => exact .inr (Option.some.inj begins ▸ List.mem_cons_self)
  have lead := @dropFirstBreak_lead chars _
    (fun c begins isBreak => by
      subst isBreak
      rcases starts begins with quote | inside
      · cases quote
      · exact inside)
    (fun begins => by
      rcases starts begins with quote | inside
      · cases quote
      · exact ne_return_of_not_isControl (plain _ inside) rfl)
  simp only [String.reduceToList, List.cons_append, List.nil_append, readText, lead]
  exact readLongLiteral_append other few plain

/-- **Texts are read as they are written,** whatever characters they have. -/
theorem readText_renderString (text : String) {rest : List Char} (ends : Ends rest) :
    readText ((renderString text).toList ++ rest) = .ok (text.toList, rest) := by
  have short := readText_short text.toList ends
  have long := readText_longBasic text.toList ends
  have plain (none : (!text.toList.any isControl) = true) :
      ∀ c ∈ text.toList, isControl c = false := by
    simpa using none
  simp only [renderString]
  split
  · simpa using short
  · next notShort =>
    split
    · next isLiteral =>
      simp only [Bool.and_eq_true, decide_eq_true_eq, longestRun_eq_zero_iff] at isLiteral
      obtain ⟨⟨noControl, -, noQuote⟩, noBreak⟩ := isLiteral
      have occupied : text.toList ≠ [] := by
        intro empty
        simp [empty, longestRun] at notShort
      simpa using readText_literal occupied noQuote (by simpa using noBreak) (plain noControl)
    · split
      · simpa using long
      · split
        · next isLong =>
          simp only [Bool.and_eq_true, decide_eq_true_eq] at isLong
          simpa using readText_longLiteral ends isLong.2 (plain isLong.1)
        · split
          · next hasBreak =>
            have inside : '\n' ∈ text.toList := by simpa using hasBreak
            simpa [inside] using long
          · simpa using short

/-- A text begins with a quotation mark. -/
theorem head?_renderString (text : String) :
    (renderString text).toList.head? = some '\x22' ∨
      (renderString text).toList.head? = some '\'' := by
  simp only [renderString]
  split
  · simp
  · split
    · simp
    · split
      · simp
      · split
        · simp
        · split <;> simp

end PhpTestIndex.Toml
