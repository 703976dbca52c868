import PhpTestIndex.Proofs.Text.Digits
import PhpTestIndex.Proofs.Toml.Text
import PhpTestIndex.Toml.Document

/-! # Values in TOML documents are read as they are written

A value is tried as one thing after another, and what it is not gives way to what it is
(`PhpTestIndex.Toml.GivesWay`).  So a truth value, a number that is not negative, a text and a list of
such values are read as they are written, wherever a line ends or a list goes on after them
(`PhpTestIndex.Toml.Plain.readValue_renderValue`).
-/

namespace PhpTestIndex.Toml

open Text

/-! ### What gives way -/

section

variable {α β : Type} {read : Except Fault α}

/-- Something is not read, so that something else is tried. -/
def GivesWay (read : Except Fault α) : Prop :=
  ∃ fault, read = .error fault ∧ fault.isFinal = false

namespace GivesWay

theorem error {fault : Fault} (other : fault.isFinal = false) :
    GivesWay (.error fault : Except Fault α) :=
  ⟨fault, rfl, other⟩

/-- What gives way leaves the result to what is tried next. -/
theorem orTry_eq (gives : GivesWay read) (second : Except Fault α) :
    orTry read second = second := by
  obtain ⟨fault, rfl, other⟩ := gives
  simp [orTry, other]

theorem orTry (first : GivesWay read) {second : Except Fault α} (gives : GivesWay second) :
    GivesWay (Toml.orTry read second) := by
  rwa [first.orTry_eq]

/-- Saying what was read does not make a fault final. -/
theorem called (gives : GivesWay read) (name : String) : GivesWay (called name read) := by
  obtain ⟨fault, rfl, other⟩ := gives
  exact ⟨fault.within name, rfl, other⟩

/-- What gives way gives way with whatever would be made of the result. -/
theorem map (gives : GivesWay read) (change : α → β) : GivesWay (read.map change) := by
  obtain ⟨fault, rfl, other⟩ := gives
  exact ⟨fault, rfl, other⟩

/-- What gives way gives way with whatever would be read after it. -/
theorem bind (gives : GivesWay read) (next : α → Except Fault β) : GivesWay (read >>= next) := by
  obtain ⟨fault, rfl, other⟩ := gives
  exact ⟨fault, rfl, other⟩

end GivesWay

end

/-- A sign that does not stand there gives way. -/
theorem readSign_givesWay {sign : Char} {chars : List Char} (other : chars.head? ≠ some sign) :
    GivesWay (readSign sign chars) := by
  cases chars with
  | nil => exact .error rfl
  | cons c chars =>
      have noSign : c ≠ sign := by simpa using other
      rw [readSign, if_neg noSign]
      exact .error rfl

@[simp] theorem readSign_cons (sign : Char) (rest : List Char) :
    readSign sign (sign :: rest) = .ok rest := by
  simp [readSign]

/-! ### Numbers -/

section

variable {digits rest : List Char}

/-- A character that may stand after a value belongs to no number. -/
theorem Ends.head?_digit (ends : Ends rest) :
    ∀ c ∈ rest.head?, c.isDigit = false ∧ c ≠ '_' ∧ c ≠ '.' ∧ c ≠ 'e' ∧ c ≠ 'E' := by
  intro c begins
  rcases ends c begins with rfl | rfl | rfl <;> decide

/-- Digits are read up to the end of the value. -/
theorem readMoreDigits_append (all : ∀ c ∈ digits, c.isDigit = true) (ends : Ends rest) :
    readMoreDigits Char.isDigit (digits ++ rest) = .ok (digits, rest) := by
  induction digits with
  | nil =>
      cases rest with
      | nil => rfl
      | cons c rest =>
          obtain ⟨noDigit, noMark, -⟩ := ends.head?_digit c rfl
          rw [List.nil_append]
          unfold readMoreDigits
          split
          · next same => exact absurd (List.cons.inj same).1 noMark
          · next same => exact absurd (List.cons.inj same).1 noMark
          · next same =>
            obtain ⟨rfl, rfl⟩ := List.cons.inj same
            rw [noDigit]
            rfl
          · next same => cases same
  | cons c digits ih =>
      have isDigit := all c List.mem_cons_self
      have noMark : c ≠ '_' := by
        rintro rfl
        exact absurd isDigit (by decide)
      have later := ih fun d member => all d (List.mem_cons_of_mem c member)
      rw [List.cons_append]
      unfold readMoreDigits
      split
      · next same => exact absurd (List.cons.inj same).1 noMark
      · next same => exact absurd (List.cons.inj same).1 noMark
      · next same =>
        obtain ⟨rfl, rfl⟩ := List.cons.inj same
        rw [if_pos isDigit, later]
        rfl
      · next same => cases same

/-- A number that is not negative is written without a sign. -/
theorem unsigned_toDigits (n : Nat) (rest : List Char) :
    unsigned (Nat.toDigits 10 n ++ rest) = (false, Nat.toDigits 10 n ++ rest) := by
  obtain ⟨first, more, written, isDigit⟩ := exists_first_toDigits n
  rw [written, List.cons_append]
  unfold unsigned
  split
  · next same => exact absurd ((List.cons.inj same).1 ▸ isDigit) (by decide)
  · next same => exact absurd ((List.cons.inj same).1 ▸ isDigit) (by decide)
  · rfl

/-- The digits of a number, as they are written, are read as a whole number without sign. -/
theorem readWhole_toDigits (n : Nat) (ends : Ends rest) :
    readWhole (Nat.toDigits 10 n ++ rest) = .ok ((false, Nat.toDigits 10 n), rest) := by
  have all {c : Char} (member : c ∈ Nat.toDigits 10 n) : c.isDigit = true :=
    isDigit_of_mem_toDigits member
  obtain ⟨first, more, written, isDigit⟩ := exists_first_toDigits n
  simp only [readWhole, unsigned_toDigits]
  rcases Nat.eq_zero_or_pos n with rfl | positive
  · rfl
  · have noZero := head?_toDigits positive
    have later := readMoreDigits_append (fun c member => all (written ▸ List.mem_cons_of_mem _ member))
      ends
    rw [written] at noZero ⊢
    rw [List.cons_append]
    split
    · next same => exact absurd (congrArg some (List.cons.inj same).1) noZero
    · rw [readDigits, if_pos isDigit, later]
      rfl

/-- What follows some digits of a number is no sign but one that ends a value. -/
theorem head?_drop_ne (all : ∀ c ∈ digits, c.isDigit = true) (ends : Ends rest) {sign : Char}
    (noDigit : sign.isDigit = false) (noEnd : sign ≠ '\n' ∧ sign ≠ ',' ∧ sign ≠ ']') {count : Nat}
    (taken : ∀ c ∈ (digits ++ rest).take count, c.isDigit = true) :
    ((digits ++ rest).drop count).head? ≠ some sign := by
  intro begins
  by_cases within : count < digits.length
  · rw [List.drop_append_of_le_length within.le, List.drop_eq_getElem_cons within, List.cons_append,
      List.head?_cons] at begins
    have isDigit := all _ (List.getElem_mem within)
    rw [Option.some.inj begins, noDigit] at isDigit
    cases isDigit
  · obtain ⟨more, rfl⟩ := Nat.exists_eq_add_of_le (Nat.not_lt.mp within)
    rw [List.drop_length_add_append] at begins
    cases rest with
    | nil => simp at begins
    | cons c rest =>
        cases more with
        | zero => exact ends.head?_ne noEnd.1 noEnd.2.1 noEnd.2.2 begins
        | succ more =>
            have isDigit := taken c (by simp [List.take_length_add_append])
            rw [(ends.head?_digit c rfl).1] at isDigit
            cases isDigit

/-- No other sign follows a fixed number of digits. -/
theorem readFixed_then_givesWay {α : Type} (all : ∀ c ∈ digits, c.isDigit = true) (ends : Ends rest)
    {count : Nat} {next : Nat × List Char → Except Fault α}
    (gives : ∀ value more, (∀ sign : Char, sign.isDigit = false →
      sign ≠ '\n' ∧ sign ≠ ',' ∧ sign ≠ ']' → more.head? ≠ some sign) → GivesWay (next (value, more))) :
    GivesWay (readFixed count (digits ++ rest) >>= next) := by
  unfold readFixed
  dsimp only
  split
  · next isFixed =>
    simp only [Bool.and_eq_true, decide_eq_true_eq, List.all_eq_true] at isFixed
    exact gives _ _ fun sign noDigit noEnd => head?_drop_ne all ends noDigit noEnd isFixed.2
  · exact (GivesWay.error rfl).bind next

/-- Digits are no date. -/
theorem readDateTime_givesWay (all : ∀ c ∈ digits, c.isDigit = true) (ends : Ends rest) :
    GivesWay (readDateTime (digits ++ rest)) := by
  have noDate : GivesWay (dropDateTime (digits ++ rest)) := by
    refine GivesWay.bind (readFixed_then_givesWay all ends fun year more noSign => ?_) _
    exact (readSign_givesWay (noSign '-' rfl (by decide))).bind _
  have noTime : GivesWay (dropTime (digits ++ rest)) := by
    rw [dropTime, readPair, bind_assoc]
    refine readFixed_then_givesWay all ends fun hour more noSign => ?_
    dsimp only
    split
    · exact (readSign_givesWay (noSign ':' rfl (by decide))).bind _
    · exact GivesWay.bind (.error rfl) _
  exact ((noDate.called _).map _).orTry ((noTime.called _).map _)

/-- Digits are no number with a fraction or an exponent. -/
theorem readFloat_givesWay (n : Nat) (ends : Ends rest) :
    GivesWay (readFloat (Nat.toDigits 10 n ++ rest)) := by
  -- After the digits, neither an exponent nor a point follows.
  have noDecimal : GivesWay (readDecimal (Nat.toDigits 10 n ++ rest)) := by
    have noExponent : GivesWay (readExponent rest) := by
      cases rest with
      | nil => exact .error rfl
      | cons c rest =>
          obtain ⟨-, -, -, lower, upper⟩ := ends.head?_digit c rfl
          rw [readExponent, if_neg (not_or.mpr ⟨lower, upper⟩)]
          exact .error rfl
    have noPoint : rest.head? ≠ some '.' := ends.head?_ne (by decide) (by decide) (by decide)
    rw [readDecimal, readWhole_toDigits n ends]
    exact GivesWay.bind
      (GivesWay.orTry (noExponent.map _) (((readSign_givesWay noPoint).bind _).bind _)) _
  have noSpecial : GivesWay (readSpecial (Nat.toDigits 10 n ++ rest)) := by
    obtain ⟨first, more, written, isDigit⟩ := exists_first_toDigits n
    have noWord {c : Char} (letter : c.isDigit = false) (word : List Char) :
        Text.after? (c :: word) (Nat.toDigits 10 n ++ rest) = none := by
      have other : c ≠ first := by
        rintro rfl
        rw [letter] at isDigit
        cases isDigit
      simp [Text.after?, written, other]
    have noInfinity := @noWord 'i' rfl ['n', 'f']
    have noNumber := @noWord 'n' rfl ['a', 'n']
    simp only [readSpecial, unsigned_toDigits, String.reduceToList, noInfinity, noNumber]
    exact .error rfl
  exact (noDecimal.orTry noSpecial).called _

/-- A number that fits is read back from its digits as a whole number. -/
theorem readInteger_toDigits {n : Nat} (fits : (n : Int) ≤ Int64.maxValue.toInt) (ends : Ends rest) :
    readInteger (Nat.toDigits 10 n ++ rest) = .ok (.integer n, rest) := by
  have read := readWhole_toDigits n ends
  have least : Int64.minValue.toInt = -9223372036854775808 := rfl
  have value : bounded n (Nat.toDigits 10 n ++ rest) = .ok (.integer n) := by
    rw [bounded, if_neg (by omega), if_neg (Int.not_lt.mpr fits)]
  -- After a zero, a letter would start a number to another base.
  have second {c : Char} {more : List Char} (letter : c.isDigit = false)
      (noEnd : c ≠ '\n' ∧ c ≠ ',' ∧ c ≠ ']') : Nat.toDigits 10 n ++ rest ≠ '0' :: c :: more := by
    intro same
    refine @head?_drop_ne (Nat.toDigits 10 n) rest (fun c => isDigit_of_mem_toDigits) ends c letter
      noEnd 1 ?_ ?_
    · rw [same]
      simp
    · rw [same]
      rfl
  unfold readInteger
  split
  · next same => exact absurd same (second rfl (by decide))
  · next same => exact absurd same (second rfl (by decide))
  · next same => exact absurd same (second rfl (by decide))
  · rw [read, ok_bind]
    simp only [Bool.false_eq_true, if_false, digitsValue_toDigits, value]
    rfl

/-- The digits of a number are read as a whole number and as nothing else: the fraction, the
exponent and the date all give way. -/
theorem readNumber_toDigits {n : Nat} (fits : (n : Int) ≤ Int64.maxValue.toInt) (ends : Ends rest) :
    readNumber (Nat.toDigits 10 n ++ rest) = .ok (.integer n, rest) := by
  have noDate := readDateTime_givesWay (fun c => isDigit_of_mem_toDigits (n := n)) ends
  rw [readNumber, (noDate.orTry (readFloat_givesWay n ends)).orTry_eq, readInteger_toDigits fits ends]

end

/-! ### Values without parts -/

/-- A value without parts that settings have: a truth value, a number that is not negative or a
text. -/
inductive PlainScalar : Toml → Prop
  | bool (value : Bool) : PlainScalar (.bool value)
  | number (n : Nat) (fits : (n : Int) ≤ Int64.maxValue.toInt) : PlainScalar (.integer n)
  | string (text : String) : PlainScalar (.string text)

/-- What begins with no bracket has no parts. -/
theorem readValue_of_ne {first : Char} (noBracket : first ≠ '[') (noBrace : first ≠ '\x7b')
    (depth : Nat) (more : List Char) :
    readValue depth (first :: more) = readScalar (first :: more) := by
  cases depth with
  | zero =>
      rw [readValue]
      · rintro rest ⟨⟩
        exact noBracket rfl
      · rintro rest ⟨⟩
        exact noBrace rfl
  | succ depth =>
      rw [readValue]
      · rintro rest ⟨⟩
        exact noBracket rfl
      · rintro rest ⟨⟩
        exact noBrace rfl

/-- A number that is not negative is written in digits. -/
theorem toList_renderNumber (n : Nat) :
    (renderValue (.integer n)).toList = Nat.toDigits 10 n := by
  change (toString n).toList = _
  simp

namespace PlainScalar

variable {value : Toml} {rest : List Char}

/-- How a value without parts begins. -/
theorem exists_first (plain : PlainScalar value) :
    ∃ first more, (renderValue value).toList = first :: more ∧ isBlankOrBreak first = false ∧
      first ≠ '#' ∧ first ≠ '[' ∧ first ≠ '\x7b' := by
  cases plain with
  | bool value =>
      cases value with
      | true => exact ⟨'t', ['r', 'u', 'e'], rfl, by decide⟩
      | false => exact ⟨'f', ['a', 'l', 's', 'e'], rfl, by decide⟩
  | number n fits =>
      obtain ⟨first, more, digits, isDigit⟩ := exists_first_toDigits n
      have other {c : Char} (noDigit : c.isDigit = false) : first ≠ c := by
        rintro rfl
        rw [noDigit] at isDigit
        cases isDigit
      refine ⟨first, more, (toList_renderNumber n).trans digits, ?_, other rfl, other rfl, other rfl⟩
      simp [isBlankOrBreak, other (c := ' ') rfl, other (c := '\t') rfl, other (c := '\n') rfl,
        other (c := '\r') rfl]
  | string text =>
      rw [renderValue]
      rcases head?_renderString text with begins | begins
      · obtain ⟨more, written⟩ := List.head?_eq_some_iff.mp begins
        exact ⟨_, more, written, by decide⟩
      · obtain ⟨more, written⟩ := List.head?_eq_some_iff.mp begins
        exact ⟨_, more, written, by decide⟩

/-- A value without parts is read back from what it is written as, by the cases of such values. -/
theorem readScalar_renderValue (plain : PlainScalar value) (ends : Ends rest) :
    readScalar ((renderValue value).toList ++ rest) = .ok (value, rest) := by
  cases plain with
  | bool value =>
      cases value with
      | true =>
          have read : readWord "true" (.bool true) ("true".toList ++ rest) = .ok (.bool true, rest) := by
            rw [readWord, Text.after?_append]
          exact congrArg insist read
      | false =>
          have read : readWord "false" (.bool false) ("false".toList ++ rest) =
              .ok (.bool false, rest) := by
            rw [readWord, Text.after?_append]
          exact congrArg insist read
  | number n fits =>
      have read := readNumber_toDigits fits ends
      obtain ⟨first, more, digits, isDigit⟩ := exists_first_toDigits n
      have noQuote : ¬ (first = '\x22' ∨ first = '\'') := by
        rintro (rfl | rfl) <;> exact absurd isDigit (by decide)
      rw [toList_renderNumber]
      rw [digits, List.cons_append] at read ⊢
      rw [readScalar, if_neg noQuote, if_pos (.inl isDigit), read]
  | string text =>
      have read := readText_renderString text ends
      have quote : ∃ first more, (renderString text).toList = first :: more ∧
          (first = '\x22' ∨ first = '\'') := by
        rcases head?_renderString text with begins | begins
        · obtain ⟨more, written⟩ := List.head?_eq_some_iff.mp begins
          exact ⟨_, more, written, .inl rfl⟩
        · obtain ⟨more, written⟩ := List.head?_eq_some_iff.mp begins
          exact ⟨_, more, written, .inr rfl⟩
      obtain ⟨first, more, written, isQuote⟩ := quote
      rw [renderValue]
      rw [written, List.cons_append] at read ⊢
      rw [readScalar, if_pos isQuote, read, map_ok]
      simp only [String.ofList_toList]

/-- At any depth, a value without parts is read as such. -/
theorem readValue_renderValue (plain : PlainScalar value) (ends : Ends rest) (depth : Nat) :
    readValue depth ((renderValue value).toList ++ rest) = .ok (value, rest) := by
  have read := plain.readScalar_renderValue ends
  obtain ⟨first, more, written, -, -, noBracket, noBrace⟩ := plain.exists_first
  rw [written, List.cons_append] at read ⊢
  rw [readValue_of_ne noBracket noBrace, read]

end PlainScalar

/-! ### Lists -/

/-- A value that settings have: one without parts, or a list of such values. -/
inductive Plain : Toml → Prop
  | scalar {value : Toml} (plain : PlainScalar value) : Plain value
  | array (items : List Toml) (plain : ∀ item ∈ items, PlainScalar item) : Plain (.array items)

/-- A list of two or more items is written on lines of their own. -/
theorem renderValue_long (item second : Toml) (items : List Toml) :
    renderValue (.array (item :: second :: items)) =
      "[\n" ++ renderItems (item :: second :: items) ++ "]" := by
  simp [renderValue]

/-- How a value begins. -/
theorem Plain.exists_first {value : Toml} (plain : Plain value) :
    ∃ first more, (renderValue value).toList = first :: more ∧ isBlankOrBreak first = false ∧
      first ≠ '#' := by
  cases plain with
  | scalar plain =>
      obtain ⟨first, more, written, noBlank, noComment, -⟩ := plain.exists_first
      exact ⟨first, more, written, noBlank, noComment⟩
  | array items plain =>
      rcases items with _ | ⟨item, _ | ⟨second, items⟩⟩
      · exact ⟨'[', _, rfl, by decide⟩
      · exact ⟨'[', ((renderValue item) ++ "]").toList, by simp [renderValue], by decide⟩
      · refine ⟨'[', '\n' :: (renderItems (item :: second :: items) ++ "]").toList, ?_, by decide⟩
        simp [renderValue_long]

/-- Nothing is passed over where a value begins. -/
theorem dropSpace_cons {first : Char} {more : List Char} (noBlank : isBlankOrBreak first = false)
    (noComment : first ≠ '#') : dropSpace false (first :: more) = .ok (first :: more) := by
  simp only [isBlankOrBreak, Bool.or_eq_false_iff, beq_eq_false_iff_ne] at noBlank
  obtain ⟨⟨⟨noSpace, noTab⟩, noFeed⟩, noReturn⟩ := noBlank
  unfold dropSpace
  split <;> simp_all

/-- Blanks and line breaks before an item do not count. -/
theorem dropSpace_append {blanks more : List Char} {first : Char}
    (all : ∀ c ∈ blanks, c = ' ' ∨ c = '\n') (noBlank : isBlankOrBreak first = false)
    (noComment : first ≠ '#') :
    dropSpace false (blanks ++ first :: more) = .ok (first :: more) := by
  induction blanks with
  | nil => exact dropSpace_cons noBlank noComment
  | cons c blanks ih =>
      have later := ih fun d member => all d (List.mem_cons_of_mem c member)
      rcases all c List.mem_cons_self with rfl | rfl
      · exact later
      · exact later

/-- No item begins where a list is closed. -/
theorem readItem_close (depth : Nat) (blanks : List Char) (all : ∀ c ∈ blanks, c = ' ' ∨ c = '\n')
    (rest : List Char) : GivesWay (readArray.readItem (readValue depth) (blanks ++ ']' :: rest)) := by
  have stops : GivesWay (readValue depth (']' :: rest)) := by
    rw [readValue_of_ne (by decide) (by decide)]
    exact .error rfl
  rw [readArray.readItem, dropSpace_append all rfl (by decide), ok_bind]
  exact stops.bind _

/-- An item is read up to the comma or the bracket after it. -/
theorem readItem_item {item : Toml} (plain : PlainScalar item) (depth : Nat) (blanks : List Char)
    (all : ∀ c ∈ blanks, c = ' ' ∨ c = '\n') {sign : Char} (isEnd : sign = ',' ∨ sign = ']')
    (rest : List Char) :
    readArray.readItem (readValue depth) (blanks ++ ((renderValue item).toList ++ sign :: rest)) =
      .ok (item, sign :: rest) := by
  have ends : Ends (sign :: rest) := by
    rintro c ⟨⟩
    exact .inr isEnd
  have noBlank : isBlankOrBreak sign = false ∧ sign ≠ '#' := by
    rcases isEnd with rfl | rfl <;> decide
  have read := plain.readValue_renderValue ends depth
  have after := @dropSpace_cons sign rest noBlank.1 noBlank.2
  obtain ⟨first, more, written, firstBlank, firstComment, -⟩ := plain.exists_first
  rw [written, List.cons_append] at read ⊢
  rw [readArray.readItem, dropSpace_append all firstBlank firstComment, ok_bind, read, ok_bind]
  dsimp only
  rw [after]
  rfl

/-- The first of several items on lines of their own. -/
theorem readItem_renderItems {item : Toml} {items : List Toml}
    (plain : ∀ other ∈ item :: items, PlainScalar other) (depth : Nat) (rest : List Char) :
    readArray.readItem (readValue depth)
        ('\n' :: ((renderItems (item :: items)).toList ++ ']' :: rest)) =
      .ok (item, ',' :: '\n' :: ((renderItems items).toList ++ ']' :: rest)) := by
  have read := readItem_item (plain item List.mem_cons_self) depth ['\n', ' ', ' ', ' ', ' ']
    (by simp) (.inl rfl)
    ('\n' :: ((renderItems items).toList ++ ']' :: rest))
  rw [← read]
  simp [renderItems]

/-- Items on lines of their own are read up to the comma after the last one. -/
theorem readSeparated_renderItems {item : Toml} {items : List Toml}
    (plain : ∀ other ∈ item :: items, PlainScalar other) (depth : Nat) (rest : List Char)
    (fuel : Nat) (enough : items.length < fuel) :
    readSeparated ',' (readArray.readItem (readValue depth)) fuel
        ('\n' :: ((renderItems (item :: items)).toList ++ ']' :: rest)) =
      .ok (item :: items, ',' :: '\n' :: ']' :: rest) := by
  induction items generalizing item fuel with
  | nil =>
      obtain ⟨fuel, rfl⟩ := Nat.exists_eq_add_of_lt enough
      -- The comma after the last item is left: what follows it is no item.
      have last : GivesWay (readSeparated ',' (readArray.readItem (readValue depth)) (0 + fuel)
          ('\n' :: ']' :: rest)) := by
        cases fuel with
        | zero => exact .error rfl
        | succ fuel => exact (readItem_close depth ['\n'] (by simp) rest).bind _
      rw [readSeparated, readItem_renderItems plain, ok_bind]
      exact (last.map _).orTry_eq _
  | cons second items ih =>
      obtain ⟨fuel, rfl⟩ : ∃ before, fuel = before + 1 := ⟨fuel - 1, by omega⟩
      have later := ih (fun other member => plain other (List.mem_cons_of_mem _ member)) fuel
        (Nat.lt_of_succ_lt_succ enough)
      rw [readSeparated, readItem_renderItems plain, ok_bind]
      dsimp only
      rw [if_pos rfl, later]
      rfl

/-- Every item takes room, so the length of what is written is fuel enough. -/
theorem length_le_renderItems (items : List Toml) :
    items.length ≤ (renderItems items).toList.length := by
  induction items with
  | nil => exact Nat.zero_le _
  | cons item items ih =>
      simp only [renderItems, String.toList_append, String.reduceToList, List.length_append,
        List.length_cons]
      omega

/-- A list is closed after its items and possibly a comma. -/
theorem readArray_eq {depth : Nat} {chars : List Char} (left : List Char) {rest : List Char}
    {items : List Toml}
    (read : orTry (readSeparated ',' (readArray.readItem (readValue depth)) (chars.length + 1) chars)
      (.ok ([], chars)) = .ok (items, left))
    (closes : dropSpace false (if items.isEmpty then left else (Text.after? [','] left).getD left) =
      .ok (']' :: rest)) :
    readArray (readValue depth) chars = .ok (.array items, rest) := by
  rw [readArray, read, ok_bind]
  dsimp only
  rw [closes, ok_bind, readSign_cons]
  rfl

/-- **A value is read as it is written.** -/
theorem Plain.readValue_renderValue {value : Toml} (plain : Plain value) {rest : List Char}
    (ends : Ends rest) (depth : Nat) :
    readValue (depth + 1) ((renderValue value).toList ++ rest) = .ok (value, rest) := by
  cases plain with
  | scalar plain => exact plain.readValue_renderValue ends _
  | array items plain =>
      have close : dropSpace false (']' :: rest) = .ok (']' :: rest) := dropSpace_cons rfl (by decide)
      -- None and one item stand on the line of the brackets, more items on lines of their own.
      rcases items with _ | ⟨item, _ | ⟨second, items⟩⟩
      · have none : GivesWay (readSeparated ',' (readArray.readItem (readValue depth))
            ((']' :: rest).length + 1) (']' :: rest)) :=
          (readItem_close depth [] (List.forall_mem_nil _) rest).bind _
        exact readArray_eq _ (none.orTry_eq _) close
      · have here := readItem_item (plain item List.mem_cons_self) depth []
          (List.forall_mem_nil _) (.inr rfl) rest
        rw [List.nil_append] at here
        have written : (renderValue (.array [item])).toList ++ rest =
            '[' :: ((renderValue item).toList ++ ']' :: rest) := by
          simp [renderValue]
        rw [written, readValue]
        refine readArray_eq (']' :: rest) ?_ close
        rw [readSeparated, here, ok_bind]
        rfl
      · have enough := length_le_renderItems (item :: second :: items)
        have read := readSeparated_renderItems plain depth rest
          (('\n' :: ((renderItems (item :: second :: items)).toList ++ ']' :: rest)).length + 1)
          (by simp only [List.length_cons, List.length_append] at enough ⊢; omega)
        have written : (renderValue (.array (item :: second :: items))).toList ++ rest =
            '[' :: '\n' :: ((renderItems (item :: second :: items)).toList ++ ']' :: rest) := by
          simp [renderValue_long]
        rw [written, readValue]
        refine readArray_eq (',' :: '\n' :: ']' :: rest) ?_ close
        rw [read, orTry_ok]

end PhpTestIndex.Toml
