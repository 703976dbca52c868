import Mathlib.Data.List.Basic
import PhpTestIndex.Json
import PhpTestIndex.Proofs.Test.Identity

/-! # Reading JSON back from its text

A text that a JSON value is written as can be cut in one way only: what a string stands for can be
read off character by character (`PhpTestIndex.Json.readCharacter?_escaped`), and values, items and
fields end where a comma or a line break follows. So two values without fractions that are written
alike are one value (`PhpTestIndex.Json.render_inj`).
-/

namespace PhpTestIndex.Json

/-- All numbers in the value are whole numbers. -/
inductive Whole : Json → Prop
  | null : Whole .null
  | bool (value : Bool) : Whole (.bool value)
  | number (value : Int) : Whole (.number value)
  | string (value : String) : Whole (.string value)
  | array (items : List Json) (whole : ∀ item ∈ items, Whole item) : Whole (.array items)
  | object (fields : List (String × Json)) (whole : ∀ field ∈ fields, Whole field.2) :
      Whole (.object fields)

/-- The items of a whole array are whole. -/
theorem Whole.items {items : List Json} (whole : Whole (.array items)) :
    ∀ item ∈ items, Whole item := by
  cases whole with
  | array _ whole => exact whole

/-- The fields of a whole object are whole. -/
theorem Whole.fields {fields : List (String × Json)} (whole : Whole (.object fields)) :
    ∀ field ∈ fields, Whole field.2 := by
  cases whole with
  | object _ whole => exact whole

section Strings

/-- The value of a hexadecimal digit. -/
def hexValue (digit : Char) : Nat :=
  if digit.toNat < 58 then digit.toNat - 48 else digit.toNat - 87

theorem hexValue_hexDigit : ∀ n < 16, hexValue (hexDigit n) = n := by
  decide

/-- The character that stands for itself after a backslash or is named there. -/
def readEscape? : List Char → Option (Char × List Char)
  | 'u' :: '0' :: '0' :: high :: low :: rest =>
    some (Char.ofNat (16 * hexValue high + hexValue low), rest)
  | 'b' :: rest => some ('\x08', rest)
  | 'f' :: rest => some ('\x0c', rest)
  | 'n' :: rest => some ('\n', rest)
  | 'r' :: rest => some ('\r', rest)
  | 't' :: rest => some ('\t', rest)
  | c :: rest => some (c, rest)
  | [] => none

/-- Read the first character of what a string is written as.  A quotation mark ends the string. -/
def readCharacter? : List Char → Option (Char × List Char)
  | '\\' :: rest => readEscape? rest
  | '\x22' :: _ => none
  | c :: rest => some (c, rest)
  | [] => none

/-- A character is read back from what it is written as, whatever follows. -/
theorem readCharacter?_escaped (c : Char) (rest : List Char) :
    readCharacter? (escaped c ++ rest) = some (c, rest) := by
  unfold escaped
  split
  case h_8 =>
    split
    · next control =>
      have high := hexValue_hexDigit (c.toNat / 16) (by omega)
      have low := hexValue_hexDigit (c.toNat % 16) (Nat.mod_lt _ (by decide))
      have whole : 16 * (c.toNat / 16) + c.toNat % 16 = c.toNat := Nat.div_add_mod _ _
      simp [readCharacter?, readEscape?, high, low, whole]
    · rw [List.singleton_append, readCharacter?] <;> assumption
  all_goals rfl

/-- What stands up to the closing quotation mark tells the characters of a string. -/
theorem flatMap_escaped_inj {first second rest rest' : List Char}
    (equal : first.flatMap escaped ++ '\x22' :: rest = second.flatMap escaped ++ '\x22' :: rest') :
    first = second ∧ rest = rest' := by
  induction first generalizing second with
  | nil =>
      cases second with
      | nil => exact ⟨rfl, List.tail_eq_of_cons_eq equal⟩
      | cons d second =>
          have reads := congrArg readCharacter? equal
          rw [List.flatMap_cons, List.append_assoc, readCharacter?_escaped] at reads
          cases reads
  | cons c first ih =>
      have reads := congrArg readCharacter? equal
      rw [List.flatMap_cons, List.append_assoc, readCharacter?_escaped] at reads
      cases second with
      | nil => cases reads
      | cons d second =>
          rw [List.flatMap_cons, List.append_assoc, readCharacter?_escaped, Option.some.injEq,
            Prod.mk.injEq] at reads
          obtain ⟨same, tails⟩ := ih reads.2
          exact ⟨by rw [reads.1, same], tails⟩

theorem toList_quote (text : String) :
    (quote text).toList = '\x22' :: (text.toList.flatMap escaped ++ ['\x22']) := by
  simp [quote]

/-- Wherever a string ends, its text tells it: no character is written as a quotation mark. -/
theorem quote_append_inj {first second : String} {rest rest' : List Char}
    (equal : (quote first).toList ++ rest = (quote second).toList ++ rest') :
    first = second ∧ rest = rest' := by
  simp only [toList_quote, List.cons_append, List.append_assoc, List.nil_append,
    List.cons.injEq, true_and] at equal
  obtain ⟨same, rests⟩ := flatMap_escaped_inj equal
  exact ⟨String.toList_inj.mp same, rests⟩

end Strings

section Numbers

/-- A character of a whole number. -/
def isNumeral (c : Char) : Bool :=
  c.isDigit || c == '-'

/-- A number that is not negative is written in digits. -/
theorem toList_ofNat (n : Nat) : (toString (Int.ofNat n)).toList = Nat.toDigits 10 n := by
  change n.repr.toList = _
  simp

/-- A negative number is written in digits behind a sign. -/
theorem toList_negSucc (n : Nat) :
    (toString (Int.negSucc n)).toList = '-' :: Nat.toDigits 10 (n + 1) := by
  change ("-" ++ (n + 1).repr).toList = _
  simp

/-- A number is written in numerals alone. -/
theorem isNumeral_of_mem {value : Int} {c : Char} (member : c ∈ (toString value).toList) :
    isNumeral c = true := by
  have digit {n : Nat} (member : c ∈ Nat.toDigits 10 n) : isNumeral c = true := by
    rw [isNumeral, Nat.isDigit_of_mem_toDigits (by decide) (by decide) member, Bool.true_or]
  cases value with
  | ofNat n => exact digit (toList_ofNat n ▸ member)
  | negSucc n =>
      rw [toList_negSucc, List.mem_cons] at member
      rcases member with rfl | member
      · rfl
      · exact digit member

/-- Digits tell the number. -/
theorem toDigits_inj {first second : Nat}
    (equal : Nat.toDigits 10 first = Nat.toDigits 10 second) : first = second := by
  have values := congrArg (Nat.ofDigitChars 10 · 0) equal
  simpa only [Nat.ofDigitChars_ten_toDigits] using values

/-- A whole number is told by its text, since a sign is no digit. -/
theorem number_inj {first second : Int}
    (equal : (toString first).toList = (toString second).toList) : first = second := by
  -- Digits do not begin with the sign.
  have unsigned (n m : Nat) : Nat.toDigits 10 n ≠ '-' :: Nat.toDigits 10 (m + 1) := by
    intro same
    have digit := Nat.isDigit_of_mem_toDigits (b := 10) (c := '-') (by decide) (by decide)
      (same ▸ List.mem_cons_self : '-' ∈ Nat.toDigits 10 n)
    exact absurd digit (by decide)
  cases first with
  | ofNat n =>
      cases second with
      | ofNat m =>
          rw [toList_ofNat, toList_ofNat] at equal
          rw [toDigits_inj equal]
      | negSucc m =>
          rw [toList_ofNat, toList_negSucc] at equal
          exact absurd equal (unsigned n m)
  | negSucc n =>
      cases second with
      | ofNat m =>
          rw [toList_ofNat, toList_negSucc] at equal
          exact absurd equal.symm (unsigned m n)
      | negSucc m =>
          rw [toList_negSucc, toList_negSucc] at equal
          rw [Nat.succ.inj (toDigits_inj (List.tail_eq_of_cons_eq equal))]

end Numbers

section Parts

/-- What can stand after a value: the comma before the next part, or a line break. -/
def Ends (rest : List Char) : Prop :=
  ∀ c ∈ rest.head?, c = ',' ∨ c = '\n'

/-- How the parts of a list after the first are written. -/
def separated (write : α → List Char) (level : Nat) (parts : List α) : List Char :=
  parts.flatMap fun part => ',' :: (newLine level).toList ++ write part

/-- How the parts of a list are written between brackets. -/
def enclosed (opening closing : Char) (write : α → List Char) (level : Nat) :
    List α → List Char
  | [] => [opening, closing]
  | part :: parts =>
    opening :: (newLine (level + 1)).toList ++ write part ++ separated write (level + 1) parts ++
      (newLine level).toList ++ [closing]

theorem toList_newLine (level : Nat) :
    (newLine level).toList = '\n' :: List.replicate (2 * level) ' ' := by
  simp [newLine]

variable {α : Type} {write : α → List Char} {level : Nat} {first second : List α}
  {rest rest' : List Char}

/-- After a part stands a comma or the line break before the closing bracket. -/
theorem ends_separated (parts : List α) (broken : rest.head? = some '\n') :
    Ends (separated write level parts ++ rest) := by
  cases parts with
  | nil => simp [Ends, separated, broken]
  | cons part parts => simp [Ends, separated]

/-- If every part is told by its text, so are the parts after the first, up to the line break. -/
theorem separated_append_inj
    (parts : ∀ part ∈ first, ∀ part' ∈ second, ∀ rest rest', Ends rest → Ends rest' →
      write part ++ rest = write part' ++ rest' → part = part' ∧ rest = rest')
    (broken : rest.head? = some '\n') (broken' : rest'.head? = some '\n')
    (equal : separated write level first ++ rest = separated write level second ++ rest') :
    first = second ∧ rest = rest' := by
  -- A part that goes on begins with a comma, and what follows the parts with a line break.
  induction first generalizing second with
  | nil =>
      cases second with
      | nil => exact ⟨rfl, equal⟩
      | cons part' second =>
          have heads := congrArg List.head? equal
          simp [separated, broken] at heads
  | cons part first ih =>
      cases second with
      | nil =>
          have heads := congrArg List.head? equal
          simp [separated, broken'] at heads
      | cons part' second =>
          simp only [separated, List.flatMap_cons, List.cons_append, List.append_assoc,
            List.cons.injEq, true_and, List.append_cancel_left_eq] at equal
          obtain ⟨same, tails⟩ := parts part List.mem_cons_self part' List.mem_cons_self _ _
            (ends_separated first broken) (ends_separated second broken') equal
          obtain ⟨sames, rests⟩ := ih (fun part member part' member' =>
            parts part (List.mem_cons_of_mem _ member) part' (List.mem_cons_of_mem _ member')) tails
          exact ⟨by rw [same, sames], rests⟩

/-- If every part is told by its text, so is a list of parts between brackets. -/
theorem enclosed_append_inj {opening closing : Char} (closes : closing ≠ '\n')
    (parts : ∀ part ∈ first, ∀ part' ∈ second, ∀ rest rest', Ends rest → Ends rest' →
      write part ++ rest = write part' ++ rest' → part = part' ∧ rest = rest')
    (equal : enclosed opening closing write level first ++ rest =
      enclosed opening closing write level second ++ rest') :
    first = second ∧ rest = rest' := by
  cases first with
  | nil =>
      cases second with
      | nil => simpa [enclosed] using equal
      | cons part' second => simp [enclosed, toList_newLine, closes] at equal
  | cons part first =>
      cases second with
      | nil => simp [enclosed, toList_newLine, closes.symm] at equal
      | cons part' second =>
          simp only [enclosed, List.cons_append, List.append_assoc, List.cons.injEq, true_and,
            List.append_cancel_left_eq] at equal
          have broken (rest : List Char) :
              ((newLine level).toList ++ ([closing] ++ rest)).head? = some '\n' := by
            simp [toList_newLine]
          obtain ⟨same, tails⟩ := parts part List.mem_cons_self part' List.mem_cons_self _ _
            (ends_separated first (broken rest)) (ends_separated second (broken rest')) equal
          obtain ⟨sames, rests⟩ := separated_append_inj (fun part member part' member' =>
            parts part (List.mem_cons_of_mem _ member) part' (List.mem_cons_of_mem _ member'))
            (broken rest) (broken rest') tails
          exact ⟨by rw [same, sames], by simpa using rests⟩

end Parts

section Values

/-- How a field is written. -/
def writeField (level : Nat) (field : String × Json) : List Char :=
  (quote field.1).toList ++ ':' :: ' ' :: (renderAt level field.2).toList

variable (level : Nat)

/-- The items after the first are written each behind a comma. -/
theorem toList_renderItems (items : List Json) :
    (renderItems level items).toList =
      separated (fun item => (renderAt level item).toList) level items := by
  induction items with
  | nil => rfl
  | cons item items ih => simp [renderItems, separated, ih]

/-- The fields after the first are written each behind a comma. -/
theorem toList_renderFields (fields : List (String × Json)) :
    (renderFields level fields).toList = separated (writeField level) level fields := by
  induction fields with
  | nil => rfl
  | cons field fields ih =>
      obtain ⟨name, value⟩ := field
      simp [renderFields, separated, writeField, ih]

/-- An array is written between square brackets. -/
theorem toList_renderAt_array (items : List Json) :
    (renderAt level (.array items)).toList =
      enclosed '[' ']' (fun item => (renderAt (level + 1) item).toList) level items := by
  cases items with
  | nil => simp [renderAt, enclosed]
  | cons item items => simp [renderAt, enclosed, toList_renderItems]

/-- An object is written between braces. -/
theorem toList_renderAt_object (fields : List (String × Json)) :
    (renderAt level (.object fields)).toList =
      enclosed '\x7b' '\x7d' (writeField (level + 1)) level fields := by
  cases fields with
  | nil => simp [renderAt, enclosed]
  | cons field fields =>
      obtain ⟨name, value⟩ := field
      simp [renderAt, enclosed, toList_renderFields, writeField]

/-- The mark of a kind of values: the character that they start with, one for all numbers and one
for both truth values. -/
def mark : Json → Char
  | .null => 'n'
  | .bool _ => 't'
  | .number _ => '0'
  | .fraction _ => '0'
  | .string _ => '\x22'
  | .array _ => '['
  | .object _ => '\x7b'

/-- The mark of the values that start with a character. -/
def markOf (c : Char) : Char :=
  if isNumeral c then '0' else if c = 'f' then 't' else c

theorem head?_enclosed {opening closing : Char} {write : α → List Char} (parts : List α) :
    (enclosed opening closing write level parts).head? = some opening := by
  cases parts <;> simp [enclosed]

/-- The first character of a value tells its kind. -/
theorem head?_renderAt {value : Json} (whole : Whole value) :
    (renderAt level value).toList.head?.map markOf = some value.mark := by
  cases whole with
  | null => simp [renderAt, markOf, isNumeral, mark]
  | bool value => cases value <;> simp [renderAt, markOf, isNumeral, mark]
  | number value =>
      obtain ⟨c, rest, digits⟩ : ∃ c rest, (toString value).toList = c :: rest := by
        apply List.exists_cons_of_ne_nil
        cases value with
        | ofNat n => exact toList_ofNat n ▸ Nat.toDigits_ne_nil
        | negSucc n => exact toList_negSucc n ▸ List.cons_ne_nil _ _
      have numeral : isNumeral c = true := isNumeral_of_mem (digits ▸ List.mem_cons_self)
      rw [renderAt, digits, List.head?_cons, Option.map_some, markOf, numeral]
      rfl
  | string value =>
      rw [renderAt, toList_quote]
      rfl
  | array items =>
      rw [toList_renderAt_array, head?_enclosed]
      rfl
  | object fields =>
      rw [toList_renderAt_object, head?_enclosed]
      rfl

/-- Values of different kinds start with different characters. -/
theorem mark_eq_of_append_eq {first second : Json} (whole : Whole first) (whole' : Whole second)
    {level : Nat} {rest rest' : List Char}
    (equal : (renderAt level first).toList ++ rest = (renderAt level second).toList ++ rest') :
    first.mark = second.mark := by
  have starts {value : Json} (whole : Whole value) (rest : List Char) :
      ((renderAt level value).toList ++ rest).head?.map markOf = some value.mark := by
    rw [List.head?_append, Option.map_or, head?_renderAt level whole, Option.some_or]
  rw [← Option.some.injEq, ← starts whole rest, ← starts whole' rest', equal]

/-- Wherever a value ends, its text tells it. -/
theorem renderAt_append_inj {first second : Json} (whole : Whole first) (whole' : Whole second)
    {level : Nat} {rest rest' : List Char} (ends : Ends rest) (ends' : Ends rest')
    (equal : (renderAt level first).toList ++ rest = (renderAt level second).toList ++ rest') :
    first = second ∧ rest = rest' := by
  induction whole generalizing second level rest rest' with
  | null =>
      have marks := mark_eq_of_append_eq .null whole' equal
      cases whole' with
      | null => exact ⟨rfl, List.append_cancel_left equal⟩
      | _ => exact absurd marks (by simp [mark])
  | bool value =>
      have marks := mark_eq_of_append_eq (.bool value) whole' equal
      cases whole' with
      | bool value' =>
          cases value <;> cases value' <;> simp_all [renderAt]
      | _ => exact absurd marks (by simp [mark])
  | number value =>
      have marks := mark_eq_of_append_eq (.number value) whole' equal
      cases whole' with
      | number value' =>
          have stops {rest : List Char} (ends : Ends rest) :
              ∀ c ∈ rest.head?, isNumeral c = false := by
            intro c member
            rcases ends c member with rfl | rfl <;> rfl
          obtain ⟨same, rests⟩ := append_inj_of_head (fun _ => isNumeral_of_mem)
            (fun _ => isNumeral_of_mem) (stops ends) (stops ends') equal
          exact ⟨by rw [number_inj same], rests⟩
      | _ => exact absurd marks (by simp [mark])
  | string value =>
      have marks := mark_eq_of_append_eq (.string value) whole' equal
      cases whole' with
      | string value' =>
          obtain ⟨same, rests⟩ := quote_append_inj equal
          exact ⟨by rw [same], rests⟩
      | _ => exact absurd marks (by simp [mark])
  | array items whole ih =>
      have marks := mark_eq_of_append_eq (.array items whole) whole' equal
      cases whole' with
      | array items' whole' =>
          rw [toList_renderAt_array, toList_renderAt_array] at equal
          obtain ⟨same, rests⟩ := enclosed_append_inj (by decide) (fun item member item' member'
            _ _ ends ends' equal => ih item member (whole' item' member') ends ends' equal) equal
          exact ⟨by rw [same], rests⟩
      | _ => exact absurd marks (by simp [mark])
  | object fields whole ih =>
      have marks := mark_eq_of_append_eq (.object fields whole) whole' equal
      cases whole' with
      | object fields' whole' =>
          rw [toList_renderAt_object, toList_renderAt_object] at equal
          obtain ⟨same, rests⟩ := enclosed_append_inj (by decide) (fun field member field' member'
            _ _ ends ends' equal => by
              simp only [writeField, List.append_assoc] at equal
              obtain ⟨names, values⟩ := quote_append_inj equal
              simp only [List.cons_append, List.cons.injEq, true_and] at values
              obtain ⟨same, rests⟩ := ih field member (whole' field' member') ends ends' values
              exact ⟨Prod.ext names same, rests⟩) equal
          exact ⟨by rw [same], rests⟩
      | _ => exact absurd marks (by simp [mark])

/-- **A text is written for one value.** Two values without fractions that are written alike are
the same. -/
theorem render_inj {first second : Json} (whole : Whole first) (whole' : Whole second)
    (equal : first.render = second.render) : first = second := by
  have nothing : Ends [] := nofun
  have texts : (renderAt 0 first).toList ++ [] = (renderAt 0 second).toList ++ [] :=
    congrArg (fun text : String => text.toList ++ []) equal
  exact (renderAt_append_inj whole whole' nothing nothing texts).1

end Values

end PhpTestIndex.Json
