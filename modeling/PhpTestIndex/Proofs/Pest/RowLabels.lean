import PhpTestIndex.Proofs.Php.Literals
import PhpTestIndex.Proofs.Test.Identity
import PhpTestIndex.Proofs.Text.Blank
import PhpTestIndex.Proofs.Text.Parts

/-! # Labels of rows

A row of data is named after its key if the key is a string, and after its values otherwise. The key
is not decoded but read off the row: it is what stands between two quotes before an arrow
(`PhpTestIndex.Identifier.rowKey?_eq_some_iff`). This is the value of the string exactly if nothing
has to be decoded, and a string in which a hidden quote stands before an arrow is taken for a key
(`PhpTestIndex.Identifier.rowLabel_of_key`).
-/

namespace PhpTestIndex

namespace Identifier

/-- The label of a row with a string for its key. -/
def keyLabel (key : String) : String :=
  "with data set \"dataset \"" ++ key ++ "\"\""

/-- The label of a row that is named after its values. -/
def valuesLabel (values : String) : String :=
  "with data set \"(" ++ values ++ ")\""

/-- What may stand between a key and its arrow: white space, and what starts as comments do. -/
inductive IsGap : List Char → Prop
  | nil : IsGap []
  | blank {c : Char} {rest : List Char} (isBlank : Text.isBlank c = true) (later : IsGap rest) :
      IsGap (c :: rest)
  | comment {sign : Char} (text : List Char) {rest : List Char} (starts : sign = '/' ∨ sign = '#')
      (later : IsGap rest) : IsGap (sign :: text ++ rest)

/-- The row has a literal for its key, which is set apart from the arrow by a gap. -/
structure IsKeyedBy (key : Php.Literal) (gap row : List Char) : Prop where
  isBody : Php.IsBody key.quote.sign key.body
  isGap : IsGap gap
  whole : ∃ lead value, Text.IsBlank lead ∧ row = lead ++ key.text ++ gap ++ "=>".toList ++ value

/-- The row starts with a string in which the first quote is hidden and stands before an arrow. -/
def HidesArrow (row : List Char) : Prop :=
  ∃ (lead : List Char) (quote : Php.Quote) (body gap value : List Char),
    Text.IsBlank lead ∧ Text.IsBlank gap ∧ Php.IsBody quote.sign body ∧ quote.sign ∉ body ∧
      row = lead ++ quote.sign :: (body ++ ['\\']) ++ quote.sign :: gap ++ "=>".toList ++ value

section Keys

variable {row key key' chars rest rest' gap gap' value value' : List Char} {quote : Char}

/-- White space may stand between a key and its arrow. -/
theorem isGap_of_isBlank (blank : Text.IsBlank gap) : IsGap gap := by
  induction gap with
  | nil => exact .nil
  | cons c gap ih =>
      obtain ⟨first, others⟩ := List.forall_mem_cons.mp blank
      exact .blank first (ih others)

/-- A gap before an arrow that could stand after white space is white space. -/
theorem IsGap.isBlank_of_append_eq (isGap : IsGap gap) (blank : Text.IsBlank gap')
    (same : gap ++ "=>".toList ++ value = gap' ++ "=>".toList ++ value') : Text.IsBlank gap := by
  induction isGap generalizing gap' with
  | nil => exact fun _ member => nomatch member
  | @blank c rest isBlank _ ih =>
      cases gap' with
      | nil =>
          obtain rfl : c = '=' := (List.cons.inj same).1
          exact absurd isBlank (by decide)
      | cons d gap' =>
          obtain ⟨rfl, rests⟩ := List.cons.inj same
          have later := ih (List.forall_mem_cons.mp blank).2 rests
          exact List.forall_mem_cons.mpr ⟨isBlank, later⟩
  | @comment sign text rest starts _ _ =>
      -- The sign of a comment is neither the sign of an arrow nor blank.
      cases gap' with
      | nil =>
          obtain rfl : sign = '=' := (List.cons.inj same).1
          exact absurd starts (by decide)
      | cons d gap' =>
          obtain rfl : sign = d := (List.cons.inj same).1
          have blankSign := (List.forall_mem_cons.mp blank).1
          rcases starts with rfl | rfl <;> exact absurd blankSign (by decide)

/-- What is read up to a quote is what stands before the first such quote. -/
theorem upToQuote_eq_some_iff :
    upToQuote quote chars = some (key, rest) ↔ quote ∉ key ∧ chars = key ++ quote :: rest := by
  unfold upToQuote
  constructor
  · intro found
    split at found
    · cases found
    · rename_i c after dropped
      obtain ⟨rfl, rfl⟩ := Prod.mk.inj (Option.some.inj found)
      have stops := List.head?_dropWhile_not (fun c => c != quote) chars
      rw [dropped] at stops
      obtain rfl : c = quote := by simpa using stops
      refine ⟨fun member => ?_, ?_⟩
      · simpa using List.all_eq_true.mp List.all_takeWhile c member
      · rw [← dropped, List.takeWhile_append_dropWhile]
  · rintro ⟨absent, rfl⟩
    have all : ∀ c ∈ key, (c != quote) = true := by
      intro c member
      rw [bne_iff_ne]
      rintro rfl
      exact absent member
    rw [List.dropWhile_append_of_pos all, List.takeWhile_append_of_pos all]
    simp

/-- The first quote cuts a text in one way only. -/
theorem append_quote_inj (absent : quote ∉ key) (absent' : quote ∉ key')
    (same : key ++ quote :: rest = key' ++ quote :: rest') : key = key' ∧ rest = rest' := by
  have cut : upToQuote quote (key ++ quote :: rest) = some (key, rest) :=
    upToQuote_eq_some_iff.mpr ⟨absent, rfl⟩
  have cut' : upToQuote quote (key ++ quote :: rest) = some (key', rest') :=
    upToQuote_eq_some_iff.mpr ⟨absent', same⟩
  exact Prod.mk.inj (Option.some.inj (cut.symm.trans cut'))

/-- An arrow is found after white space exactly if the text is white space, the arrow and a value.
-/
theorem isPrefixOf_trimStart_iff :
    "=>".toList.isPrefixOf (Text.trimStart chars) = true ↔
      ∃ gap value, Text.IsBlank gap ∧ chars = gap ++ "=>".toList ++ value := by
  rw [List.isPrefixOf_iff_prefix]
  constructor
  · rintro ⟨value, arrow⟩
    have trimmed : Text.trimStart chars = '=' :: '>' :: value := arrow.symm
    obtain ⟨gap, blank, whole⟩ := (Text.trimStart_eq_cons_iff (by decide)).mp trimmed
    exact ⟨gap, value, blank, by rw [whole, List.append_assoc]; rfl⟩
  · rintro ⟨gap, value, blank, rfl⟩
    refine ⟨value, ?_⟩
    rw [List.append_assoc]
    exact ((Text.trimStart_eq_cons_iff (by decide)).mpr ⟨gap, blank, rfl⟩).symm

/-- In a row that opens with a quote, the key is what stands before the next such quote, if an arrow
follows it. -/
theorem rowKey?_of_trimStart {quote : Php.Quote} (opens : Text.trimStart row = quote.sign :: rest) :
    rowKey? row = some key ↔
      ∃ more, upToQuote quote.sign rest = some (key, more) ∧
        "=>".toList.isPrefixOf (Text.trimStart more) = true := by
  unfold rowKey?
  rw [opens]
  cases quote with
  | single | double =>
      simp only [Php.Quote.sign]
      cases upToQuote _ rest with
      | none => simp
      | some cut => cases cut; simp [and_comm]

/-- A row with a key opens with a quote, apart from white space. -/
theorem exists_quote_of_rowKey? (found : rowKey? row = some key) :
    ∃ (quote : Php.Quote) (rest : List Char), Text.trimStart row = quote.sign :: rest := by
  unfold rowKey? at found
  dsimp only at found
  split at found
  · rename_i rest opens
    exact ⟨.single, rest, opens⟩
  · rename_i rest opens
    exact ⟨.double, rest, opens⟩
  · cases found

theorem isBlank_sign (quote : Php.Quote) : Text.isBlank quote.sign = false := by
  cases quote <;> decide

/-- **The key of a row is what stands between two quotes before an arrow.** -/
theorem rowKey?_eq_some_iff :
    rowKey? row = some key ↔
      ∃ (lead : List Char) (quote : Php.Quote) (gap value : List Char),
        Text.IsBlank lead ∧ Text.IsBlank gap ∧ quote.sign ∉ key ∧
          row = lead ++ quote.sign :: key ++ quote.sign :: gap ++ "=>".toList ++ value := by
  constructor
  · intro found
    obtain ⟨quote, rest, opens⟩ := exists_quote_of_rowKey? found
    obtain ⟨more, upTo, arrow⟩ := (rowKey?_of_trimStart opens).mp found
    obtain ⟨lead, blankLead, rfl⟩ := (Text.trimStart_eq_cons_iff (isBlank_sign quote)).mp opens
    obtain ⟨absent, rfl⟩ := upToQuote_eq_some_iff.mp upTo
    obtain ⟨gap, value, blankGap, rfl⟩ := isPrefixOf_trimStart_iff.mp arrow
    exact ⟨lead, quote, gap, value, blankLead, blankGap, absent, by simp⟩
  · rintro ⟨lead, quote, gap, value, blankLead, blankGap, absent, rfl⟩
    have opens : Text.trimStart
        (lead ++ quote.sign :: key ++ quote.sign :: gap ++ "=>".toList ++ value) =
          quote.sign :: (key ++ quote.sign :: (gap ++ "=>".toList ++ value)) := by
      rw [Text.trimStart_eq_cons_iff (isBlank_sign quote)]
      exact ⟨lead, blankLead, by simp⟩
    rw [rowKey?_of_trimStart opens]
    exact ⟨_, upToQuote_eq_some_iff.mpr ⟨absent, rfl⟩,
      isPrefixOf_trimStart_iff.mpr ⟨gap, value, blankGap, rfl⟩⟩

end Keys

section Labels

variable {row key : List Char}

/-- Labels made from keys tell the keys. -/
theorem keyLabel_inj {first second : String} :
    keyLabel first = keyLabel second ↔ first = second := by
  unfold keyLabel
  rw [String.append_left_inj, String.append_right_inj]

/-- Labels made from values tell the values. -/
theorem valuesLabel_inj {first second : String} :
    valuesLabel first = valuesLabel second ↔ first = second := by
  unfold valuesLabel
  rw [String.append_left_inj, String.append_right_inj]

/-- No label is made from a key and from values as well: the two differ right behind the first
quote. -/
theorem keyLabel_ne_valuesLabel (key values : String) : keyLabel key ≠ valuesLabel values := by
  intro same
  unfold keyLabel valuesLabel at same
  simp [← String.toList_inj] at same

/-- A row is labelled by its key if one is found, and by its values otherwise. -/
theorem rowLabel_eq (row : List Char) :
    rowLabel (String.ofList row) =
      match rowKey? row with
      | some key => keyLabel (String.ofList key)
      | none => valuesLabel (String.ofList (rowValues row)) := by
  unfold rowLabel
  rw [String.toList_ofList]
  cases rowKey? row <;> rfl

/-- The label of a row shows a key exactly if this key is found in the row. -/
theorem rowLabel_eq_keyLabel_iff :
    rowLabel (String.ofList row) = keyLabel (String.ofList key) ↔ rowKey? row = some key := by
  rw [rowLabel_eq]
  cases rowKey? row with
  | some other => rw [keyLabel_inj, String.ofList_inj, Option.some.injEq]
  | none => simp [(keyLabel_ne_valuesLabel _ _).symm]

/-- The label of a row shows its values exactly if no key is found. -/
theorem rowLabel_eq_valuesLabel_iff :
    rowLabel (String.ofList row) = valuesLabel (String.ofList (rowValues row)) ↔
      rowKey? row = none := by
  rw [rowLabel_eq]
  cases rowKey? row with
  | some other => simp [keyLabel_ne_valuesLabel]
  | none => simp

/-- What starts with a literal and with a quote starts with the quote of the literal. -/
theorem opening_inj {lead lead' mark rest rest' : List Char} {quote quote' : Php.Quote}
    (isMark : mark ∈ Php.binaryMarks) (blank : Text.IsBlank lead) (blank' : Text.IsBlank lead')
    (same : lead ++ (mark ++ quote.sign :: rest) = lead' ++ quote'.sign :: rest') :
    mark = [] ∧ quote.sign = quote'.sign ∧ rest = rest' := by
  have ends : ∀ c ∈ (quote'.sign :: rest').head?, Text.isBlank c = false := by
    simp [isBlank_sign]
  have noLetter : 'b' ≠ quote'.sign ∧ 'B' ≠ quote'.sign := by
    cases quote' <;> decide
  simp only [Php.binaryMarks, List.mem_cons, List.not_mem_nil, or_false] at isMark
  rcases isMark with rfl | rfl | rfl
  · obtain ⟨-, opened⟩ := append_inj_of_head blank blank' (by simp [isBlank_sign]) ends same
    exact ⟨rfl, List.cons.inj opened⟩
  · obtain ⟨-, opened⟩ := append_inj_of_head blank blank' (by simp +decide) ends same
    exact absurd (List.cons.inj opened).1 noLetter.1
  · obtain ⟨-, opened⟩ := append_inj_of_head blank blank' (by simp +decide) ends same
    exact absurd (List.cons.inj opened).1 noLetter.2

/-- A row with a literal for its key is named after the value of the key exactly if nothing has to
be decoded, the literal has no mark, and only white space stands before the arrow. -/
theorem rowLabel_eq_keyLabel_value_iff {literal : Php.Literal} {gap : List Char}
    (keyed : IsKeyedBy literal gap row) :
    rowLabel (String.ofList row) = keyLabel (String.ofList literal.value) ↔
      literal.mark = [] ∧
        (∀ c, literal.quote.hides c = true → ¬ ['\\', c] <:+: literal.body) ∧
        Text.IsBlank gap := by
  obtain ⟨isBody, isGap, lead, value, blankLead, whole⟩ := keyed
  rw [rowLabel_eq_keyLabel_iff, rowKey?_eq_some_iff,
    ← Php.unescape_eq_self_iff literal.quote.hides_backslash]
  obtain ⟨mark, quote, body, isMark⟩ := literal
  dsimp only [Php.Literal.value, Php.Literal.text] at *
  constructor
  · rintro ⟨lead', quote', gap', value', blankLead', blankGap', absent, whole'⟩
    have same : lead ++ (mark ++ quote.sign ::
          (body ++ quote.sign :: (gap ++ "=>".toList ++ value))) =
        lead' ++ quote'.sign :: (Php.unescape quote.hides body ++
          quote'.sign :: (gap' ++ "=>".toList ++ value')) := by
      simpa using whole.symm.trans whole'
    obtain ⟨noMark, signs, rests⟩ := opening_inj isMark blankLead blankLead' same
    rw [← signs] at absent rests
    have absentBody : quote.sign ∉ body :=
      fun member => absent (Php.mem_unescape quote.sign_ne_backslash member)
    obtain ⟨bodies, gaps⟩ := append_quote_inj absentBody absent rests
    exact ⟨noMark, bodies.symm, isGap.isBlank_of_append_eq blankGap' gaps⟩
  · rintro ⟨rfl, unchanged, blankGap⟩
    have absent : quote.sign ∉ body := by
      intro member
      have hidden := isBody.infix_of_mem quote.sign_ne_backslash member
      exact (Php.unescape_eq_self_iff quote.hides_backslash).mp unchanged _ quote.hides_sign hidden
    rw [unchanged]
    exact ⟨lead, quote, gap, value, blankLead, blankGap, absent, by simp [whole]⟩

/-- A row without a literal for its key is named after its values exactly if no hidden quote stands
before an arrow. -/
theorem rowLabel_eq_valuesLabel_iff_not_hidesArrow
    (plain : ∀ literal gap, ¬ IsKeyedBy literal gap row) :
    rowLabel (String.ofList row) = valuesLabel (String.ofList (rowValues row)) ↔
      ¬ HidesArrow row := by
  rw [rowLabel_eq_valuesLabel_iff, ← not_iff_not, not_not, ← ne_eq, Option.ne_none_iff_exists']
  constructor
  · rintro ⟨key, found⟩
    obtain ⟨lead, quote, gap, value, blankLead, blankGap, absent, whole⟩ :=
      rowKey?_eq_some_iff.mp found
    rcases Php.isBody_or_hides absent with isBody | ⟨body, rfl, isBody⟩
    · let literal : Php.Literal := ⟨[], quote, key, by simp [Php.binaryMarks]⟩
      have keyed : IsKeyedBy literal gap row :=
        ⟨isBody, isGap_of_isBlank blankGap, lead, value, blankLead,
          by simp [whole, literal, Php.Literal.text]⟩
      exact absurd keyed (plain literal gap)
    · refine ⟨lead, quote, body, gap, value, blankLead, blankGap, isBody, ?_, whole⟩
      exact fun member => absent (List.mem_append_left _ member)
  · rintro ⟨lead, quote, body, gap, value, blankLead, blankGap, isBody, absent, whole⟩
    refine ⟨body ++ ['\\'], rowKey?_eq_some_iff.mpr ?_⟩
    exact ⟨lead, quote, gap, value, blankLead, blankGap,
      by simp [absent, quote.sign_ne_backslash], whole⟩

end Labels

section Arrows

variable {key value : List Char}

/-- Taking off white space and brackets takes off at most two characters that are shown. -/
theorem shownCount_rowValues (row : List Char) :
    Text.shownCount (rowValues row) = Text.shownCount row ∨
      Text.shownCount (rowValues row) + 2 = Text.shownCount row := by
  unfold rowValues
  dsimp only
  rw [Text.shownCount_trim, ← Text.shownCount_trim row]
  generalize Text.trim row = row
  cases found : (Text.after? ['['] row).bind (Text.before? [']']) with
  | none => exact .inl rfl
  | some inner =>
      obtain ⟨opened, start, finish⟩ := Option.bind_eq_some_iff.mp found
      obtain rfl := Text.eq_of_after? start
      obtain rfl := Text.eq_of_before? finish
      right
      have brackets : Text.shownCount ['['] = 1 ∧ Text.shownCount [']'] = 1 := by decide
      simp only [Option.getD_some, Text.shownCount_append, brackets]
      omega

/-- A row with an arrow is never named after what stands after the arrow alone. -/
theorem rowLabel_ne_valuesLabel (shown : ∃ c ∈ key, Text.isBlank c = false) :
    rowLabel (String.ofList (key ++ "=>".toList ++ value)) ≠
      valuesLabel (String.ofList (rowValues value)) := by
  intro same
  rw [rowLabel_eq] at same
  cases found : rowKey? (key ++ "=>".toList ++ value) with
  | some other =>
      rw [found] at same
      exact keyLabel_ne_valuesLabel _ _ same
  | none =>
      rw [found] at same
      have values := String.ofList_inj.mp (valuesLabel_inj.mp same)
      have counts := congrArg Text.shownCount values
      have ofRow := shownCount_rowValues (key ++ "=>".toList ++ value)
      have ofValue := shownCount_rowValues value
      have arrow : Text.shownCount "=>".toList = 2 := by decide
      have ofKey : 0 < Text.shownCount key := by
        simpa [Text.shownCount, List.countP_pos_iff] using shown
      simp only [Text.shownCount_append, arrow] at ofRow
      omega

end Arrows

/-- **Rows are named after strings that need not be decoded.** A row with a literal for its key is
named after the value of the key exactly if the key has no escape sequence and no mark, and only
white space stands before the arrow. A row without a literal for its key is named after its values
exactly if no hidden quote of a string at its start stands before an arrow. Of a row with an arrow,
the label is never that of what stands after the arrow. -/
theorem rowLabel_of_key (row : List Char) :
    (∀ (key : Php.Literal) (gap : List Char), IsKeyedBy key gap row →
      ∃ value, Php.stringValue? key.quote.kind key.text = some value ∧
        (rowLabel (String.ofList row) = keyLabel (String.ofList value) ↔
          key.mark = [] ∧ (∀ c, key.quote.hides c = true → ¬ ['\\', c] <:+: key.body) ∧
            Text.IsBlank gap)) ∧
    ((∀ key gap, ¬ IsKeyedBy key gap row) →
      (rowLabel (String.ofList row) = valuesLabel (String.ofList (rowValues row)) ↔
        ¬ HidesArrow row)) ∧
    ∀ key value : List Char, (∃ c ∈ key, Text.isBlank c = false) →
      row = key ++ "=>".toList ++ value →
        rowLabel (String.ofList row) ≠ valuesLabel (String.ofList (rowValues value)) := by
  refine ⟨?_, rowLabel_eq_valuesLabel_iff_not_hidesArrow, ?_⟩
  · intro key gap keyed
    exact ⟨key.value, Php.stringValue?_text key, rowLabel_eq_keyLabel_value_iff keyed⟩
  · rintro key value shown rfl
    exact rowLabel_ne_valuesLabel shown

/-- A row with a key in quotes, one without a key and one with a number for a key. -/
theorem readRows_labelled :
    rowLabel "'admin' => ['admin']" = keyLabel "admin" ∧
      rowLabel "[1, 2]" = valuesLabel "1, 2" ∧
      rowLabel "1 => [2]" ≠ valuesLabel "2" := by
  refine ⟨?_, ?_, ?_⟩
  · let key := Php.Literal.ofValue [] (by simp [Php.binaryMarks]) "admin".toList
    have keyed : IsKeyedBy key [' '] "'admin' => ['admin']".toList :=
      ⟨Php.isBody_escape .single _, .blank (by decide) .nil, [], " ['admin']".toList,
        Text.isBlank_nil, by decide⟩
    have noSequence : ∀ c, key.quote.hides c = true → ¬ ['\\', c] <:+: key.body := by
      rintro c - hidden
      exact absurd (hidden.subset List.mem_cons_self) (by decide)
    have blank : Text.IsBlank [' '] := by decide
    obtain ⟨named, -⟩ := rowLabel_of_key "'admin' => ['admin']".toList
    obtain ⟨value, read, label⟩ := named key [' '] keyed
    obtain rfl : "admin".toList = value := by
      rw [← Option.some.injEq, ← read]
      decide +kernel
    exact label.mpr ⟨rfl, noSequence, blank⟩
  · have noArrow : ¬ "=>".toList <:+: "[1, 2]".toList := by decide
    obtain ⟨-, unnamed, -⟩ := rowLabel_of_key "[1, 2]".toList
    refine (unnamed ?_).mpr ?_
    · rintro key gap ⟨-, -, lead, value, -, row⟩
      exact noArrow ⟨_, value, row.symm⟩
    · rintro ⟨lead, quote, body, gap, value, -, -, -, -, row⟩
      exact noArrow ⟨_, value, row.symm⟩
  · obtain ⟨-, -, whole⟩ := rowLabel_of_key "1 => [2]".toList
    exact whole "1 ".toList " [2]".toList ⟨'1', by decide, by decide⟩ (by decide)

/-- A key with a hidden quote is not found, so that the row is named after its values, and a string
with one before an arrow is taken for a key. -/
theorem hiddenQuotes_mislabelled :
    Php.stringValue? .plainString "'it\\'s'".toList = some "it's".toList ∧
      rowLabel "'it\\'s' => [1]" = valuesLabel "'it\\'s' => [1]" ∧
      Php.stringValue? .plainString "'x\\' => y'".toList = some "x' => y".toList ∧
      rowLabel "'x\\' => y'" = keyLabel "x\\" := by
  decide +kernel

end Identifier

end PhpTestIndex
