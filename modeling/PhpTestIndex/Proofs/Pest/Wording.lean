import PhpTestIndex.Proofs.Pest.Selection
import PhpTestIndex.Proofs.Test.Identity
import PhpTestIndex.Proofs.Text.Piece

/-! # Places that are worded alike

A group, a test or a data set that is registered by calls has a `PhpTestIndex.Pest.Place`: the
descriptions of the groups around it and its own label. The identifier writes them one after the
other and sets marks between them, backticks and arrows between descriptions and a quotation mark
before the data. Descriptions are free text, so they can look like marks themselves. Where they do not,
the place can be read off the identifier (`PhpTestIndex.Pest.Place.eq_or_isBlank_of_wording_eq`), so
two places have one wording only in the ways of `PhpTestIndex.Pest.Coincide`.
-/

namespace PhpTestIndex.Pest

/-- Where a node stands in a file that registers tests by calls. -/
inductive Place
  | suite
  /-- A group with a description, inside others. -/
  | group (groups : List String) (description : String)
  /-- A test with a label, inside groups. -/
  | test (groups : List String) (label : String)
  /-- A data set of a test, with a label of its own. -/
  | dataSet (groups : List String) (label : String) (row : String)

/-- What every label of a data set begins with, after a blank. -/
def dataSetMark : List Char :=
  " with data set ".toList ++ ['\x22']

namespace Place

/-- What the test or the group at a place is called. -/
def name : Place → String
  | suite => ""
  | group groups description => namePrefix groups ++ ("`" ++ description ++ "`")
  | test groups label => namePrefix groups ++ label
  | dataSet groups label _ => namePrefix groups ++ label

/-- What an identifier says of the data at a place. -/
def data : Place → String
  | dataSet _ _ row => " " ++ row
  | _ => ""

/-- What an identifier says of a place after the name of the suite, whose class is called
`className`. -/
def text (className : Option String) (place : Place) : String :=
  Identifier.memberPart className (some place.name) ++ place.data

/-- The descriptions at a place have a mark in them: a backtick, or in the label of a test the words
before its data. -/
def IsMarked : Place → Prop
  | suite => False
  | group groups description => ∃ word ∈ description :: groups, '`' ∈ word.toList
  | test groups label | dataSet groups label _ =>
    (∃ word ∈ label :: groups, '`' ∈ word.toList) ∨ dataSetMark <:+: label.toList

/-- One of two places is the suite, and the other one a test outside groups that is described by
nothing. -/
def IsBlank (first second : Place) : Prop :=
  first = suite ∧ second = test [] "" ∨ first = test [] "" ∧ second = suite

/-- The label of a data set is made from a row of data. -/
def IsLabelled : Place → Prop
  | dataSet _ _ row => ∃ values, row = Identifier.rowLabel values
  | _ => True

end Place

/-- Two places in a suite that have one wording. -/
inductive Coincide (className : Option String) (first second : Place) : Prop
  /-- Groups, tests or data sets are registered twice under the same descriptions. -/
  | again (same : first = second)
  /-- A test outside groups that is described by nothing is called like the suite. -/
  | blank (isBlank : first.IsBlank second)
  /-- The class has no name, and then nothing counts but the data. -/
  | nameless (noName : className = some "") (same : first.data = second.data)
  /-- A description has a mark in it, and read with its marks one place says what the other says. -/
  | disguised (marked : first.IsMarked ∨ second.IsMarked)
    (same : first.text className = second.text className)

/-! ### Reading a wording -/

section Cutting

variable {first second rest rest' : List Char}

/-- Where a mark that ends with a character it does not have before is read twice, nothing without
the mark stands between the two. -/
theorem eq_nil_of_mark_again {body between : List Char} {last : Char} (ends : last ∉ body)
    (unmarked : ¬ body ++ [last] <:+: between)
    (same : body ++ last :: rest = between ++ (body ++ last :: rest')) : between = [] := by
  rcases List.append_eq_append_iff.mp same with ⟨more, split, left⟩ | ⟨more, split, left⟩
  · cases more with
    | nil =>
        rw [List.append_nil] at split
        cases body with
        | nil => exact split
        | cons head tail =>
            obtain ⟨rfl, -⟩ := List.cons.inj left
            exact absurd List.mem_cons_self ends
    | cons head tail =>
        obtain ⟨rfl, -⟩ := List.cons.inj left
        exact absurd ⟨[], tail, by simp [split]⟩ unmarked
  · have passed {chars : List Char} (inside : chars ⊆ body) : ∀ c ∈ chars, (c != last) = true :=
      fun c member => bne_iff_ne.mpr fun equal => ends (equal ▸ inside member)
    obtain ⟨whole, -⟩ := append_inj_of_head (passed (List.Subset.refl body))
      (passed (split ▸ List.subset_append_right between more)) (by simp) (by simp) left
    exact List.self_eq_append_left.mp (split.trans (congrArg _ whole.symm))

/-- A text can be cut in one way only at a mark that ends with a character it does not have before,
if neither part before it has the mark. -/
theorem cut_at_mark {body : List Char} {last : Char} (ends : last ∉ body)
    (unmarked : ¬ body ++ [last] <:+: first) (unmarked' : ¬ body ++ [last] <:+: second)
    (same : first ++ (body ++ last :: rest) = second ++ (body ++ last :: rest')) :
    first = second ∧ rest = rest' := by
  have parts : first = second := by
    rcases List.append_eq_append_iff.mp same with ⟨between, longer, left⟩ | ⟨between, longer, left⟩
    · have nothing := eq_nil_of_mark_again ends (fun inside => unmarked' ?_) left
      · rw [longer, nothing, List.append_nil]
      · exact longer ▸ inside.trans (List.suffix_append ..).isInfix
    · have nothing := eq_nil_of_mark_again ends (fun inside => unmarked ?_) left
      · rw [longer, nothing, List.append_nil]
      · exact longer ▸ inside.trans (List.suffix_append ..).isInfix
  subst parts
  exact ⟨rfl, by simpa using same⟩

/-- A label can be told from the data after it, if it does not have the mark before data. -/
theorem cut_at_dataSetMark (unmarked : ¬ dataSetMark <:+: first)
    (unmarked' : ¬ dataSetMark <:+: second)
    (same : first ++ (dataSetMark ++ rest) = second ++ (dataSetMark ++ rest')) :
    first = second ∧ rest = rest' := by
  obtain ⟨body, last, isMark, ends⟩ : ∃ body last, dataSetMark = body ++ [last] ∧ last ∉ body :=
    ⟨" with data set ".toList, '\x22', rfl, by decide⟩
  rw [isMark] at unmarked unmarked' same
  rw [List.append_assoc, List.append_assoc] at same
  exact cut_at_mark ends unmarked unmarked' same

/-- The way of descriptions begins with the first of them between backticks and an arrow. -/
theorem toList_namePrefix_cons (group : String) (groups : List String) :
    (namePrefix (group :: groups)).toList =
      '`' :: (group.toList ++ '`' :: (separator.toList ++ (namePrefix groups).toList)) := by
  have arrow : "` → ".toList = '`' :: separator.toList := by decide
  simp [namePrefix, arrow]

/-- The groups before a name can be read off it, if their descriptions have no backtick and what
comes after them begins with none. -/
theorem cut_after_groups {groups groups' : List String}
    (plain : ∀ group ∈ groups, '`' ∉ group.toList) (plain' : ∀ group ∈ groups', '`' ∉ group.toList)
    (begins : rest.head? ≠ some '`') (begins' : rest'.head? ≠ some '`')
    (same : (namePrefix groups).toList ++ rest = (namePrefix groups').toList ++ rest') :
    groups = groups' ∧ rest = rest' := by
  have none_toList : (namePrefix []).toList = [] := rfl
  induction groups generalizing groups' with
  | nil =>
      cases groups' with
      | nil => exact ⟨rfl, same⟩
      | cons group groups =>
          rw [none_toList, toList_namePrefix_cons] at same
          exact absurd (congrArg List.head? same) begins
  | cons group groups ih =>
      cases groups' with
      | nil =>
          rw [none_toList, toList_namePrefix_cons] at same
          exact absurd (congrArg List.head? same.symm) begins'
      | cons group' groups' =>
          obtain ⟨here, later⟩ := List.forall_mem_cons.mp plain
          obtain ⟨here', later'⟩ := List.forall_mem_cons.mp plain'
          rw [toList_namePrefix_cons, toList_namePrefix_cons] at same
          simp only [List.cons_append, List.append_assoc] at same
          obtain ⟨sameGroup, sameRest⟩ := append_inj_of_head (Text.bne_of_not_mem here)
            (Text.bne_of_not_mem here') (by simp) (by simp) (List.cons.inj same).2
          obtain ⟨sameGroups, sameRest⟩ := ih later later'
            (List.append_cancel_left (List.cons.inj sameRest).2)
          exact ⟨by rw [String.toList_injective sameGroup, sameGroups], sameRest⟩

end Cutting

namespace Place

/-- The descriptions that end with an arrow if one is written after a wording. -/
def path : Place → List String
  | suite => []
  | group groups description => groups ++ [description]
  | test groups _ => groups
  | dataSet groups _ _ => groups

/-- What comes after these descriptions. -/
def rest : Place → List Char
  | suite => separator.toList
  | group _ _ => []
  | test _ label => label.toList ++ separator.toList
  | dataSet _ label row => label.toList ++ (" " ++ row).toList ++ separator.toList

theorem namePrefix_append (groups : List String) (description : String) :
    namePrefix (groups ++ [description]) =
      namePrefix groups ++ ("`" ++ description ++ "`") ++ separator := by
  simp [namePrefix, separator, String.append_assoc]

/-- With an arrow at its end, a wording is the way of descriptions and then what is no description.
-/
theorem wording_eq (place : Place) :
    (place.name ++ place.data).toList ++ separator.toList =
      (namePrefix place.path).toList ++ place.rest := by
  cases place with
  | suite => rfl
  | group groups description =>
      rw [path, namePrefix_append]
      simp [name, data, rest]
  | test groups label => simp [name, data, path, rest]
  | dataSet groups label row => simp [name, data, path, rest]

/-- The label of every row begins with the same words. -/
theorem exists_mark (values : String) :
    ∃ content, (" " ++ Identifier.rowLabel values).toList = dataSetMark ++ content := by
  have keyed : " ".toList ++ "with data set \"dataset \"".toList =
      dataSetMark ++ "dataset \"".toList := by decide
  have unkeyed : " ".toList ++ "with data set \"(".toList = dataSetMark ++ ['('] := by decide
  unfold Identifier.rowLabel
  -- A row is named after its key or after its values.
  split
  · next key _ =>
    refine ⟨"dataset \"".toList ++ (key ++ "\"\"".toList), ?_⟩
    simp only [String.toList_append, String.toList_ofList, List.append_assoc]
    rw [← List.append_assoc, keyed, List.append_assoc]
  · refine ⟨'(' :: (Identifier.rowValues values.toList ++ ")\"".toList), ?_⟩
    simp only [String.toList_append, String.toList_ofList, List.append_assoc]
    rw [← List.append_assoc, unkeyed, List.append_assoc]
    rfl

/-- At a place without marks, no description has a backtick in it, and what follows the descriptions
does not begin with one. -/
theorem plain_of_not_isMarked {place : Place} (unmarked : ¬ place.IsMarked) :
    (∀ group ∈ place.path, '`' ∉ group.toList) ∧ place.rest.head? ≠ some '`' := by
  have begins {label : String} (plain : '`' ∉ label.toList) {more : List Char}
      (blank : more.head? = some ' ') : (label.toList ++ more).head? ≠ some '`' := by
    cases chars : label.toList with
    | nil => simp [blank]
    | cons c _ =>
        rw [chars] at plain
        simpa using fun tick : c = '`' => plain (tick ▸ List.mem_cons_self)
  cases place with
  | suite => exact ⟨by simp [path], by decide⟩
  | group groups description =>
      simp only [IsMarked, not_exists, not_and, List.forall_mem_cons] at unmarked
      exact ⟨by simpa [path, or_imp, forall_and] using unmarked.symm, by simp [rest]⟩
  | test groups label =>
      simp only [IsMarked, not_or, not_exists, not_and, List.forall_mem_cons] at unmarked
      exact ⟨unmarked.1.2, begins unmarked.1.1 rfl⟩
  | dataSet groups label row =>
      simp only [IsMarked, not_or, not_exists, not_and, List.forall_mem_cons] at unmarked
      refine ⟨unmarked.1.2, ?_⟩
      rw [rest, List.append_assoc]
      exact begins unmarked.1.1 (by simp)

section Unmarked

variable {groups : List String} {label label' row row' : String}

/-- A label without a mark is no label with data after it. -/
theorem rest_test_ne_rest_dataSet (unmarked : ¬ (test groups label).IsMarked)
    (labelled : (dataSet groups label' row).IsLabelled) :
    (test groups label).rest ≠ (dataSet groups label' row).rest := by
  obtain ⟨values, rfl⟩ := labelled
  obtain ⟨content, mark⟩ := exists_mark values
  intro same
  have whole := List.append_cancel_right same
  rw [mark] at whole
  exact unmarked (.inr ⟨label'.toList, content, by rw [whole, List.append_assoc]⟩)

/-- Labels without a mark can be told from the data after them. -/
theorem eq_of_rest_dataSet_eq (labelled : (dataSet groups label row).IsLabelled)
    (labelled' : (dataSet groups label' row').IsLabelled)
    (unmarked : ¬ (dataSet groups label row).IsMarked)
    (unmarked' : ¬ (dataSet groups label' row').IsMarked)
    (same : (dataSet groups label row).rest = (dataSet groups label' row').rest) :
    label = label' ∧ row = row' := by
  obtain ⟨values, rfl⟩ := labelled
  obtain ⟨values', rfl⟩ := labelled'
  obtain ⟨content, mark⟩ := exists_mark values
  obtain ⟨content', mark'⟩ := exists_mark values'
  have whole := List.append_cancel_right same
  rw [mark, mark'] at whole
  obtain ⟨labels, contents⟩ := cut_at_dataSetMark (fun inside => unmarked (.inr inside))
    (fun inside => unmarked' (.inr inside)) whole
  have rows : (" " ++ Identifier.rowLabel values).toList =
      (" " ++ Identifier.rowLabel values').toList := by rw [mark, mark', contents]
  exact ⟨String.toList_injective labels,
    (String.append_right_inj _).mp (String.toList_injective rows)⟩

end Unmarked

/-- The suite has no data, so nothing is said of it that is said of a data set. -/
theorem rest_suite_ne_rest_dataSet (groups : List String) (label row : String) :
    suite.rest ≠ (dataSet groups label row).rest := by
  intro same
  have lengths := congrArg List.length same
  simp only [rest, List.length_append, String.toList_append] at lengths
  have blank : " ".toList.length = 1 := by decide
  omega

/-- Only at groups nothing follows the descriptions. -/
theorem rest_ne_nil {place : Place} (noGroup : ∀ groups description, place ≠ group groups description) :
    place.rest ≠ [] := by
  cases place with
  | group groups description => exact absurd rfl (noGroup groups description)
  | suite => decide
  | test groups label => simp [rest, separator]
  | dataSet groups label row => simp [rest]

/-- If neither place has a mark, then equal ways with equal endings make the places equal, or one is
the suite and the other a test described by nothing. -/
theorem eq_or_isBlank_of_rest_eq {first second : Place} (labelled : first.IsLabelled)
    (labelled' : second.IsLabelled) (unmarked : ¬ first.IsMarked) (unmarked' : ¬ second.IsMarked)
    (paths : first.path = second.path) (rests : first.rest = second.rest) :
    first = second ∨ IsBlank first second := by
  -- Without groups and without a label, a test has the ending of the suite.
  have blank {groups : List String} {label : String} (paths : [] = groups)
      (rests : suite.rest = (test groups label).rest) : test groups label = test [] "" := by
    rw [← paths, String.toList_eq_nil_iff.mp (List.self_eq_append_left.mp rests)]
  cases first with
  | group groups description =>
      cases second with
      | group groups' description' =>
          obtain ⟨rfl, same⟩ := List.append_inj' paths rfl
          obtain ⟨rfl, -⟩ := List.cons.inj same
          exact .inl rfl
      | suite => exact absurd rests.symm (rest_ne_nil (by simp))
      | test => exact absurd rests.symm (rest_ne_nil (by simp))
      | dataSet => exact absurd rests.symm (rest_ne_nil (by simp))
  | suite =>
      cases second with
      | suite => exact .inl rfl
      | group => exact absurd rests (rest_ne_nil (by simp))
      | test groups label => exact .inr (.inl ⟨rfl, blank paths rests⟩)
      | dataSet groups label row => exact absurd rests (rest_suite_ne_rest_dataSet groups label row)
  | test groups label =>
      cases second with
      | suite => exact .inr (.inr ⟨blank paths.symm rests.symm, rfl⟩)
      | group => exact absurd rests (rest_ne_nil (by simp))
      | test groups' label' =>
          obtain rfl : groups = groups' := paths
          exact .inl (by rw [String.toList_injective (List.append_cancel_right rests)])
      | dataSet groups' label' row =>
          obtain rfl : groups = groups' := paths
          exact absurd rests (rest_test_ne_rest_dataSet unmarked labelled')
  | dataSet groups label row =>
      cases second with
      | suite => exact absurd rests.symm (rest_suite_ne_rest_dataSet groups label row)
      | group => exact absurd rests (rest_ne_nil (by simp))
      | test groups' label' =>
          obtain rfl : groups = groups' := paths
          exact absurd rests.symm (rest_test_ne_rest_dataSet unmarked' labelled)
      | dataSet groups' label' row' =>
          obtain rfl : groups = groups' := paths
          obtain ⟨rfl, rfl⟩ := eq_of_rest_dataSet_eq labelled labelled' unmarked unmarked' rests
          exact .inl rfl

/-- A place can be read off its wording, unless a description has a mark in it. -/
theorem eq_or_isBlank_of_wording_eq {first second : Place} (labelled : first.IsLabelled)
    (labelled' : second.IsLabelled) (unmarked : ¬ first.IsMarked) (unmarked' : ¬ second.IsMarked)
    (same : first.name ++ first.data = second.name ++ second.data) :
    first = second ∨ IsBlank first second := by
  obtain ⟨plain, begins⟩ := plain_of_not_isMarked unmarked
  obtain ⟨plain', begins'⟩ := plain_of_not_isMarked unmarked'
  obtain ⟨paths, rests⟩ := cut_after_groups plain plain' begins begins' (by
    rw [← wording_eq, ← wording_eq, same])
  exact eq_or_isBlank_of_rest_eq labelled labelled' unmarked unmarked' paths rests

/-- In a class without a name only the data is said. -/
theorem text_nameless (place : Place) : place.text (some "") = place.data := by
  rw [text, Identifier.memberPart]
  exact String.empty_append

theorem head?_data (place : Place) : place.data.toList.head? ≠ some ':' := by
  cases place <;> simp [data]

/-- Without a name, the two colons before it are missing, but no data begins with colons. -/
theorem wording_eq_of_text_eq {first second : Place} {className : String} (named : className ≠ "")
    (same : first.text (some className) = second.text (some className)) :
    first.name ++ first.data = second.name ++ second.data := by
  -- A name that is empty is left out, and the colons in front of it with it.
  have unnamed {place : Place} (empty : place.name = "") :
      place.text (some className) = place.data := by
    have absent : Identifier.present (some "") = none := rfl
    rw [text, empty, Identifier.memberPart, absent]
    cases Identifier.present (some className) <;> exact String.empty_append
  have colons {place place' : Place} (occupied : place.name ≠ "") :
      place.text (some className) ≠ place'.data := by
    intro same
    rw [text, Identifier.memberPart_some named occupied] at same
    refine head?_data place' ?_
    rw [← same]
    simp
  by_cases empty : first.name = ""
  · by_cases empty' : second.name = ""
    · rw [unnamed empty, unnamed empty'] at same
      rw [empty, empty', same]
    · exact absurd (same.symm.trans (unnamed empty)) (colons empty')
  · by_cases empty' : second.name = ""
    · exact absurd (same.trans (unnamed empty')) (colons empty)
    · rw [text, text, Identifier.memberPart_some named empty,
        Identifier.memberPart_some named empty', String.append_assoc, String.append_assoc] at same
      exact (String.append_right_inj _).mp same

end Place

/-- **Which places are worded alike.** An identifier says the same of two places in a suite exactly in
the ways of `Coincide`. -/
theorem text_eq_iff_coincide {first second : Place} {className : String}
    (labelled : first.IsLabelled) (labelled' : second.IsLabelled) :
    first.text (some className) = second.text (some className) ↔
      Coincide (some className) first second := by
  constructor
  · intro same
    by_cases noName : className = ""
    · rw [noName, Place.text_nameless, Place.text_nameless] at same
      exact .nameless (congrArg some noName) same
    by_cases marked : first.IsMarked ∨ second.IsMarked
    · exact .disguised marked same
    obtain ⟨unmarked, unmarked'⟩ := not_or.mp marked
    rcases Place.eq_or_isBlank_of_wording_eq labelled labelled' unmarked unmarked'
      (Place.wording_eq_of_text_eq noName same) with equal | isBlank
    · exact .again equal
    · exact .blank isBlank
  · intro coincide
    cases coincide with
    | again same => rw [same]
    | blank isBlank =>
        rcases isBlank with ⟨isSuite, isTest⟩ | ⟨isTest, isSuite⟩
        · rw [isSuite, isTest]
          rfl
        · rw [isSuite, isTest]
          rfl
    | nameless noName same => rw [noName, Place.text_nameless, Place.text_nameless, same]
    | disguised _ same => exact same

end PhpTestIndex.Pest
