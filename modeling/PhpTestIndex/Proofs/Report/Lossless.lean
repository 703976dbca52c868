import PhpTestIndex.Proofs.Report.Envelope
import PhpTestIndex.Proofs.Test.Lossless

/-! # Answers read back from JSON

What a search found is read back from JSON as it was (`PhpTestIndex.Report.ofJson?_toJson`), and so
are the tests in an answer for programs. As the text of an answer tells the answer, nothing is lost
on the way from a definition to what the program writes (`PhpTestIndex.Definition.json_lossless`).
-/

namespace PhpTestIndex

/-- Read a list. -/
def Json.list? (read : Json → Option α) : Json → Option (List α)
  | .array items => items.mapM read
  | _ => none

/-- A list is read back item by item. -/
theorem Json.list?_map {write : α → Json} {read : Json → Option α} {values : List α}
    (each : ∀ value ∈ values, read (write value) = some value) :
    list? read (.array (values.map write)) = some values := by
  rw [list?]
  induction values with
  | nil => rfl
  | cons value values ih =>
      have first := each value List.mem_cons_self
      have others := ih fun other member => each other (List.mem_cons_of_mem value member)
      rw [List.map_cons, List.mapM_cons, first, others]
      rfl

namespace FoundFile

/-- Read a file with its tests. -/
def ofJson? (value : Json) : Option FoundFile := do
  let path ← value.required? "path" Json.text?
  let tests ← value.required? "tests" Definition.childrenOfJson?
  some ⟨path, tests⟩

/-- A file with its tests is read back if offsets and depths are words. -/
theorem ofJson?_toJson {file : FoundFile}
    (fits : ∀ node ∈ Definition.forestNodes file.tests, node.FitsWords) :
    ofJson? file.toJson = some file := by
  have path : file.toJson.required? "path" Json.text? = some file.path := rfl
  have tests : file.toJson.required? "tests" Definition.childrenOfJson? = some file.tests :=
    Definition.forestOfJson?_of_fitsWords fits
  rw [ofJson?, path, tests]
  rfl

/-- A file with its tests is written in whole values. -/
theorem whole_toJson (file : FoundFile) : file.toJson.Whole := by
  have tests : (Json.array (Definition.forestToJson file.tests)).Whole :=
    Definition.forestToJson_eq_map file.tests ▸
      Json.whole_array_map fun definition _ => definition.whole_toJson
  exact .object _ (show Json.FieldsWhole _ by simp [tests, Json.Whole.string])

end FoundFile

namespace SkippedFile

/-- Read a file without tests. -/
def ofJson? (value : Json) : Option SkippedFile := do
  let path ← value.required? "path" Json.text?
  let reason ← value.required? "reason" Json.text?
  some ⟨path, reason⟩

theorem ofJson?_toJson (file : SkippedFile) : ofJson? file.toJson = some file :=
  rfl

theorem whole_toJson (file : SkippedFile) : file.toJson.Whole :=
  .object _ (show Json.FieldsWhole _ by simp [Json.Whole.string])

end SkippedFile

namespace Report

/-- Read what a search found. -/
def ofJson? (value : Json) : Option Report := do
  let files ← value.required? "files" (Json.list? FoundFile.ofJson?)
  let skipped ← value.withDefault? "skipped" (Json.list? SkippedFile.ofJson?) []
  some ⟨files, skipped⟩

/-- The offsets and the depths of all nodes are words. -/
def FitsWords (report : Report) : Prop :=
  ∀ file ∈ report.files, ∀ node ∈ Definition.forestNodes file.tests, node.FitsWords

/-- What a search found is read back from JSON. -/
theorem ofJson?_toJson {report : Report} (fits : report.FitsWords) :
    ofJson? report.toJson = some report := by
  have files : report.toJson.required? "files" (Json.list? FoundFile.ofJson?) =
      some report.files :=
    (Json.required?_of_field? report.shownBy_toJson.files).trans
      (Json.list?_map fun file member => FoundFile.ofJson?_toJson (fits file member))
  have skipped : report.toJson.withDefault? "skipped" (Json.list? SkippedFile.ofJson?) [] =
      some report.skipped := by
    obtain ⟨files, skipped⟩ := report
    cases skipped with
    | nil => rfl
    | cons first rest => exact Json.list?_map fun file _ => file.ofJson?_toJson
  rw [ofJson?, files, skipped]
  rfl

/-- A report is written in whole values. -/
theorem whole_toJson (report : Report) : report.toJson.Whole := by
  have files : (Json.array (report.files.map FoundFile.toJson)).Whole :=
    Json.whole_array_map fun file _ => file.whole_toJson
  have skipped : (Json.array (report.skipped.map SkippedFile.toJson)).Whole :=
    Json.whole_array_map fun file _ => file.whole_toJson
  refine .object _ (show Json.FieldsWhole _ from ?_)
  simp [files, Json.fieldsWhole_unless, skipped]

end Report

/-- An answer is written in whole values if its data is. -/
theorem Response.whole_toJson {response : Response}
    (whole : ∀ data ∈ response.data, data.Whole) : response.toJson.Whole := by
  obtain ⟨isSuccess, code, message, data, suggestions, exitCode⟩ := response
  refine .object _ (show Json.FieldsWhole _ from ?_)
  cases data <;> cases suggestions <;>
    simp_all [Json.Whole.string, Json.Whole.number, Json.ofNat, Json.Whole.object,
      Json.whole_strings]

/-- The output of a run tells the answer that it writes, if there is one. -/
theorem Written.Holds.answer_eq {written written' : Written} {answer answer' : Json}
    (holds : written.Holds answer) (holds' : written'.Holds answer')
    (whole : answer.Whole) (whole' : answer'.Whole)
    (answers : written.code = .success ∨ written.code = .notFound)
    (answers' : written'.code = .success ∨ written'.code = .notFound)
    (equal : written.output = written'.output) : answer = answer' := by
  have output := holds.alone
  have output' := holds'.alone
  rw [if_pos answers] at output
  rw [if_pos answers'] at output'
  rw [output, output'] at equal
  have texts := congrArg String.toList equal
  simp only [String.toList_append, List.append_cancel_right_eq, String.toList_inj] at texts
  exact Json.render_inj whole whole' texts

/-- The answer on the tests of a file, and that it is read back. -/
theorem Written.exists_answer_ofTests (path : String) {tests : List Definition}
    (fits : ∀ node ∈ Definition.forestNodes tests, node.FitsWords) :
    ∃ answer : Json, answer.Whole ∧ (ofTests .json path (some tests)).Holds answer ∧
      answer.required? "data" FoundFile.ofJson? = some ⟨path, tests⟩ := by
  obtain ⟨response, holds, carried⟩ := holds_ofTests path (some tests)
  have whole : response.toJson.Whole := Response.whole_toJson fun data member => by
    rw [carried] at member
    exact Option.some.inj member ▸ FoundFile.whole_toJson _
  have data : response.toJson.field? "data" = some (FoundFile.toJson ⟨path, tests⟩) :=
    response.field?_data.trans carried
  exact ⟨_, whole, holds, (Json.required?_of_field? data).trans (FoundFile.ofJson?_toJson fits)⟩

/-- The answer to a search, and that it is read back. -/
theorem Written.exists_answer_ofReport (searched : String) {report : Report}
    (fits : report.FitsWords) :
    ∃ answer : Json, answer.Whole ∧ (ofReport .json report searched).Holds answer ∧
      answer.required? "data" Report.ofJson? = some report := by
  obtain ⟨response, holds, carried⟩ := holds_ofReport report searched
  have whole : response.toJson.Whole := Response.whole_toJson fun data member => by
    rw [carried] at member
    exact Option.some.inj member ▸ report.whole_toJson
  have data : response.toJson.field? "data" = some report.toJson :=
    response.field?_data.trans carried
  exact ⟨_, whole, holds, (Json.required?_of_field? data).trans (Report.ofJson?_toJson fits)⟩

/-- **Nothing is lost in JSON.** A definition is read back from its JSON form as it was, at every
node and whatever is left out there, so no other definition is written as the same text. The same
holds of the tests in the answer on a file, and of the report in the answer to a search. -/
theorem Definition.json_lossless :
    (∀ definition : Definition, (∀ node ∈ definition.nodes, node.FitsWords) →
      ofJson? definition.toJson = some definition ∧
        ∀ other : Definition, (∀ node ∈ other.nodes, node.FitsWords) →
          other.toJson.render = definition.toJson.render → other = definition) ∧
    (∀ path tests, (∀ node ∈ forestNodes tests, node.FitsWords) →
      (∃ answer, (Written.ofTests .json path (some tests)).Holds answer ∧
        answer.required? "data" FoundFile.ofJson? = some ⟨path, tests⟩) ∧
        ∀ path' tests', (∀ node ∈ forestNodes tests', node.FitsWords) →
          (Written.ofTests .json path' (some tests')).output =
            (Written.ofTests .json path (some tests)).output → path' = path ∧ tests' = tests) ∧
    ∀ searched (report : Report), report.FitsWords →
      (∃ answer, (Written.ofReport .json report searched).Holds answer ∧
        answer.required? "data" Report.ofJson? = some report) ∧
        ∀ searched' (report' : Report), report'.FitsWords →
          (Written.ofReport .json report' searched').output =
            (Written.ofReport .json report searched).output → report' = report := by
  refine ⟨fun definition fits => ⟨ofJson?_toJson fits, fun other fits' equal => ?_⟩,
    fun path tests fits => ?_, fun searched report fits => ?_⟩
  · have same : other.toJson = definition.toJson :=
      Json.render_inj other.whole_toJson definition.whole_toJson equal
    have reads := ofJson?_toJson fits'
    rw [same, ofJson?_toJson fits] at reads
    exact (Option.some.inj reads).symm
  · obtain ⟨answer, whole, holds, reads⟩ := Written.exists_answer_ofTests path fits
    refine ⟨⟨answer, holds, reads⟩, fun path' tests' fits' equal => ?_⟩
    obtain ⟨answer', whole', holds', reads'⟩ := Written.exists_answer_ofTests path' fits'
    have same : answer' = answer :=
      holds'.answer_eq holds whole' whole (.inl rfl) (.inl rfl) equal
    rw [same, reads, Option.some.injEq, FoundFile.mk.injEq] at reads'
    exact ⟨reads'.1.symm, reads'.2.symm⟩
  · obtain ⟨answer, whole, holds, reads⟩ := Written.exists_answer_ofReport searched fits
    refine ⟨⟨answer, holds, reads⟩, fun searched' report' fits' equal => ?_⟩
    obtain ⟨answer', whole', holds', reads'⟩ := Written.exists_answer_ofReport searched' fits'
    have ends (report : Report) (searched : String) :
        (Written.ofReport .json report searched).code = .success ∨
          (Written.ofReport .json report searched).code = .notFound := by
      rw [Written.code_ofReport]
      split <;> simp
    have same : answer' = answer :=
      holds'.answer_eq holds whole' whole (ends report' searched') (ends report searched) equal
    rw [same, reads, Option.some.injEq] at reads'
    exact reads'.symm

/-- A class with a test that has a mark and a name in several lines. -/
def markedClass : Definition :=
  ⟨.classSuite, "A\\ATest", "ATest", some "A", some "ATest", none, some "A\\ATest", "a.php",
    ⟨⟨1, 19, 19⟩, ⟨3, 1, 60⟩⟩, 0, .none,
    [⟨.method, "A\\ATest::testA", "first \"line\"\nsecond", some "A", some "ATest", some "testA",
      some "A\\ATest", "a.php", ⟨⟨2, 2, 35⟩, ⟨2, 24, 57⟩⟩, 1,
      { Annotations.none with group := ["slow", ""], skipped := true }, []⟩]⟩

/-- A class with marks goes through both kinds of answers without loss. -/
theorem markedClass_lossless :
    (∀ node ∈ markedClass.nodes, node.FitsWords) ∧
      Definition.ofJson? markedClass.toJson = some markedClass ∧
      (∃ answer, (Written.ofTests .json "a.php" (some [markedClass])).Holds answer ∧
        answer.required? "data" FoundFile.ofJson? = some ⟨"a.php", [markedClass]⟩) ∧
      ∃ answer, (Written.ofReport .json ⟨[⟨"a.php", [markedClass]⟩], []⟩ "tests").Holds answer ∧
        answer.required? "data" Report.ofJson? = some ⟨[⟨"a.php", [markedClass]⟩], []⟩ := by
  have fits : ∀ node ∈ markedClass.nodes, node.FitsWords := by
    intro node member
    simp only [markedClass, Definition.nodes, Definition.forestNodes, List.append_nil,
      List.mem_cons, List.not_mem_nil, or_false] at member
    rcases member with rfl | rfl <;> constructor <;> decide
  have fitsForest : ∀ node ∈ Definition.forestNodes [markedClass], node.FitsWords := by
    rw [Definition.forestNodes_cons, Definition.forestNodes_nil, List.append_nil]
    exact fits
  refine ⟨fits, (Definition.json_lossless.1 markedClass fits).1,
    (Definition.json_lossless.2.1 "a.php" [markedClass] fitsForest).1,
    (Definition.json_lossless.2.2 "tests" ⟨[⟨"a.php", [markedClass]⟩], []⟩ ?_).1⟩
  intro file member
  rw [List.mem_singleton.mp member]
  exact fitsForest

end PhpTestIndex
