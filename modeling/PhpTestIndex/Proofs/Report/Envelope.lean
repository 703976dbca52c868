import PhpTestIndex.Report

/-! # Answers for programs

An answer as JSON is one object: it tells whether the request succeeded and with which exit code the
program ends, and it carries what was found (`PhpTestIndex.Written.Holds`). An answer stands on the
standard output, the answer to a request that fails on the standard error, and nothing stands beside
it.
-/

namespace PhpTestIndex

namespace Response

variable (response : Response)

theorem field?_status :
    response.toJson.field? "status" =
      some (.string (if response.isSuccess then "success" else "error")) :=
  rfl

/-- The data of an answer is there if the answer has data. -/
theorem field?_data : response.toJson.field? "data" = response.data := by
  obtain ⟨isSuccess, code, message, data, suggestions, exitCode⟩ := response
  cases data with
  | some data => rfl
  | none => cases suggestions <;> rfl

/-- An answer in JSON carries the number of the exit code. -/
theorem field?_exitCode :
    response.toJson.field? "exit_code" = some (.ofNat response.exitCode.number) := by
  obtain ⟨isSuccess, code, message, data, suggestions, exitCode⟩ := response
  cases data <;> cases suggestions <;> rfl

end Response

/-- The JSON value shows a report with all its files, those with tests and those that were
skipped. -/
structure Report.ShownBy (report : Report) (data : Json) : Prop where
  files : data.field? "files" = some (.array (report.files.map FoundFile.toJson))
  skipped : (data.field? "skipped").getD (.array []) =
    .array (report.skipped.map SkippedFile.toJson)

/-- The object of a report shows its files, and those that were passed over if there are any. -/
theorem Report.shownBy_toJson (report : Report) : report.ShownBy report.toJson := by
  obtain ⟨files, skipped⟩ := report
  cases skipped with
  | nil => exact ⟨rfl, rfl⟩
  | cons first rest => exact ⟨rfl, rfl⟩

/-- A run of the program writes an answer for programs and nothing else: an answer to the standard
output, a failure to the standard error.  The answer tells the exit code, and success exactly if the
program ends with it. -/
structure Written.Holds (written : Written) (answer : Json) : Prop where
  alone : written =
    if written.code = .success ∨ written.code = .notFound then
      ⟨written.code, answer.render ++ "\n", ""⟩
    else ⟨written.code, "", answer.render ++ "\n"⟩
  exitCode : answer.field? "exit_code" = some (.ofNat written.code.number)
  status : answer.field? "status" =
    some (.string (if written.code = .success then "success" else "error"))

theorem Failure.exitCode_ne (failure : Failure) :
    failure.exitCode ≠ .success ∧ failure.exitCode ≠ .notFound := by
  cases failure <;> exact ⟨nofun, nofun⟩

namespace Written

/-- What is written for a failure holds the answer for the failure and nothing beside it. -/
theorem holds_ofFailure (failure : Failure) :
    (ofFailure .json failure).Holds (Response.ofFailure failure).toJson where
  alone := by
    obtain ⟨noSuccess, found⟩ := failure.exitCode_ne
    simp [ofFailure, Response.render, noSuccess, found]
  exitCode := (Response.ofFailure failure).field?_exitCode
  status := by
    obtain ⟨noSuccess, _⟩ := failure.exitCode_ne
    simp [Response.field?_status, Response.ofFailure, ofFailure, noSuccess]

/-- What is written when nothing was found holds an answer without success. -/
theorem holds_notFound (response : Response) (isSuccess : response.isSuccess = false)
    (exitCode : response.exitCode = .notFound) :
    (Written.mk .notFound response.render "").Holds response.toJson where
  alone := by simp [Response.render]
  exitCode := by rw [Response.field?_exitCode, exitCode]
  status := by simp [Response.field?_status, isSuccess]

/-- What is written for some data holds the answer with that data. -/
theorem holds_success (data : Json) :
    (Written.mk .success (Response.success data).render "").Holds
      (Response.success data).toJson where
  alone := by simp [Response.render]
  exitCode := (Response.success data).field?_exitCode
  status := by simp [Response.field?_status, Response.success]

/-- The answer on the tests of a file carries them. -/
theorem holds_ofTests (path : String) (tests : Option (List Definition)) :
    ∃ response : Response, (ofTests .json path tests).Holds response.toJson ∧
      response.data = tests.map fun tests => FoundFile.toJson ⟨path, tests⟩ := by
  cases tests with
  | none => exact ⟨_, holds_notFound (Response.notFound path) rfl rfl, rfl⟩
  | some tests => exact ⟨_, holds_success _, rfl⟩

/-- The answer to a search carries the whole report, whether it has tests or not. -/
theorem holds_ofReport (report : Report) (searched : String) :
    ∃ response : Response, (ofReport .json report searched).Holds response.toJson ∧
      response.data = some report.toJson := by
  unfold ofReport
  by_cases empty : report.files.isEmpty
  · simp only [empty, ↓reduceIte]
    exact ⟨_, holds_notFound _ rfl rfl, rfl⟩
  · simp only [empty, Bool.false_eq_true, ↓reduceIte]
    exact ⟨_, holds_success _, rfl⟩

/-- The exit code does not depend on how the answer is written. -/
theorem code_ofTests (format : Format) (path : String) (tests : Option (List Definition)) :
    (ofTests format path tests).code = if tests.isSome then .success else .notFound := by
  cases tests <;> cases format <;> rfl

/-- A report ends with the code of a success unless no file is in it. -/
theorem code_ofReport (format : Format) (report : Report) (searched : String) :
    (ofReport format report searched).code =
      if report.files.isEmpty then .notFound else .success := by
  unfold ofReport
  cases format with
  | json => rfl
  | text => cases report.files.isEmpty <;> rfl

/-- What is written for a failure ends with the code of the failure, in both formats. -/
theorem code_ofFailure (format : Format) (failure : Failure) :
    (ofFailure format failure).code = failure.exitCode := by
  cases format <;> rfl

end Written

end PhpTestIndex
