import PhpTestIndex.Failure
import PhpTestIndex.Test.Json

/-! # Reports

What the program writes: the definition tree of one file, or of all files that were searched, as
text or as JSON.  An answer goes to the standard output, a failure and what is to be said besides
to the standard error.
-/

namespace PhpTestIndex

/-- A file with its tests. -/
structure FoundFile where
  path : String
  tests : List Definition
deriving Inhabited

/-- A file that gave no tests, and why. -/
structure SkippedFile where
  path : String
  reason : String
deriving DecidableEq, Repr, Inhabited

/-- The reason for leaving out a file that can be read but has no tests. -/
def noTests : String :=
  "no tests found"

/-- What a search found. -/
structure Report where
  files : List FoundFile
  skipped : List SkippedFile
deriving Inhabited

/-- The number of tests in a file. -/
def FoundFile.countTests (file : FoundFile) : Nat :=
  Definition.countMethods file.tests

namespace Report

/-- The number of tests in all files. -/
def countTests (report : Report) : Nat :=
  report.files.foldl (fun count file => count + file.countTests) 0

/-- The files that should have given tests and could not be read. -/
def failures (report : Report) : List SkippedFile :=
  report.skipped.filter fun file => file.reason ≠ noTests

end Report

/-- A text filled up with blanks to a width. -/
def padTo (width : Nat) (text : String) : String :=
  text ++ String.ofList (List.replicate (width - text.length) ' ')

/-- The line of a node in the text of a tree. -/
def Definition.line (definition : Definition) : String :=
  String.ofList (List.replicate (2 * definition.depth) ' ') ++ padTo 9 definition.kind.name ++ " " ++
    definition.label ++ " (line " ++ toString definition.span.start.line.toNat ++ ")" ++
    (if definition.annotations.skipped then " [skipped]" else "") ++
    (if definition.annotations.incomplete then " [incomplete]" else "") ++ "\n"

/-- Some trees as text, a node on a line. -/
def Definition.renderForest (forest : List Definition) : String :=
  String.join ((Definition.forestNodes forest).map Definition.line)

/-- A file with its tests as text. -/
def FoundFile.render (file : FoundFile) : String :=
  file.path ++ " (" ++ toString file.countTests ++ " tests)\n" ++
    Definition.renderForest file.tests

/-- A file with its tests as JSON. -/
def FoundFile.toJson (file : FoundFile) : Json :=
  .object [("path", .string file.path), ("tests", .array (Definition.forestToJson file.tests))]

/-- A file without tests as JSON. -/
def SkippedFile.toJson (file : SkippedFile) : Json :=
  .object [("path", .string file.path), ("reason", .string file.reason)]

/-- What a search found as JSON. -/
def Report.toJson (report : Report) : Json :=
  .object (
    [("files", .array (report.files.map FoundFile.toJson))] ++
    (if report.skipped.isEmpty then []
      else [("skipped", .array (report.skipped.map SkippedFile.toJson))]))

/-- An answer for programs. -/
structure Response where
  isSuccess : Bool
  code : String
  message : String
  data : Option Json
  suggestions : Option (List String)
  exitCode : ExitCode

namespace Response

/-- The answer to a request that succeeds. -/
def success (data : Json) : Response :=
  ⟨true, "OK", "Operation completed successfully", some data, none, .success⟩

/-- What is said when there are no tests. -/
def notFoundMessage (place : String) : String :=
  "No tests found in " ++ place

/-- The answer when there are no tests. -/
def notFound (place : String) : Response :=
  ⟨false, "NOT_FOUND", notFoundMessage place, none,
    some ["Check that the file declares a TestCase subclass or Pest tests"], .notFound⟩

/-- The answer to a request that fails. -/
def ofFailure (failure : Failure) : Response :=
  ⟨false, failure.code, failure.message, none, some failure.suggestions, failure.exitCode⟩

/-- An answer as JSON. -/
def toJson (response : Response) : Json :=
  .object (
    [("status", .string (if response.isSuccess then "success" else "error")),
      ("code", .string response.code), ("message", .string response.message)] ++
    (match response.data with
      | none => []
      | some data => [("data", data)]) ++
    (match response.suggestions with
      | none => []
      | some suggestions =>
        [("error", Json.object [("suggestions", Json.strings suggestions)])]) ++
    [("exit_code", .ofNat response.exitCode.number)])

/-- How an answer is written. -/
def render (response : Response) : String :=
  response.toJson.render ++ "\n"

end Response

/-- What a run of the program writes, and its exit code. -/
structure Written where
  code : ExitCode
  output : String
  errors : String
deriving DecidableEq, Repr

/-- How answers are written. -/
inductive Format
  | text
  | json
deriving DecidableEq, Repr

namespace Written

/-- The answer to a request for the tests of one file. -/
def ofTests (format : Format) (path : String) (tests : Option (List Definition)) : Written :=
  match tests, format with
  | none, .json => ⟨.notFound, (Response.notFound path).render, ""⟩
  | none, .text => ⟨.notFound, "", Response.notFoundMessage path ++ "\n"⟩
  | some tests, .json => ⟨.success, (Response.success (FoundFile.toJson ⟨path, tests⟩)).render, ""⟩
  | some tests, .text => ⟨.success, FoundFile.render ⟨path, tests⟩, ""⟩

/-- The lines on the files that could not be read. -/
def skippedLines (report : Report) : String :=
  String.join (report.failures.map fun file =>
    "Skipped " ++ file.path ++ ": " ++ file.reason ++ "\n")

/-- The answer to a search under `searched`. -/
def ofReport (format : Format) (report : Report) (searched : String) : Written :=
  let code : ExitCode := if report.files.isEmpty then .notFound else .success
  match format with
  | .json =>
    let response :=
      if report.files.isEmpty then
        { Response.notFound searched with data := some report.toJson }
      else Response.success report.toJson
    ⟨code, response.render, ""⟩
  | .text =>
    if report.files.isEmpty then
      ⟨code, "", Response.notFoundMessage searched ++ "\n" ++ skippedLines report⟩
    else
      ⟨code,
        String.join (report.files.map fun file => file.render ++ "\n") ++
          toString report.countTests ++ " test(s) in " ++ toString report.files.length ++
          " file(s) under " ++ searched ++ "\n",
        skippedLines report⟩

/-- The answer to a request that fails. -/
def ofFailure (format : Format) (failure : Failure) : Written :=
  match format with
  | .json => ⟨failure.exitCode, "", (Response.ofFailure failure).render⟩
  | .text =>
    ⟨failure.exitCode, "",
      "Error: " ++ failure.message ++ "\n" ++
        String.join (failure.suggestions.map fun suggestion =>
          "  Suggestion: " ++ suggestion ++ "\n")⟩

end Written

end PhpTestIndex
