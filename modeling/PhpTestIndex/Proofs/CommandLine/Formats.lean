import PhpTestIndex.Proofs.CommandLine.Requests
import PhpTestIndex.Proofs.Discovery.Search
import PhpTestIndex.Proofs.Report.Envelope

/-! # Answers in both formats

A question for tests ends with the same exit code whether it is answered as text or as JSON, and the
exit code follows from the settings and the files alone (`PhpTestIndex.Request.Deserves`). Answered
as JSON, it is answered by one object, which tells this exit code and carries the whole report. The
program answers as JSON exactly if `--json` stands among its arguments as an option, so adding or
leaving out this option changes nothing else (`PhpTestIndex.Request.formats_agree`).
-/

namespace PhpTestIndex

/-- The answer carries what is found under some settings: the tests of the file if it has any, or the
whole report of the search, whether it has tests or not. -/
def Question.CarriedBy (disk : Disk) (settings : Settings) (answer : Json) : Question → Prop
  | inFile path => ∀ tests, settings.session.testsIn disk path = .ok tests →
    answer.field? "data" = tests.map fun tests => FoundFile.toJson ⟨path, tests⟩
  | below _ => ∀ report, settings.discover disk = .ok report →
    ∃ data, answer.field? "data" = some data ∧ report.ShownBy data

namespace Request

/-- The settings with what a request and a question say themselves. -/
def adjust (request : Request) (question : Question) (settings : Settings) : Settings :=
  { settings with
    debug := request.debug || settings.debug
    testRoot := request.root.getD settings.testRoot
    search := match question with
      | .below (some directory) => { settings.search with directories := [directory] }
      | _ => settings.search }

/-- The settings for a question: those of the files and the environment, adjusted. -/
def settingsFor (request : Request) (question : Question) (disk : Disk)
    (environment : List (String × String)) : Except SettingsFault Settings :=
  let loaded := match request.config with
    | none => Settings.load disk environment
    | some path => Settings.loadFrom disk environment path
  loaded.map (request.adjust question)

/-- The exit code that a question deserves. -/
inductive Deserves (request : Request) (disk : Disk) (environment : List (String × String)) :
    Question → ExitCode → Prop
  /-- The settings cannot be loaded. -/
  | unsettled {question : Question} {fault : SettingsFault}
    (settled : request.settingsFor question disk environment = .error fault) :
    Deserves request disk environment question .configError
  /-- The file cannot be read. -/
  | unread {settings : Settings} {path : String} {fault : FileFault}
    (settled : request.settingsFor (.inFile path) disk environment = .ok settings)
    (read : disk.read path = .error fault) :
    Deserves request disk environment (.inFile path) .ioError
  /-- The file is not UTF-8. -/
  | undecoded {settings : Settings} {path : String} {content : ByteArray}
    (settled : request.settingsFor (.inFile path) disk environment = .ok settings)
    (read : disk.read path = .ok content) (decoded : String.fromUTF8? content = none) :
    Deserves request disk environment (.inFile path) .parseError
  /-- The file does not parse. -/
  | unparsed {settings : Settings} {path : String} {content : ByteArray} {text : String}
    {fault : Php.SyntaxError}
    (settled : request.settingsFor (.inFile path) disk environment = .ok settings)
    (read : disk.read path = .ok content) (decoded : String.fromUTF8? content = some text)
    (parsed : Php.Document.read text.toList = .error fault) :
    Deserves request disk environment (.inFile path) .parseError
  /-- The file declares a test. -/
  | foundIn {settings : Settings} {path : String} {document : Php.Document}
    (settled : request.settingsFor (.inFile path) disk environment = .ok settings)
    (holds : disk.Holds path document) (declares : Session.DeclaresTest document) :
    Deserves request disk environment (.inFile path) .success
  /-- The file parses and declares no test. -/
  | noneIn {settings : Settings} {path : String} {document : Php.Document}
    (settled : request.settingsFor (.inFile path) disk environment = .ok settings)
    (holds : disk.Holds path document) (declaresNone : ¬ Session.DeclaresTest document) :
    Deserves request disk environment (.inFile path) .notFound
  /-- A directory to search cannot be walked through. -/
  | unwalkable {settings : Settings} {below : Option String} {directory : String}
    (settled : request.settingsFor (.below below) disk environment = .ok settings)
    (searched : directory ∈ settings.searchedDirectories)
    (isUnwalkable : settings.IsUnwalkable disk directory) :
    Deserves request disk environment (.below below) .ioError
  /-- A candidate declares a test. -/
  | foundBelow {settings : Settings} {below : Option String} {paths : List String} {path : String}
    (settled : request.settingsFor (.below below) disk environment = .ok settings)
    (candidates : settings.candidates disk = .ok paths) (candidate : path ∈ paths)
    (holds : disk.HoldsTest path) :
    Deserves request disk environment (.below below) .success
  /-- No candidate declares a test. -/
  | noneBelow {settings : Settings} {below : Option String} {paths : List String}
    (settled : request.settingsFor (.below below) disk environment = .ok settings)
    (candidates : settings.candidates disk = .ok paths)
    (holdsNone : ∀ path ∈ paths, ¬ disk.HoldsTest path) :
    Deserves request disk environment (.below below) .notFound

section Answers

variable (request : Request) (disk : Disk) (environment : List (String × String))
  (format : Format)

/-- The settings for a question do not depend on the format. -/
theorem settings_asking (question : Question) :
    (request.asking question format).settings disk environment =
      match request.settingsFor question disk environment with
      | .error fault => .error (.config fault.message)
      | .ok settings => .ok settings := by
  have settled (loaded : Except SettingsFault Settings) :
      (match loaded with
        | .error fault => .error (.config fault.message)
        | .ok settings => .ok (request.adjust question settings)) =
      (match loaded.map (request.adjust question) with
        | .error fault => .error (.config fault.message)
        | .ok settings => .ok settings : Except Failure Settings) := by
    cases loaded <;> rfl
  obtain ⟨config, root, debug, command⟩ := request
  rcases question with path | _ | directory <;> cases config <;> exact settled _

theorem format_asking (question : Question) : (request.asking question format).format = format := by
  cases question <;> rfl

variable {request disk environment}

/-- If the settings cannot be loaded, the answer is that failure in the format of the request. -/
theorem run_of_unsettled {question : Question} {fault : SettingsFault}
    (settled : request.settingsFor question disk environment = .error fault) :
    ((request.asking question format).run disk environment).1 =
      .ofFailure format (.config fault.message) := by
  rw [run, settings_asking, settled]
  simp only [refuse, format_asking]

/-- How a question on a file is answered. -/
theorem run_inFile {settings : Settings} {path : String}
    (settled : request.settingsFor (.inFile path) disk environment = .ok settings) :
    ((request.asking (.inFile path) format).run disk environment).1 =
      match settings.session.testsIn disk path with
      | .error failure => .ofFailure format failure
      | .ok tests => .ofTests format path tests := by
  rw [run, settings_asking, settled]
  simp only [answer, asking, Question.command]
  cases settings.session.testsIn disk path <;> rfl

/-- How a search is answered. -/
theorem run_below {settings : Settings} {directory : Option String}
    (settled : request.settingsFor (.below directory) disk environment = .ok settings) :
    ((request.asking (.below directory) format).run disk environment).1 =
      match settings.discover disk with
      | .error failure => .ofFailure format failure
      | .ok report => .ofReport format report (Text.join ", " settings.search.directories) := by
  rw [run, settings_asking, settled]
  simp only [answer, asking, Question.command]
  cases settings.discover disk <;> rfl

/-- A question on a file that is withheld ends with the code of what withholds it. -/
theorem code_of_withholds {settings : Settings} {path : String} {failure : Failure}
    (settled : request.settingsFor (.inFile path) disk environment = .ok settings)
    (withheld : disk.Withholds path failure) :
    ((request.asking (.inFile path) format).run disk environment).1.code = failure.exitCode := by
  rw [run_inFile format settled, settings.session.testsIn_of_withholds disk path withheld,
    Written.code_ofFailure]

/-- A search through candidates ends with success if a file with tests is found, and else with the
code for that. -/
theorem code_of_candidates {settings : Settings} {below : Option String} {paths : List String}
    (settled : request.settingsFor (.below below) disk environment = .ok settings)
    (candidates : settings.candidates disk = .ok paths) :
    ((request.asking (.below below) format).run disk environment).1.code =
      if (settings.session.sweep disk paths).files.isEmpty then .notFound else .success := by
  rw [run_below format settled, Settings.discover, candidates, Except.map, Written.code_ofReport]

/-- A question ends with the exit code that it deserves, in either format. -/
theorem code_of_deserves {question : Question} {code : ExitCode}
    (deserves : request.Deserves disk environment question code) :
    ((request.asking question format).run disk environment).1.code = code := by
  cases deserves with
  | unsettled settled => rw [run_of_unsettled format settled, Written.code_ofFailure]; rfl
  | unread settled read => exact code_of_withholds format settled (.unread read)
  | undecoded settled read decoded =>
      exact code_of_withholds format settled (.undecoded read decoded)
  | unparsed settled read decoded parsed =>
      exact code_of_withholds format settled (.unparsed read decoded parsed)
  | @foundIn settings path document settled holds declares =>
      obtain ⟨forest, found⟩ :=
        (settings.session.exists_testsIn_iff disk path).mpr ⟨document, holds, declares⟩
      rw [run_inFile format settled, found, Written.code_ofTests]
      rfl
  | @noneIn settings path document settled holds declaresNone =>
      have found :=
        (settings.session.testsIn_eq_ok_none_iff disk path).mpr ⟨document, holds, declaresNone⟩
      rw [run_inFile format settled, found, Written.code_ofTests]
      rfl
  | @unwalkable settings below directory settled searched isUnwalkable =>
      obtain ⟨failure, failed⟩ :=
        (settings.exists_candidates_eq_error_iff disk).mpr ⟨directory, searched, isUnwalkable⟩
      rw [run_below format settled, Settings.discover, failed, Except.map, Written.code_ofFailure]
      exact settings.exitCode_of_candidates disk failed
  | @foundBelow settings below paths path settled candidates candidate holds =>
      have found : (settings.session.sweep disk paths).files ≠ [] := by
        intro none
        exact (settings.session.files_sweep_eq_nil_iff disk paths).mp none path candidate holds
      rw [code_of_candidates format settled candidates, if_neg (by simpa using found)]
  | @noneBelow settings below paths settled candidates holdsNone =>
      have none := (settings.session.files_sweep_eq_nil_iff disk paths).mpr holdsNone
      rw [code_of_candidates format settled candidates, if_pos (by simpa using none)]

variable (request disk environment)

/-- Every question deserves some exit code. -/
theorem exists_deserves (question : Question) :
    ∃ code, request.Deserves disk environment question code := by
  cases settled : request.settingsFor question disk environment with
  | error fault => exact ⟨_, .unsettled settled⟩
  | ok settings =>
      cases question with
      | inFile path =>
          rcases disk.holds_or_withholds path with ⟨document, holds⟩ | ⟨failure, withheld⟩
          · by_cases declares : Session.DeclaresTest document
            · exact ⟨_, .foundIn settled holds declares⟩
            · exact ⟨_, .noneIn settled holds declares⟩
          · cases withheld with
            | unread read => exact ⟨_, .unread settled read⟩
            | undecoded read decoded => exact ⟨_, .undecoded settled read decoded⟩
            | unparsed read decoded parsed => exact ⟨_, .unparsed settled read decoded parsed⟩
      | below directory =>
          cases candidates : settings.candidates disk with
          | error failure =>
              obtain ⟨directory, searched, isUnwalkable⟩ :=
                (settings.exists_candidates_eq_error_iff disk).mp ⟨failure, candidates⟩
              exact ⟨_, .unwalkable settled searched isUnwalkable⟩
          | ok paths =>
              by_cases holds : ∃ path ∈ paths, disk.HoldsTest path
              · obtain ⟨path, candidate, holds⟩ := holds
                exact ⟨_, .foundBelow settled candidates candidate holds⟩
              · refine ⟨_, .noneBelow settled candidates ?_⟩
                intro path candidate holdsTest
                exact holds ⟨path, candidate, holdsTest⟩

/-- A question ends with an exit code exactly if it deserves it. -/
theorem code_eq_iff (question : Question) (code : ExitCode) :
    ((request.asking question format).run disk environment).1.code = code ↔
      request.Deserves disk environment question code := by
  obtain ⟨deserved, deserves⟩ := request.exists_deserves disk environment question
  refine ⟨?_, code_of_deserves format⟩
  rintro rfl
  rw [code_of_deserves format deserves]
  exact deserves

/-- Answered as JSON, a question is answered by one object, which carries what was found. -/
theorem exists_answer (question : Question) :
    ∃ answer, ((request.asking question .json).run disk environment).1.Holds answer ∧
      ∀ settings, request.settingsFor question disk environment = .ok settings →
        question.CarriedBy disk settings answer := by
  cases settled : request.settingsFor question disk environment with
  | error fault =>
      rw [run_of_unsettled .json settled]
      exact ⟨_, Written.holds_ofFailure _, nofun⟩
  | ok settings =>
      suffices answered : ∃ answer,
          ((request.asking question .json).run disk environment).1.Holds answer ∧
            question.CarriedBy disk settings answer by
        obtain ⟨answer, holds, carried⟩ := answered
        exact ⟨answer, holds, fun _ same => Except.ok.inj same ▸ carried⟩
      cases question with
      | inFile path =>
          rw [run_inFile .json settled]
          cases found : settings.session.testsIn disk path with
          | error failure =>
              refine ⟨_, Written.holds_ofFailure failure, fun tests answered => ?_⟩
              rw [found] at answered
              cases answered
          | ok tests =>
              obtain ⟨response, holds, data⟩ := Written.holds_ofTests path tests
              refine ⟨response.toJson, holds, fun _ answered => ?_⟩
              rw [found] at answered
              exact Except.ok.inj answered ▸ response.field?_data.trans data
      | below directory =>
          rw [run_below .json settled]
          cases found : settings.discover disk with
          | error failure =>
              refine ⟨_, Written.holds_ofFailure failure, fun report answered => ?_⟩
              rw [found] at answered
              cases answered
          | ok report =>
              obtain ⟨response, holds, data⟩ :=
                Written.holds_ofReport report (Text.join ", " settings.search.directories)
              refine ⟨response.toJson, holds, fun _ answered => ?_⟩
              rw [found] at answered
              exact Except.ok.inj answered ▸
                ⟨_, response.field?_data.trans data, report.shownBy_toJson⟩

/-- A question ends with the same exit code in both formats. -/
theorem code_asking_eq (question : Question) :
    ((request.asking question .text).run disk environment).1.code =
      ((request.asking question .json).run disk environment).1.code := by
  rw [request.code_eq_iff disk environment .text question,
    ← request.code_eq_iff disk environment .json question]

end Answers

/-- **Both formats agree.** Every question that the arguments of the program ask without `--json` can
be asked with it, and the other way around.

Whatever the files, the environment and the settings are, and wherever `--json` stands, the program
ends with the same exit code with it and without it, and it is the one that the question deserves. With
`--json`, one object is written and nothing else: it tells the exit code and whether tests were found,
and it carries all that was found. -/
theorem formats_agree (disk : Disk) (environment : List (String × String)) :
    (∀ arguments (request : Request) (question : Question) format,
      Request.read arguments = .ok (request.asking question format) →
        match format with
        | .text => ∃ withJson, Arguments.AddsJson arguments withJson ∧
            Request.read withJson = .ok (request.asking question .json)
        | .json => ∃ plain, Arguments.AddsJson plain arguments ∧
            Request.read plain = .ok (request.asking question .text)) ∧
    ∀ plain withJson json, Arguments.AddsJson plain withJson → Request.read withJson = .ok json →
      ∃ question : Question, json = json.asking question .json ∧
        Request.read plain = .ok (json.asking question .text) ∧
        let written := (runProgram withJson disk environment).1
        (runProgram plain disk environment).1.code = written.code ∧
          (∀ code, written.code = code ↔ json.Deserves disk environment question code) ∧
          ∃ answer, written.Holds answer ∧
            ∀ settings, json.settingsFor question disk environment = .ok settings →
              question.CarriedBy disk settings answer := by
  refine ⟨fun arguments request question format asked => ?_, fun plain withJson json adds asked => ?_⟩
  · cases format with
    | text => exact exists_withJson asked
    | json => exact exists_plain asked
  · obtain ⟨question, isQuestion, askedToo⟩ := read_of_addsJson adds asked
    refine ⟨question, isQuestion, askedToo, ?_⟩
    rw [isQuestion] at asked
    simp only [runProgram, asked, askedToo]
    exact ⟨json.code_asking_eq disk environment question,
      json.code_eq_iff disk environment .json question, json.exists_answer disk environment question⟩

/-- A file with a test in the directory `/srv`, which is the current one. -/
def testDisk : Disk :=
  ⟨.directory [("srv", .directory [
    ("ATest.php", .file "<?php class ATest{function testA(){}}".toUTF8)])], ["srv"]⟩

/-- The option may stand between the name of the command and the file. -/
theorem parse_succeeds_inBothFormats :
    Arguments.AddsJson ["--debug", "parse", "ATest.php"] ["--debug", "parse", "--json", "ATest.php"] ∧
      Request.read ["--debug", "parse", "--json", "ATest.php"] =
        .ok ⟨none, none, true, .parse "ATest.php" .json⟩ ∧
      (runProgram ["--debug", "parse", "--json", "ATest.php"] testDisk []).1.code = .success ∧
      (runProgram ["--debug", "parse", "ATest.php"] testDisk []).1.code = .success := by
  have adds : Arguments.AddsJson ["--debug", "parse", "ATest.php"]
      ["--debug", "parse", "--json", "ATest.php"] :=
    .intro ["--debug", "parse"] ["ATest.php"] (by decide)
  have asked : Request.read ["--debug", "parse", "--json", "ATest.php"] =
      .ok ⟨none, none, true, .parse "ATest.php" .json⟩ := by decide +kernel
  have succeeds : (runProgram ["--debug", "parse", "--json", "ATest.php"] testDisk []).1.code =
      .success := by decide +kernel
  obtain ⟨-, -, -, same, -⟩ := (formats_agree testDisk []).2 _ _ _ adds asked
  exact ⟨adds, asked, succeeds, same.trans succeeds⟩

end Request

end PhpTestIndex
