import PhpTestIndex.Files.Walk
import PhpTestIndex.Report
import PhpTestIndex.Session
import PhpTestIndex.Settings.Basic

/-! # Discovery

The candidates are the files below the directories to search whose names end as test files do, in
order and each once.  A sweep reads them one after the other in one session: a file with tests is
reported with them, any other with the reason why it has none.

The names and trees are those of `PhpTestIndex.FileTree`, so two filters need not be said: a walk finds
nothing that is neither a file nor a directory, and every name that it finds is Unicode.  On a real disk
a link, a pipe or a file whose name is not Unicode is no candidate.
-/

namespace PhpTestIndex

/-- The file name at the end of a path is that of a test file; a path without a file name is none. -/
def SearchSettings.isTestFile (search : SearchSettings) (path : String) : Bool :=
  match Path.fileName? path with
  | none => false
  | some name => search.suffixes.any fun suffix => suffix.toList.isSuffixOf name.toList

namespace Settings

/-- The test files below a directory; a directory that is missing has none. -/
def candidatesIn (settings : Settings) (disk : Disk) (directory : String) :
    Except Failure (List String) :=
  if disk.isDirectory directory then
    match disk.walk settings.search.ignorePatterns directory with
    | .error fault => .error (.walk directory fault.message)
    | .ok paths => .ok (paths.filter settings.search.isTestFile)
  else .ok []

/-- The test files below some directories. -/
def candidatesInAll (settings : Settings) (disk : Disk) :
    List String → Except Failure (List String)
  | [] => .ok []
  | directory :: rest =>
    match settings.candidatesIn disk directory with
    | .error failure => .error failure
    | .ok paths => (settings.candidatesInAll disk rest).map (paths ++ ·)

/-- The candidates, in order and each once. -/
def candidates (settings : Settings) (disk : Disk) : Except Failure (List String) :=
  (settings.candidatesInAll disk settings.searchedDirectories).map Path.sorted

/-- A session for the tests of the settings. -/
def session (settings : Settings) : Session :=
  Session.start settings.resolvedTestRoot

end Settings

namespace Session

/-- Read a file on disk, which has to be UTF-8, and give the session after it. -/
def parseFile (session : Session) (disk : Disk) (path : String) :
    Except Failure Outcome × Session :=
  match disk.read path with
  | .error fault => (.error (.fileRead path fault.message), session)
  | .ok content =>
    match String.fromUTF8? content with
    | none => (.error (.parse path .invalidEncoding), session)
    | some text =>
      let (outcome, after) := session.parse (Path.ofLocation disk.directory) path text.toList
      (.ok outcome, after)

/-- The tests that a file on disk was found to have, if it was read. -/
def testsOf (path : String) : Except Failure Outcome → Except Failure (Option (List Definition))
  | .error failure => .error failure
  | .ok outcome =>
    match outcome.result with
    | .error fault => .error (.parse path (.unreadable fault))
    | .ok tests => .ok tests

/-- The tests of a file on disk, if it has any. -/
def testsIn (session : Session) (disk : Disk) (path : String) :
    Except Failure (Option (List Definition)) :=
  testsOf path (session.parseFile disk path).1

/-- Read some files one after the other, and report each with its tests or with the reason why it
has none. -/
def sweep (session : Session) (disk : Disk) : List String → Report
  | [] => ⟨[], []⟩
  | path :: rest =>
    let (outcome, after) := session.parseFile disk path
    let report := after.sweep disk rest
    match testsOf path outcome with
    | .ok (some tests) => { report with files := ⟨path, tests⟩ :: report.files }
    | .ok none => { report with skipped := ⟨path, noTests⟩ :: report.skipped }
    | .error failure => { report with skipped := ⟨path, failure.message⟩ :: report.skipped }

end Session

/-- Find the tests below the directories of the settings. -/
def Settings.discover (settings : Settings) (disk : Disk) : Except Failure Report :=
  (settings.candidates disk).map (settings.session.sweep disk)

end PhpTestIndex
