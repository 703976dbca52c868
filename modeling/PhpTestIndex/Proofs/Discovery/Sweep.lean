import PhpTestIndex.Discovery
import PhpTestIndex.Proofs.Session.History

/-! # What a sweep reports

A sweep reads its files one after the other in one session, and its report says of each file what
is said of it when it is read alone in a session with the same root
(`PhpTestIndex.Session.sweep_eq`). So no file has a part in what is said of another one.

A report knows of a skipped file only the reason that is told. No failure of reading, decoding or
parsing is told in the words that are used of a file without tests
(`PhpTestIndex.Disk.Withholds.message_ne_noTests`), so the failures can be told from the reasons.
-/

namespace PhpTestIndex

/-- The path leads to a file that parses. -/
def Disk.Holds (disk : Disk) (path : String) (document : Php.Document) : Prop :=
  ∃ content text, disk.read path = .ok content ∧ String.fromUTF8? content = some text ∧
    Php.Document.read text.toList = .ok document

/-- No document can be had from a path: the file cannot be read, it is not UTF-8, or it does not
parse. -/
inductive Disk.Withholds (disk : Disk) (path : String) : Failure → Prop
  | unread {fault : FileFault} (read : disk.read path = .error fault) :
    Withholds disk path (.fileRead path fault.message)
  | undecoded {content : ByteArray} (read : disk.read path = .ok content)
    (decoded : String.fromUTF8? content = none) : Withholds disk path (.parse path .invalidEncoding)
  | unparsed {content : ByteArray} {text : String} {fault : Php.SyntaxError}
    (read : disk.read path = .ok content) (decoded : String.fromUTF8? content = some text)
    (parsed : Php.Document.read text.toList = .error fault) :
    Withholds disk path (.parse path (.unreadable fault))

/-- What a path leads to is a document, or it is withheld for some failure. -/
theorem Disk.holds_or_withholds (disk : Disk) (path : String) :
    (∃ document, disk.Holds path document) ∨ ∃ failure, disk.Withholds path failure := by
  cases read : disk.read path with
  | error fault => exact .inr ⟨_, .unread read⟩
  | ok content =>
      cases decoded : String.fromUTF8? content with
      | none => exact .inr ⟨_, .undecoded read decoded⟩
      | some text =>
          cases parsed : Php.Document.read text.toList with
          | error fault => exact .inr ⟨_, .unparsed read decoded parsed⟩
          | ok document => exact .inl ⟨document, content, text, read, decoded, parsed⟩

/-- What begins a text begins everything that goes on from it. -/
theorem head?_toList_append {first : Char} {start : String} (begins : start.toList.head? = some first)
    (rest : String) : (start ++ rest).toList.head? = some first := by
  rw [String.toList_append, List.head?_append, begins]
  rfl

/-- The failure for which a document is withheld is never told in the words for a file without
tests. -/
theorem Disk.Withholds.message_ne_noTests {disk : Disk} {path : String} {failure : Failure}
    (withheld : disk.Withholds path failure) : failure.message ≠ noTests := by
  have begins : failure.message.toList.head? = some 'F' := by
    cases withheld with
    | unread =>
        exact head?_toList_append (head?_toList_append (head?_toList_append (by decide) _) _) _
    | undecoded =>
        exact head?_toList_append (head?_toList_append (head?_toList_append (by decide) _) _) _
    | unparsed =>
        exact head?_toList_append (head?_toList_append (head?_toList_append (by decide) _) _) _
  intro same
  rw [same] at begins
  exact absurd begins (by decide)

namespace Session

section Alone

variable (session : Session) (disk : Disk) (path : String)

/-- What a session finds in a document. -/
theorem testsIn_of_holds {document : Php.Document} (holds : disk.Holds path document) :
    session.testsIn disk path =
      .ok (document.forest? (Path.ofLocation disk.directory) session.root path) := by
  obtain ⟨content, text, read, decoded, parsed⟩ := holds
  have result := session.read_result (Path.ofLocation disk.directory) path text.toList
  rw [parsed, Session.read] at result
  simp only [testsIn, parseFile, read, decoded, testsOf, result, Except.map]

/-- A file that withholds its tests for a reason fails with that reason. -/
theorem testsIn_of_withholds {failure : Failure} (withheld : disk.Withholds path failure) :
    session.testsIn disk path = .error failure := by
  cases withheld with
  | unread read => simp only [testsIn, parseFile, read, testsOf]
  | undecoded read decoded => simp only [testsIn, parseFile, read, decoded, testsOf]
  | unparsed read decoded parsed =>
      rename_i content text fault
      have result := session.read_result (Path.ofLocation disk.directory) path text.toList
      rw [parsed, Session.read] at result
      simp only [testsIn, parseFile, read, decoded, testsOf, result, Except.map]

/-- A session fails at a file exactly if the document is withheld. -/
theorem testsIn_eq_error_iff {failure : Failure} :
    session.testsIn disk path = .error failure ↔ disk.Withholds path failure := by
  refine ⟨fun failed => ?_, session.testsIn_of_withholds disk path⟩
  rcases disk.holds_or_withholds path with ⟨document, holds⟩ | ⟨other, withheld⟩
  · rw [session.testsIn_of_holds disk path holds] at failed
    cases failed
  · rw [session.testsIn_of_withholds disk path withheld] at failed
    cases failed
    exact withheld

/-- A session comes to an answer on the tests of a file exactly if there is a document. -/
theorem testsIn_eq_ok_iff {tests : Option (List Definition)} :
    session.testsIn disk path = .ok tests ↔
      ∃ document, disk.Holds path document ∧
        document.forest? (Path.ofLocation disk.directory) session.root path = tests := by
  constructor
  · intro found
    rcases disk.holds_or_withholds path with ⟨document, holds⟩ | ⟨failure, withheld⟩
    · rw [session.testsIn_of_holds disk path holds] at found
      exact ⟨document, holds, Except.ok.inj found⟩
    · rw [session.testsIn_of_withholds disk path withheld] at found
      cases found
  · rintro ⟨document, holds, rfl⟩
    exact session.testsIn_of_holds disk path holds

/-- What a session says of a file depends on its root alone. -/
theorem testsIn_eq_start : session.testsIn disk path = (start session.root).testsIn disk path := by
  rcases disk.holds_or_withholds path with ⟨document, holds⟩ | ⟨failure, withheld⟩
  · exact (session.testsIn_of_holds disk path holds).trans
      ((start session.root).testsIn_of_holds disk path holds).symm
  · exact (session.testsIn_of_withholds disk path withheld).trans
      ((start session.root).testsIn_of_withholds disk path withheld).symm

/-- Reading a file on disk leaves the root as it is. -/
theorem root_parseFile : (session.parseFile disk path).2.root = session.root := by
  unfold parseFile
  split
  · rfl
  · split
    · rfl
    · rename_i text _
      have kept := (session.parse_snd (Path.ofLocation disk.directory) path text.toList).1
      generalize session.parse (Path.ofLocation disk.directory) path text.toList = parsed at kept ⊢
      exact kept

end Alone

end Session

namespace Report

/-- What is reported of a file, given what is said of it when it is read alone. -/
def entry (path : String) : Except Failure (Option (List Definition)) → FoundFile ⊕ SkippedFile
  | .ok (some tests) => .inl ⟨path, tests⟩
  | .ok none => .inr ⟨path, noTests⟩
  | .error failure => .inr ⟨path, failure.message⟩

/-- The report of some entries. -/
def ofEntries (entries : List (FoundFile ⊕ SkippedFile)) : Report :=
  ⟨entries.filterMap Sum.getLeft?, entries.filterMap Sum.getRight?⟩

/-- Every entry is either a file with tests or a skipped one. -/
theorem length_ofEntries (entries : List (FoundFile ⊕ SkippedFile)) :
    (ofEntries entries).files.length + (ofEntries entries).skipped.length = entries.length := by
  induction entries with
  | nil => rfl
  | cons entry rest ih =>
      simp only [ofEntries] at ih ⊢
      cases entry with
      | inl file => simp [List.filterMap_cons]; omega
      | inr file => simp [List.filterMap_cons]; omega

/-- The number of tests is that of the methods in all files. -/
theorem countTests_eq (report : Report) :
    report.countTests =
      (report.files.flatMap fun file => Definition.forestNodes file.tests).countP
        fun node => node.kind = .method := by
  have counted (files : List FoundFile) (count : Nat) :
      files.foldl (fun count file => count + file.countTests) count =
        count + (files.flatMap fun file => Definition.forestNodes file.tests).countP
          fun node => node.kind = .method := by
    induction files generalizing count with
    | nil => rfl
    | cons file rest ih =>
        rw [List.foldl_cons, ih, List.flatMap_cons, List.countP_append, FoundFile.countTests,
          Definition.countMethods, Nat.add_assoc]
  simpa [countTests] using counted report.files 0

end Report

namespace Session

section Sweep

variable (session : Session) (disk : Disk) (paths : List String)

/-- A sweep reports each file as it is reported alone. -/
theorem sweep_eq :
    session.sweep disk paths =
      .ofEntries (paths.map fun path =>
        Report.entry path ((start session.root).testsIn disk path)) := by
  induction paths generalizing session with
  | nil => rfl
  | cons path rest ih =>
      have alone : testsOf path (session.parseFile disk path).1 =
          (start session.root).testsIn disk path := session.testsIn_eq_start disk path
      rw [sweep, List.map_cons]
      simp only [ih, root_parseFile, alone]
      cases (start session.root).testsIn disk path with
      | error failure => rfl
      | ok tests => cases tests <;> rfl

/-- The failures of a sweep are the files that are withheld. -/
theorem failures_sweep :
    (session.sweep disk paths).failures =
      paths.filterMap fun path =>
        match (start session.root).testsIn disk path with
        | .error failure => some ⟨path, failure.message⟩
        | .ok _ => none := by
  rw [sweep_eq]
  rw [Report.failures, Report.ofEntries]
  dsimp only
  rw [List.filterMap_map, ← List.filterMap_eq_filter, List.filterMap_filterMap]
  congr 1
  funext path
  dsimp only [Function.comp]
  cases alone : (start session.root).testsIn disk path with
  | error failure =>
      have other := ((testsIn_eq_error_iff ..).mp alone).message_ne_noTests
      simp [Report.entry, other]
  | ok tests => cases tests <;> simp [Report.entry]

end Sweep

/-- **A sweep accounts for every file, and no file has a part in what is said of another one.** For
every place in the list there is one entry, in order: the file with its tests, or the reason why it
is skipped. The entry is what a session with the same root that has not read anything gives for this
file alone, whatever the other files are: its forest, or the failure for which the document is
withheld. The failures are the files that are withheld, and not those that merely have no tests; the
number of tests is that of the methods in all files. -/
theorem sweep_accounts (session : Session) (disk : Disk) (paths : List String) :
    let alone (path : String) := (start session.root).testsIn disk path
    let report := session.sweep disk paths
    report = .ofEntries (paths.map fun path => Report.entry path (alone path)) ∧
      report.files.length + report.skipped.length = paths.length ∧
      (∀ path tests, alone path = .ok tests ↔
        ∃ document, disk.Holds path document ∧
          document.forest? (Path.ofLocation disk.directory) session.root path = tests) ∧
      (∀ path failure, alone path = .error failure ↔ disk.Withholds path failure) ∧
      report.failures = (paths.filterMap fun path =>
        match alone path with
        | .error failure => some ⟨path, failure.message⟩
        | .ok _ => none) ∧
      report.countTests = (report.files.flatMap fun file =>
        Definition.forestNodes file.tests).countP (fun node => node.kind = .method) ∧
      ∀ (other : Disk) (path : String), other.directory = disk.directory →
        other.read path = disk.read path →
        (start session.root).testsIn other path = alone path := by
  intro alone report
  have entries : report = .ofEntries (paths.map fun path => Report.entry path (alone path)) :=
    session.sweep_eq disk paths
  refine ⟨entries, ?_, fun path tests => ?_, fun path failure => ?_,
    session.failures_sweep disk paths, report.countTests_eq, ?_⟩
  · rw [entries, Report.length_ofEntries, List.length_map]
  · exact (start session.root).testsIn_eq_ok_iff disk path
  · exact (start session.root).testsIn_eq_error_iff disk path
  · intro other path directory content
    simp only [alone, testsIn, parseFile, directory, content]

end Session

end PhpTestIndex
