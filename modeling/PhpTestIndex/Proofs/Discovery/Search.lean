import PhpTestIndex.Proofs.Discovery.Sweep
import PhpTestIndex.Proofs.Session.Forests

/-! # When a search finds tests

A search fails exactly if a directory that is there cannot be walked through, and then it says so
(`PhpTestIndex.Settings.exists_candidates_eq_error_iff`). A search that does not fail finds tests
exactly if one of its candidates is a file that declares some
(`PhpTestIndex.Session.files_sweep_eq_nil_iff`).
-/

namespace PhpTestIndex

/-- A path leads to a file that declares a test. -/
def Disk.HoldsTest (disk : Disk) (path : String) : Prop :=
  ∃ document, disk.Holds path document ∧ Session.DeclaresTest document

namespace Session

variable (session : Session) (disk : Disk)

/-- A session finds tests in a file exactly if the file declares one. -/
theorem exists_testsIn_iff (path : String) :
    (∃ forest, session.testsIn disk path = .ok (some forest)) ↔ disk.HoldsTest path := by
  constructor
  · rintro ⟨forest, found⟩
    obtain ⟨document, holds, tests⟩ := (session.testsIn_eq_ok_iff disk path).mp found
    refine ⟨document, holds, ?_⟩
    by_contra noTest
    rw [(forest?_eq_none_iff document _ session.root path).mpr noTest] at tests
    cases tests
  · rintro ⟨document, holds, declares⟩
    have found := session.testsIn_of_holds disk path holds
    cases tests : document.forest? (Path.ofLocation disk.directory) session.root path with
    | none => exact absurd declares ((forest?_eq_none_iff ..).mp tests)
    | some forest => exact ⟨forest, found.trans (by rw [tests])⟩

/-- A file has no tests if and only if it can be read as a program that declares none. -/
theorem testsIn_eq_ok_none_iff (path : String) :
    session.testsIn disk path = .ok none ↔
      ∃ document, disk.Holds path document ∧ ¬ DeclaresTest document := by
  rw [testsIn_eq_ok_iff]
  simp only [forest?_eq_none_iff]

/-- A sweep finds no tests exactly if none of its files declares one. -/
theorem files_sweep_eq_nil_iff (paths : List String) :
    (session.sweep disk paths).files = [] ↔ ∀ path ∈ paths, ¬ disk.HoldsTest path := by
  rw [sweep_eq, Report.ofEntries, List.filterMap_map, List.filterMap_eq_nil_iff]
  apply forall₂_congr
  intro path _
  rw [← exists_testsIn_iff (start session.root), Function.comp]
  cases found : (start session.root).testsIn disk path with
  | error failure => simp [Report.entry]
  | ok tests => cases tests <;> simp [Report.entry]

end Session

namespace Settings

variable (settings : Settings) (disk : Disk)

/-- A directory that is there cannot be walked through. -/
def IsUnwalkable (directory : String) : Prop :=
  disk.isDirectory directory = true ∧
    ∃ fault, disk.walk settings.search.ignorePatterns directory = .error fault

/-- The candidates below a directory cannot be told exactly if it cannot be walked through. -/
theorem exists_candidatesIn_eq_error_iff (directory : String) :
    (∃ failure, settings.candidatesIn disk directory = .error failure) ↔
      settings.IsUnwalkable disk directory := by
  unfold candidatesIn IsUnwalkable
  cases disk.isDirectory directory with
  | false => simp
  | true => cases disk.walk settings.search.ignorePatterns directory <;> simp

/-- A walk that fails ends the program as a fault of the disk does. -/
theorem exitCode_of_candidatesIn {directory : String} {failure : Failure}
    (failed : settings.candidatesIn disk directory = .error failure) :
    failure.exitCode = .ioError := by
  unfold candidatesIn at failed
  split at failed
  · split at failed
    · obtain rfl := Except.error.inj failed
      rfl
    · cases failed
  · cases failed

/-- The failure of a search is that of one of the directories. -/
theorem exists_candidatesIn_of_all {directories : List String} {failure : Failure}
    (failed : settings.candidatesInAll disk directories = .error failure) :
    ∃ directory ∈ directories, settings.candidatesIn disk directory = .error failure := by
  induction directories with
  | nil => cases failed
  | cons first rest ih =>
      rw [candidatesInAll] at failed
      cases found : settings.candidatesIn disk first with
      | error other =>
          rw [found] at failed
          obtain rfl := Except.error.inj failed
          exact ⟨first, List.mem_cons_self, found⟩
      | ok paths =>
          rw [found] at failed
          cases more : settings.candidatesInAll disk rest with
          | error other =>
              rw [more] at failed
              obtain rfl := Except.error.inj failed
              obtain ⟨directory, member, failed⟩ := ih more
              exact ⟨directory, List.mem_cons_of_mem first member, failed⟩
          | ok others =>
              rw [more] at failed
              cases failed

/-- A search among directories one of which cannot be walked through fails. -/
theorem exists_candidatesInAll_eq_error {directories : List String} {directory : String}
    (member : directory ∈ directories) (unwalkable : settings.IsUnwalkable disk directory) :
    ∃ failure, settings.candidatesInAll disk directories = .error failure := by
  obtain ⟨failure, failed⟩ := (settings.exists_candidatesIn_eq_error_iff disk directory).mpr unwalkable
  induction directories with
  | nil => cases member
  | cons first rest ih =>
      rw [candidatesInAll]
      cases found : settings.candidatesIn disk first with
      | error other => exact ⟨other, rfl⟩
      | ok paths =>
          rcases List.mem_cons.mp member with rfl | later
          · rw [failed] at found
            cases found
          · obtain ⟨other, failed⟩ := ih later
            rw [failed]
            exact ⟨other, rfl⟩

/-- The search fails if and only if one of the directories cannot be walked through. -/
theorem exists_candidates_eq_error_iff :
    (∃ failure, settings.candidates disk = .error failure) ↔
      ∃ directory ∈ settings.searchedDirectories, settings.IsUnwalkable disk directory := by
  unfold candidates
  constructor
  · rintro ⟨failure, failed⟩
    cases all : settings.candidatesInAll disk settings.searchedDirectories with
    | error other =>
        obtain ⟨directory, member, failed⟩ := settings.exists_candidatesIn_of_all disk all
        exact ⟨directory, member,
          (settings.exists_candidatesIn_eq_error_iff disk directory).mp ⟨other, failed⟩⟩
    | ok paths =>
        rw [all] at failed
        cases failed
  · rintro ⟨directory, member, unwalkable⟩
    obtain ⟨failure, failed⟩ := settings.exists_candidatesInAll_eq_error disk member unwalkable
    exact ⟨failure, by rw [failed]; rfl⟩

/-- Whichever walk fails, the exit code is the same. -/
theorem exitCode_of_candidates {failure : Failure}
    (failed : settings.candidates disk = .error failure) : failure.exitCode = .ioError := by
  unfold candidates at failed
  cases all : settings.candidatesInAll disk settings.searchedDirectories with
  | error other =>
      rw [all] at failed
      obtain rfl := Except.error.inj failed
      obtain ⟨directory, _, failed⟩ := settings.exists_candidatesIn_of_all disk all
      exact settings.exitCode_of_candidatesIn disk failed
  | ok paths =>
      rw [all] at failed
      cases failed

end Settings

end PhpTestIndex
