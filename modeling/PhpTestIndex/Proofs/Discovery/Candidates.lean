import PhpTestIndex.Proofs.Discovery.Search
import PhpTestIndex.Proofs.Path.Order

/-! # Candidates as an ordered set

The candidates of a search stand in the order of paths, each once, and they are what the walks
yield of files that are named as test files are. So neither the order nor the number of times in
which directories and suffixes are listed counts
(`PhpTestIndex.Settings.candidates_orderedSet`). Paths count as one if they take the same steps.
-/

namespace PhpTestIndex

/-- The file name at the end of a path ends as those of test files do. -/
def SearchSettings.NamesTestFile (search : SearchSettings) (path : String) : Prop :=
  ∃ name, Path.fileName? path = some name ∧
    ∃ suffix ∈ search.suffixes, suffix.toList <:+ name.toList

/-- A path is taken for a test file if its file name ends in one of the suffixes. -/
theorem SearchSettings.isTestFile_iff (search : SearchSettings) (path : String) :
    search.isTestFile path = true ↔ search.NamesTestFile path := by
  unfold isTestFile NamesTestFile
  cases Path.fileName? path with
  | none => simp
  | some name => simp

namespace Settings

/-- The walk through one of the directories to search yields a path, and it is that of a test
file. -/
def Yields (settings : Settings) (disk : Disk) (path : String) : Prop :=
  ∃ directory ∈ settings.searchedDirectories, disk.isDirectory directory = true ∧
    ∃ walked, disk.walk settings.search.ignorePatterns directory = .ok walked ∧ path ∈ walked ∧
      settings.search.NamesTestFile path

/-- Two settings ask for the same search, in whatever order and however often they list the
directories and the suffixes. -/
structure SearchesAlike (settings other : Settings) : Prop where
  root : other.resolvedTestRoot = settings.resolvedTestRoot
  patterns : other.search.ignorePatterns = settings.search.ignorePatterns
  directories : ∀ directory,
    directory ∈ other.search.directories ↔ directory ∈ settings.search.directories
  suffixes : ∀ suffix, suffix ∈ other.search.suffixes ↔ suffix ∈ settings.search.suffixes

section Walks

variable {settings other : Settings} {disk : Disk} {path : String}

/-- The candidates in a directory are the test files that the walk through it yields. -/
theorem mem_candidatesIn_iff {directory : String} {paths : List String}
    (found : settings.candidatesIn disk directory = .ok paths) :
    path ∈ paths ↔ disk.isDirectory directory = true ∧
      ∃ walked, disk.walk settings.search.ignorePatterns directory = .ok walked ∧ path ∈ walked ∧
        settings.search.NamesTestFile path := by
  unfold candidatesIn at found
  split at found
  · rename_i isThere
    cases walks : disk.walk settings.search.ignorePatterns directory with
    | error fault =>
        rw [walks] at found
        cases found
    | ok walked =>
        rw [walks] at found
        obtain rfl := Except.ok.inj found
        simp [isThere, SearchSettings.isTestFile_iff]
  · rename_i isMissing
    obtain rfl := Except.ok.inj found
    simp [isMissing]

/-- The candidates in some directories are those in any of them that is there. -/
theorem mem_candidatesInAll_iff {directories paths : List String}
    (found : settings.candidatesInAll disk directories = .ok paths) :
    path ∈ paths ↔ ∃ directory ∈ directories, disk.isDirectory directory = true ∧
      ∃ walked, disk.walk settings.search.ignorePatterns directory = .ok walked ∧ path ∈ walked ∧
        settings.search.NamesTestFile path := by
  induction directories generalizing paths with
  | nil =>
      obtain rfl := Except.ok.inj found
      simp
  | cons first rest ih =>
      rw [candidatesInAll] at found
      cases here : settings.candidatesIn disk first with
      | error failure =>
          rw [here] at found
          cases found
      | ok paths =>
          cases later : settings.candidatesInAll disk rest with
          | error failure =>
              rw [here, later] at found
              cases found
          | ok others =>
              rw [here, later] at found
              obtain rfl := Except.ok.inj found
              rw [List.mem_append, mem_candidatesIn_iff here, ih later, List.exists_mem_cons_iff]

/-- The candidates of a search all whose directories can be walked through. -/
theorem exists_candidates (walkable : ∀ directory ∈ settings.searchedDirectories,
      ¬ settings.IsUnwalkable disk directory) :
    ∃ paths, settings.candidates disk = .ok paths ∧ paths.Pairwise Path.Before ∧
      (∀ path ∈ paths, settings.Yields disk path) ∧
      ∀ taken, taken ∈ paths.map Path.steps ↔
        ∃ path, settings.Yields disk path ∧ Path.steps path = taken := by
  cases all : settings.candidatesInAll disk settings.searchedDirectories with
  | error failure =>
      obtain ⟨directory, searched, failed⟩ := settings.exists_candidatesIn_of_all disk all
      have unwalkable :=
        (settings.exists_candidatesIn_eq_error_iff disk directory).mp ⟨failure, failed⟩
      exact absurd unwalkable (walkable directory searched)
  | ok yielded =>
      have yields (path : String) : path ∈ yielded ↔ settings.Yields disk path :=
        mem_candidatesInAll_iff all
      have given : settings.candidates disk = .ok (Path.sorted yielded) := by
        rw [candidates, all, Except.map]
      refine ⟨Path.sorted yielded, given, Path.pairwise_sorted yielded,
        fun path member => (yields path).mp (Path.mem_of_mem_sorted member), fun taken => ?_⟩
      rw [Path.mem_steps_sorted_iff, List.mem_map]
      simp only [yields]

theorem SearchesAlike.mem_searchedDirectories (alike : settings.SearchesAlike other)
    (directory : String) :
    directory ∈ other.searchedDirectories ↔ directory ∈ settings.searchedDirectories := by
  simp only [searchedDirectories, List.mem_map, alike.root, alike.directories]

/-- Whether a directory can be walked through does not depend on the order of the settings. -/
theorem SearchesAlike.isUnwalkable (alike : settings.SearchesAlike other) (directory : String) :
    other.IsUnwalkable disk directory ↔ settings.IsUnwalkable disk directory := by
  simp only [IsUnwalkable, alike.patterns]

/-- Settings that search alike yield the same paths. -/
theorem SearchesAlike.yields (alike : settings.SearchesAlike other) (path : String) :
    other.Yields disk path ↔ settings.Yields disk path := by
  simp only [Yields, SearchSettings.NamesTestFile, alike.mem_searchedDirectories, alike.patterns,
    alike.suffixes]

end Walks

/-- **Candidates are an ordered set.** If no directory to search that is there keeps from being
walked through, the candidates can be told. Each stands before those after it, so none takes the
same steps as another one; they are the paths of test files that the walks yield; and other settings
that list the same directories and suffixes have the same candidates. -/
theorem candidates_orderedSet (settings : Settings) (disk : Disk)
    (walkable : ∀ directory ∈ settings.searchedDirectories,
      ¬ settings.IsUnwalkable disk directory) :
    ∃ paths, settings.candidates disk = .ok paths ∧
      paths.Pairwise Path.Before ∧ (paths.map Path.steps).Nodup ∧
      (∀ path ∈ paths, settings.Yields disk path) ∧
      (∀ taken, taken ∈ paths.map Path.steps ↔
        ∃ path, settings.Yields disk path ∧ Path.steps path = taken) ∧
      ∀ other, settings.SearchesAlike other →
        ∃ others, other.candidates disk = .ok others ∧
          others.map Path.steps = paths.map Path.steps := by
  obtain ⟨paths, found, ordered, yielded, steps⟩ := exists_candidates walkable
  refine ⟨paths, found, ordered, Path.nodup_map_steps ordered, yielded, steps, ?_⟩
  intro other alike
  have walkableToo : ∀ directory ∈ other.searchedDirectories,
      ¬ other.IsUnwalkable disk directory := by
    intro directory searched
    rw [alike.isUnwalkable]
    exact walkable directory ((alike.mem_searchedDirectories directory).mp searched)
  obtain ⟨others, foundToo, orderedToo, -, stepsToo⟩ := exists_candidates walkableToo
  refine ⟨others, foundToo, Path.map_steps_eq_of_mem_iff orderedToo ordered fun taken => ?_⟩
  rw [steps, stepsToo]
  simp only [alike.yields]

/-- Two test files, one of them further down than the other, and a file that is none. -/
def nestedTests : Disk :=
  let file := FileTree.file ByteArray.empty
  let tests := FileTree.directory
    [("sub", .directory [("BTest.php", file)]), ("ATest.php", file), ("help.php", file)]
  ⟨.directory [("work", .directory [("tests", tests)])], ["work"]⟩

/-- Settings with directories that overlap, are spelled in two ways or are missing. -/
def overlapping : Settings :=
  { Settings.default with
    search :=
      { SearchSettings.default with directories := ["tests/sub", "gone", "tests", "tests/."] } }

/-- Two test files that are found through overlapping directories are listed once each, in order. -/
theorem overlapping_orderedSet :
    (∀ directory ∈ overlapping.searchedDirectories,
      ¬ overlapping.IsUnwalkable nestedTests directory) ∧
    ∃ paths, overlapping.candidates nestedTests = .ok paths ∧
      paths.map Path.steps = ["./tests/ATest.php", "./tests/sub/BTest.php"].map Path.steps := by
  have walked : (overlapping.candidatesInAll nestedTests overlapping.searchedDirectories).toOption =
      some ["./tests/sub/BTest.php", "./tests/sub/BTest.php", "./tests/ATest.php",
        "./tests/./sub/BTest.php", "./tests/./ATest.php"] := by
    decide +kernel
  cases all : overlapping.candidatesInAll nestedTests overlapping.searchedDirectories with
  | error failure =>
      rw [all] at walked
      cases walked
  | ok yielded =>
      rw [all] at walked
      obtain rfl := Option.some.inj walked
      have walkable : ∀ directory ∈ overlapping.searchedDirectories,
          ¬ overlapping.IsUnwalkable nestedTests directory := by
        intro directory searched unwalkable
        obtain ⟨failure, failed⟩ :=
          overlapping.exists_candidatesInAll_eq_error nestedTests searched unwalkable
        rw [all] at failed
        cases failed
      obtain ⟨paths, found, ordered, -, -, steps, -⟩ :=
        candidates_orderedSet overlapping nestedTests walkable
      -- The two ways to spell a directory make no difference to the steps.
      have above : Path.steps "./tests/ATest.php" = [.here, .name "tests", .name "ATest.php"] ∧
          Path.steps "./tests/./ATest.php" = [.here, .name "tests", .name "ATest.php"] := by
        decide +kernel
      have below : Path.steps "./tests/sub/BTest.php" =
            [.here, .name "tests", .name "sub", .name "BTest.php"] ∧
          Path.steps "./tests/./sub/BTest.php" =
            [.here, .name "tests", .name "sub", .name "BTest.php"] := by
        decide +kernel
      refine ⟨walkable, paths, found, Path.map_steps_eq_of_mem_iff ordered ?_ fun taken => ?_⟩
      · have before : Path.Before "./tests/ATest.php" "./tests/sub/BTest.php" := by
          rw [Path.Before, above.1, below.1]
          exact .cons (.cons (.rel (.name (by decide))))
        exact List.pairwise_pair.mpr before
      · rw [steps]
        unfold Yields
        simp only [← mem_candidatesInAll_iff all, List.mem_cons, List.not_mem_nil, or_false,
          exists_eq_or_imp, exists_eq_left, above, below, List.map_cons, List.map_nil,
          @eq_comm _ taken]
        constructor
        · rintro (isBelow | isBelow | isAbove | isBelow | isAbove)
          · exact .inr isBelow
          · exact .inr isBelow
          · exact .inl isAbove
          · exact .inr isBelow
          · exact .inl isAbove
        · rintro (isAbove | isBelow)
          · exact .inr (.inr (.inl isAbove))
          · exact .inl isBelow

end Settings

end PhpTestIndex
