import PhpTestIndex.CommandLine
import PhpTestIndex.Proofs.Files.Places
import PhpTestIndex.Proofs.Settings.Loading

/-! # Writing the first settings again

Settings are loaded before a request is answered, also before the one that is to write them anew.
So the first settings take the place of a settings file exactly if the file that stands there can be
loaded, and they are then loaded as what holds if nothing is set; a file that cannot be loaded
stays, and what is told suggests this very request (`PhpTestIndex.Disk.recovers_iff`).  Without
force, nothing is changed.
-/

namespace PhpTestIndex

/-- The path of the settings of the current directory, from the root. -/
def Disk.settingsPath (disk : Disk) : String :=
  Path.join (Path.ofLocation disk.directory) Settings.filePath

/-- The current directory has a settings file with some content. -/
structure Disk.HasSettings (disk : Disk) (content : ByteArray) : Prop where
  isName : ∀ name ∈ disk.directory, Path.IsName name
  found : disk.find? disk.settingsPath = some (.file content)

/-- What a settings file says can be used: it is UTF-8 and TOML, and every value fits. -/
def Settings.IsUsable (content : ByteArray) : Prop :=
  ∃ settings, ofContent filePath content = .ok settings

namespace Disk.HasSettings

variable {disk : Disk} {content : ByteArray}

theorem isAbsolute_settingsPath (disk : Disk) : Path.isAbsolute disk.settingsPath = true :=
  Path.isAbsolute_join (Path.isAbsolute_ofLocation _) _

/-- The settings file is found from the root and from the current directory. -/
theorem located (has : disk.HasSettings content) :
    ∃ place, disk.locate disk.settingsPath = .ok place ∧
      disk.locate Settings.filePath = .ok place ∧ disk.tree.at? place = some (.file content) := by
  have found := has.found
  unfold find? at found
  split at found
  · cases found
  · next place located =>
    exact ⟨place, located, locate_of_fromRoot has.isName rfl rfl located, found⟩

/-- The directory of the settings stands in the current directory. -/
theorem steps (has : disk.HasSettings content) :
    disk.directory.foldlM disk.step [] = .ok disk.directory.reverse ∧
      disk.step disk.directory.reverse Settings.directoryName =
        .ok (Settings.directoryName :: disk.directory.reverse) ∧
      ∃ entries, disk.tree.at? (disk.directory ++ [Settings.directoryName]) =
        some (.directory entries) := by
  obtain ⟨place, located, -, -⟩ := has.located
  obtain ⟨proper, taken, -⟩ := locate_eq_ok_iff.mp located
  have parts : segments disk.settingsPath =
      disk.directory ++ [Settings.directoryName, "settings.toml"] := by
    rw [segments, settingsPath, Path.segments_join_ofLocation has.isName rfl,
      getLast?_join _ (by decide), List.append_assoc]
    rfl
  rw [start, if_pos (isAbsolute_settingsPath disk), parts] at taken
  obtain ⟨middle, first, second⟩ := foldlM_step_append_iff.mp taken
  obtain rfl := eq_of_foldlM_step has.isName first
  rw [List.append_nil] at first second
  obtain ⟨inner, enters, last⟩ := foldlM_step_cons_iff.mp second
  obtain ⟨last, opens, -⟩ := foldlM_step_cons_iff.mp last
  obtain ⟨rfl, -⟩ := step_eq_ok_iff.mp enters
  obtain ⟨-, entries, isDirectory, -⟩ := step_eq_ok_iff.mp opens
  refine ⟨first, enters, entries, ?_⟩
  rw [← isDirectory]
  simp [Path.follow, Settings.directoryName]

/-- Where there are settings, the directory for them is there, too. -/
theorem isDirectory_directoryName (has : disk.HasSettings content) :
    disk.isDirectory (Path.join (Path.ofLocation disk.directory) Settings.directoryName) =
      true := by
  obtain ⟨place, located, -, -⟩ := has.located
  obtain ⟨proper, -, -⟩ := locate_eq_ok_iff.mp located
  obtain ⟨first, enters, entries, stands⟩ := has.steps
  have longer : disk.settingsPath =
      Path.join (Path.ofLocation disk.directory) Settings.directoryName ++ "/settings.toml" :=
    @Path.join_append _ Settings.directoryName rfl (by decide) "/settings.toml"
  have fromRoot := Path.isAbsolute_join (Path.isAbsolute_ofLocation disk.directory)
    Settings.directoryName
  have parts : segments (Path.join (Path.ofLocation disk.directory) Settings.directoryName) =
      disk.directory ++ [Settings.directoryName] := by
    rw [segments, Path.segments_join_ofLocation has.isName rfl, getLast?_join _ (by decide),
      List.append_assoc]
    rfl
  have taken : (segments (Path.join (Path.ofLocation disk.directory) Settings.directoryName)).foldlM
      disk.step (disk.start (Path.join (Path.ofLocation disk.directory) Settings.directoryName)) =
        .ok (disk.directory ++ [Settings.directoryName]).reverse := by
    rw [parts, start, if_pos fromRoot, foldlM_step_concat first, enters, List.reverse_append]
    rfl
  have leads := locate_eq_ok_iff.mpr
    ⟨pathFault?_of_append (longer ▸ proper) (Path.ne_empty_of_isAbsolute fromRoot), taken,
      by rw [stands]; rfl⟩
  simp only [isDirectory, find?, leads, stands]

/-- The current directory is the workspace. -/
theorem workspace?_eq (has : disk.HasSettings content) :
    Settings.workspace? disk = some (Path.ofLocation disk.directory) := by
  obtain ⟨above, nearest⟩ : ∃ above, Settings.upwards disk.directory.reverse =
      disk.directory :: above := by
    cases back : disk.directory.reverse with
    | nil => exact ⟨[], by rw [List.reverse_eq_nil_iff.mp back]; rfl⟩
    | cons name way =>
        exact ⟨Settings.upwards way, by rw [Settings.upwards, ← back, List.reverse_reverse]⟩
  rw [Settings.workspace?, nearest, List.map_cons, List.find?_cons_of_pos]
  exact has.isDirectory_directoryName

/-- Settings are loaded from the file in the current directory. -/
theorem load_eq (has : disk.HasSettings content) {environment : List (String × String)}
    (idle : Environment.IsIdle environment) :
    Settings.load disk environment =
      (Settings.ofContent Settings.filePath content).map fun settings =>
        let workspace := settings.workspaceRoot.or (some (Path.ofLocation disk.directory))
        { settings with workspaceRoot := workspace } := by
  have shown : Path.shorter disk.directory disk.settingsPath = Settings.filePath :=
    Path.shorter_join has.isName rfl (by decide)
  have loaded := Settings.loadFrom_of_found (isAbsolute_settingsPath disk) idle has.found
  rw [shown, settingsPath] at loaded
  simp only [Settings.load, has.workspace?_eq, loaded]
  cases Settings.ofContent Settings.filePath content <;> rfl

/-- Without force, the settings stay. -/
theorem init_false (has : disk.HasSettings content) :
    Settings.init disk false = ([], some (.present Settings.filePath)) := by
  obtain ⟨place, -, located, stands⟩ := has.located
  have present : (disk.find? Settings.filePath).isSome = true := by
    rw [find?_of_locate located, stands]
    rfl
  rw [Settings.init, present, Bool.not_false, Bool.and_self, if_pos rfl]

/-- With force, the first settings take their place. -/
theorem init_true (has : disk.HasSettings content) :
    ∃ place, Settings.init disk true = ([.write place Settings.firstFile.toUTF8], none) ∧
      (disk.apply (.write place Settings.firstFile.toUTF8)).HasSettings
        Settings.firstFile.toUTF8 := by
  obtain ⟨place, located, relative, stands⟩ := has.located
  obtain ⟨-, -, entries, isDirectory⟩ := has.steps
  refine ⟨place, ?_, has.isName, ?_⟩
  · have made : disk.makeDirectories Settings.directoryName = ([], none) := by
      have noNull : Settings.directoryName.toList.contains '\x00' = false := by decide
      have start : disk.start Settings.directoryName = disk.directory.reverse := rfl
      have parts : Path.segments Settings.directoryName = [Settings.directoryName] := rfl
      have next : (Path.follow disk.directory.reverse Settings.directoryName).reverse =
          disk.directory ++ [Settings.directoryName] := by
        simp [Path.follow, Settings.directoryName]
      rw [makeDirectories, noNull, if_neg Bool.false_ne_true, start, parts]
      simp only [missingDirectories, next, isDirectory]
    have written : disk.write Settings.filePath Settings.firstFile.toUTF8 =
        .ok (.write place Settings.firstFile.toUTF8) := by
      simp only [write, relative, stands]
    rw [Settings.init, Bool.not_true, Bool.and_false, if_neg Bool.false_ne_true]
    simp only [Settings.store, made, applyAll, List.foldl_nil, written, List.nil_append,
      Option.map_none]
  · have noDirectory : ∀ tree ∈ disk.tree.at? place, tree.isDirectory = false := by
      intro tree member
      rw [stands] at member
      obtain rfl := Option.some.inj member
      rfl
    have leads := locate_apply_of_locate Settings.firstFile.toUTF8 noDirectory located
    exact (find?_of_locate leads).trans (FileTree.at?_put _ place disk.tree)

end Disk.HasSettings

/-- Settings are what the fields of a text say that is read as a document. -/
theorem Settings.ofContent_of_read (text : String) (settings : Settings)
    (read : ((Toml.readDocument text.toList).toOption.bind fun fields =>
      (ofFields (Setting.ofTomlFields (.file filePath) fields)).toOption) = some settings) :
    ofContent filePath text.toUTF8 = .ok settings := by
  rw [ofContent, readContent_toUTF8]
  cases document : Toml.readDocument text.toList with
  | error fault =>
      rw [document] at read
      cases read
  | ok fields =>
      simp only [document, Except.toOption, Option.bind_some] at read
      simp only [Except.mapError]
      cases fits : ofFields (Setting.ofTomlFields (.file filePath) fields) with
      | error misfit =>
          rw [fits] at read
          cases read
      | ok found =>
          rw [fits] at read
          exact congrArg _ (Option.some.inj read)

/-- The first settings say what holds if nothing is set. -/
theorem Settings.ofContent_firstFile :
    ofContent filePath firstFile.toUTF8 = .ok Settings.default := by
  refine ofContent_of_read _ _ ?_
  unfold firstFile
  simp only [String.toList_append, String.reduceToList]
  decide +kernel

/-! ### The request -/

/-- What is written where the settings are the reason. -/
theorem Written.ofFailure_config (reason : String) :
    Written.ofFailure .text (.config reason) =
      ⟨.configError, "", "Error: Invalid configuration: " ++ reason ++
        "\n  Suggestion: Run 'phptest init --force' to regenerate the configuration\n"⟩ := by
  have said : (Failure.config reason).message = "Invalid configuration: " ++ reason := rfl
  have advised : (Failure.config reason).suggestions =
      ["Run 'phptest init --force' to regenerate the configuration"] := rfl
  have told : "Error: " ++ (Failure.config reason).message ++ "\n" ++
      String.join ((Failure.config reason).suggestions.map fun suggestion =>
        "  Suggestion: " ++ suggestion ++ "\n") =
      "Error: Invalid configuration: " ++ reason ++
        "\n  Suggestion: Run 'phptest init --force' to regenerate the configuration\n" := by
    refine String.toList_injective ?_
    simp only [said, advised, List.map_cons, List.map_nil, String.join_cons, String.join_nil,
      String.append_empty, String.toList_append, String.reduceToList, List.cons_append,
      List.append_assoc, List.nil_append]
  exact congrArg (Written.mk .configError "") told

/-- The request that writes the first settings. -/
theorem Request.read_init (force : Bool) :
    Request.read ("init" :: if force then ["--force"] else []) =
      .ok ⟨none, none, false, .init force⟩ := by
  cases force <;> rfl

/-- Settings are loaded before they are written. -/
theorem runProgram_init (force : Bool) (disk : Disk) (environment : List (String × String)) :
    runProgram ("init" :: if force then ["--force"] else []) disk environment =
      match Settings.load disk environment with
      | .error fault => (.ofFailure .text (.config fault.message), [])
      | .ok _ =>
        match Settings.init disk force with
        | (changes, some fault) => (.ofFailure .text (.config fault.message), changes)
        | (changes, none) =>
          (⟨.success, "Created configuration file at: " ++ Settings.filePath ++ "\n", ""⟩,
            changes) := by
  rw [runProgram, Request.read_init]
  simp only [Request.run, Request.settings]
  cases Settings.load disk environment with
  | error fault => rfl
  | ok settings =>
      simp only [Request.answer, Request.refuse]
      rcases Settings.init disk force with ⟨changes, _ | fault⟩ <;> rfl

/-- The program ends well, and leaves the first settings, which are loaded as what holds if nothing
is set. -/
structure Disk.Recovers (disk : Disk) (environment : List (String × String))
    (arguments : List String) : Prop where
  succeeds : (runProgram arguments disk environment).1.code = .success
  written : (disk.applyAll (runProgram arguments disk environment).2).find? disk.settingsPath =
    some (.file Settings.firstFile.toUTF8)
  loads : Settings.load (disk.applyAll (runProgram arguments disk environment).2) environment =
    .ok { Settings.default with workspaceRoot := some (Path.ofLocation disk.directory) }

namespace Disk

variable {disk : Disk} {content : ByteArray} {environment : List (String × String)}

/-- Settings are loaded exactly if the file can be used. -/
theorem HasSettings.exists_load_eq_ok_iff (has : disk.HasSettings content)
    (idle : Environment.IsIdle environment) :
    (∃ settings, Settings.load disk environment = .ok settings) ↔ Settings.IsUsable content := by
  rw [has.load_eq idle, Settings.IsUsable]
  cases Settings.ofContent Settings.filePath content <;> simp [Except.map]

/-- Over settings that can be loaded, forcing new ones writes the default ones. -/
theorem HasSettings.recovers_of_isUsable (has : disk.HasSettings content)
    (idle : Environment.IsIdle environment) (usable : Settings.IsUsable content) :
    disk.Recovers environment ["init", "--force"] := by
  obtain ⟨settings, loaded⟩ := (has.exists_load_eq_ok_iff idle).mpr usable
  obtain ⟨place, initialized, later⟩ := has.init_true
  have ran := runProgram_init true disk environment
  simp only [if_true, loaded, initialized] at ran
  have reloaded := later.load_eq idle
  rw [Settings.ofContent_firstFile] at reloaded
  exact ⟨by rw [ran], by rw [ran]; exact later.found, by rw [ran]; exact reloaded⟩

/-- A file that cannot be used stays, and the same request is suggested again. -/
theorem HasSettings.refused_of_not_isUsable (has : disk.HasSettings content)
    (idle : Environment.IsIdle environment) (unusable : ¬ Settings.IsUsable content)
    (force : Bool) :
    ∃ fault, Settings.ofContent Settings.filePath content = .error fault ∧
      runProgram ("init" :: if force then ["--force"] else []) disk environment =
        (⟨.configError, "", "Error: Invalid configuration: " ++ fault.message ++
          "\n  Suggestion: Run 'phptest init --force' to regenerate the configuration\n"⟩, []) := by
  cases read : Settings.ofContent Settings.filePath content with
  | ok settings => exact absurd ⟨settings, read⟩ unusable
  | error fault =>
      have loaded := has.load_eq idle
      rw [read] at loaded
      refine ⟨fault, rfl, ?_⟩
      rw [runProgram_init, loaded, ← Written.ofFailure_config]
      rfl

/-- **The first settings are written anew exactly where the settings can be used** that stand there,
whatever else they say. Settings that cannot be used are kept, with the advice to make this very
request; and without force, settings are always kept. -/
theorem recovers_iff (has : disk.HasSettings content) (idle : Environment.IsIdle environment) :
    (disk.Recovers environment ["init", "--force"] ↔ Settings.IsUsable content) ∧
      (¬ Settings.IsUsable content →
        ∃ fault, Settings.ofContent Settings.filePath content = .error fault ∧
          runProgram ["init", "--force"] disk environment =
            (⟨.configError, "", "Error: Invalid configuration: " ++ fault.message ++
              "\n  Suggestion: Run 'phptest init --force' to regenerate the configuration\n"⟩, [])) ∧
      (runProgram ["init"] disk environment).1.code = .configError ∧
      (runProgram ["init"] disk environment).2 = [] := by
  have kept (force : Bool) (unusable : ¬ Settings.IsUsable content) :=
    has.refused_of_not_isUsable idle unusable force
  refine ⟨⟨fun recovers => ?_, has.recovers_of_isUsable idle⟩, kept true, ?_⟩
  · by_contra unusable
    obtain ⟨fault, -, refused⟩ := kept true unusable
    have succeeds := recovers.succeeds
    rw [show ["init", "--force"] = "init" :: if true then ["--force"] else [] from rfl, refused]
      at succeeds
    cases succeeds
  · by_cases usable : Settings.IsUsable content
    · obtain ⟨settings, loaded⟩ := (has.exists_load_eq_ok_iff idle).mpr usable
      have ran := runProgram_init false disk environment
      simp only [loaded, has.init_false, Bool.false_eq_true, if_false] at ran
      exact ⟨congrArg (·.1.code) ran, congrArg Prod.snd ran⟩
    · obtain ⟨fault, -, refused⟩ := kept false usable
      exact ⟨congrArg (·.1.code) refused, congrArg Prod.snd refused⟩

/-- What is told of a file that is no TOML shows where reading stopped. -/
example :
    (match Settings.ofContent Settings.filePath "debug = tru".toUTF8 with
      | .ok _ => ""
      | .error fault => fault.message) =
      "TOML parse error at line 1, column 9\n  |\n1 | debug = tru\n  |         ^\n" ++
        "invalid string\nexpected `\"`, `'`\n in .phptest/settings.toml TOML file" := by
  decide +kernel

end Disk

/-- A disk on which the directory `/srv` has a settings file and is the current one. -/
def settledDisk (text : String) : Disk :=
  ⟨.directory [("srv", .directory [(".phptest", .directory [
    ("settings.toml", .file text.toUTF8)])])], ["srv"]⟩

/-- The disk with some text for its settings has that text as its settings. -/
theorem hasSettings_settledDisk (text : String) : (settledDisk text).HasSettings text.toUTF8 := by
  have path : (settledDisk text).settingsPath = "/srv/.phptest/settings.toml" := by
    change Path.join (Path.ofLocation ["srv"]) Settings.filePath = _
    decide +kernel
  have isName : Path.IsName "srv" := ⟨by decide, by decide, by decide, by decide⟩
  exact ⟨List.forall_mem_singleton.mpr isName, by rw [path]; rfl⟩

/-- Settings with other values give way to the first ones. -/
theorem otherSettings_recovered :
    (settledDisk "version = 7\ndebug = true").HasSettings "version = 7\ndebug = true".toUTF8 ∧
      Environment.IsIdle [("HOME", "/")] ∧
      (settledDisk "version = 7\ndebug = true").Recovers [("HOME", "/")] ["init", "--force"] := by
  have has := hasSettings_settledDisk "version = 7\ndebug = true"
  have idle : Environment.IsIdle [("HOME", "/")] := by
    unfold Environment.IsIdle
    decide
  have read := Settings.ofContent_of_read "version = 7\ndebug = true"
    { Settings.default with version := 7, debug := true } (by decide +kernel)
  exact ⟨has, idle, (Disk.recovers_iff has idle).1.mpr ⟨_, read⟩⟩

/-- A version that is no number stands in the way of the first settings. -/
theorem misfit_not_recovered :
    (settledDisk "version = 'one'").HasSettings "version = 'one'".toUTF8 ∧
      ¬ (settledDisk "version = 'one'").Recovers [] ["init", "--force"] ∧
      (runProgram ["init", "--force"] (settledDisk "version = 'one'") []).1 =
        ⟨.configError, "",
          "Error: Invalid configuration: invalid type: found string \"one\", expected u32 for " ++
            "key \"default.version\" in .phptest/settings.toml TOML file\n" ++
            "  Suggestion: Run 'phptest init --force' to regenerate the configuration\n"⟩ ∧
      (runProgram ["init", "--force"] (settledDisk "version = 'one'") []).2.isEmpty = true := by
  have told : (runProgram ["init", "--force"] (settledDisk "version = 'one'") []).1 =
        ⟨.configError, "",
          "Error: Invalid configuration: invalid type: found string \"one\", expected u32 for " ++
            "key \"default.version\" in .phptest/settings.toml TOML file\n" ++
            "  Suggestion: Run 'phptest init --force' to regenerate the configuration\n"⟩ := by
    decide +kernel
  refine ⟨hasSettings_settledDisk _, fun recovers => ?_, told, by decide +kernel⟩
  have succeeds := recovers.succeeds
  rw [told] at succeeds
  cases succeeds

end PhpTestIndex
