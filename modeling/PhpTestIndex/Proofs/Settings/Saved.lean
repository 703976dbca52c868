import PhpTestIndex.CommandLine
import PhpTestIndex.Proofs.Settings.Loading
import PhpTestIndex.Proofs.Toml.Document

/-! # Settings load as they were saved

The text of settings is a document of plain fields and two tables, so it is read as it is written
(`PhpTestIndex.Settings.readDocument_toToml`), and its fields give the settings back
(`PhpTestIndex.Settings.ofFields_tomlFields`): what the file says takes the place of what holds if
nothing is set, also where it is an empty list.  Hence settings that were saved, and settings that
were shown and kept in a file, are loaded as they are (`PhpTestIndex.Settings.saved_loads`).
-/

namespace PhpTestIndex.Settings

open Toml Setting

/-! ### The text of settings -/

/-- The fields that stand before the tables. -/
def plainFields (settings : Settings) : List (String × Toml) :=
  [("version", .integer settings.version.toNat), ("test_root", .string settings.testRoot)] ++
    (settings.workspaceRoot.map fun root => ("workspace_root", Toml.string root)).toList ++
    [("debug", .bool settings.debug)]

/-- The tables. -/
def sections (settings : Settings) : List Section :=
  [("discovery", [
      ("include", textsToml settings.search.directories),
      ("suffixes", textsToml settings.search.suffixes),
      ("ignore_patterns", textsToml settings.search.ignorePatterns)]),
    ("logging", [("level", .string settings.logLevel)])]

/-- The document of some settings is a list of plain fields and a list of sections. -/
theorem tomlFields_eq (settings : Settings) :
    settings.tomlFields = documentFields settings.plainFields settings.sections := by
  simp [tomlFields, documentFields, plainFields, sections]

/-- A list of texts is a value that settings have. -/
theorem plain_textsToml (texts : List String) : Plain (textsToml texts) := by
  refine .array _ fun item member => ?_
  obtain ⟨text, -, rfl⟩ := List.mem_map.mp member
  exact .string text

/-- The fields outside all sections have different names and values that can be written. -/
theorem writable_plainFields (settings : Settings) : Writable settings.plainFields := by
  have small : (settings.version.toNat : Int) ≤ Int64.maxValue.toInt := by
    have bound := settings.version.toNat_lt
    have limit : Int64.maxValue.toInt = 9223372036854775807 := rfl
    omega
  have names : settings.plainFields.map Prod.fst ∈
      [["version", "test_root", "debug"], ["version", "test_root", "workspace_root", "debug"]] := by
    cases root : settings.workspaceRoot <;> simp [plainFields, root]
  have proper : ∀ names ∈
      [["version", "test_root", "debug"], ["version", "test_root", "workspace_root", "debug"]],
      (∀ name ∈ names, IsBare name) ∧ names.Nodup := by
    decide
  obtain ⟨bare, distinct⟩ := proper _ names
  refine ⟨bare, ?_, distinct⟩
  cases root : settings.workspaceRoot <;>
    simp [plainFields, root, Plain.scalar (PlainScalar.number settings.version.toNat small),
      Plain.scalar (PlainScalar.string _), Plain.scalar (PlainScalar.bool _)]

/-- The fields of every section have different names and values that can be written. -/
theorem writable_sections (settings : Settings) :
    ∀ part ∈ settings.sections, Writable part.2 := by
  refine List.forall_mem_cons.mpr ⟨⟨?_, ?_, ?_⟩, List.forall_mem_singleton.mpr ⟨?_, ?_, ?_⟩⟩
  · change ∀ name ∈ ["include", "suffixes", "ignore_patterns"], IsBare name
    decide
  · simp [plain_textsToml]
  · change ["include", "suffixes", "ignore_patterns"].Nodup
    decide
  · change ∀ name ∈ ["level"], IsBare name
    decide
  · simp [Plain.scalar (PlainScalar.string _)]
  · change ["level"].Nodup
    decide

/-- The text of settings, with breaks after it, is read as it is written. -/
theorem readDocument_toToml (settings : Settings) (count : Nat) :
    readDocument (settings.toToml.toList ++ List.replicate count '\n') =
      .ok settings.tomlFields := by
  have bare : ∀ name ∈ settings.sections.map Prod.fst, IsBare name := by
    change ∀ name ∈ ["discovery", "logging"], IsBare name
    decide
  have distinct : (settings.plainFields.map Prod.fst ++ settings.sections.map Prod.fst).Nodup := by
    cases root : settings.workspaceRoot <;> simp [plainFields, sections, root]
  rw [toToml, tomlFields_eq]
  exact readDocument_renderDocument settings.writable_plainFields bare settings.writable_sections
    distinct count

/-! ### The fields of settings -/

/-- Texts from a document are read as a list of texts, item by item. -/
theorem itemsFrom_ofTomlItems (expected : Expected) (key : List String) (origin : Origin)
    (texts : List String) (index : Nat) :
    itemsFrom (textAs expected) key index (ofTomlItems origin (texts.map .string)) = .ok texts := by
  induction texts generalizing index with
  | nil => rfl
  | cons text texts ih =>
      rw [List.map_cons, ofTomlItems, ofToml, itemsFrom]
      simp only [textAs, ih, Except.map]

/-- The version is read back: it is a word in the settings and a number in the document. -/
theorem number_version (version : UInt32) (key : List String) (origin : Origin) :
    number key (.scalar origin (.signed version.toNat)) = .ok version := by
  have bound := version.toNat_lt_size
  have fits : (0 : Int) ≤ version.toNat ∧ (version.toNat : Int) < UInt32.size := by omega
  unfold number
  dsimp only
  rw [if_pos fits, Int.toNat_natCast, UInt32.ofNat_toNat]

/-- A list of texts is read back from its value in the document. -/
theorem listOf_textsToml (expected : Expected) (key : List String) (origin : Origin)
    (texts : List String) :
    listOf (textAs expected) key (ofToml origin (textsToml texts)) = .ok texts := by
  rw [textsToml, ofToml]
  exact itemsFrom_ofTomlItems expected key origin texts 0

/-- Where and what to search is read back from the section that it is written in. -/
theorem ofSetting_search (search : SearchSettings) (key : List String) (origin : Origin) :
    SearchSettings.ofSetting key (.table origin [
      ("include", ofToml origin (textsToml search.directories)),
      ("suffixes", ofToml origin (textsToml search.suffixes)),
      ("ignore_patterns", ofToml origin (textsToml search.ignorePatterns))]) = .ok search := by
  simp [SearchSettings.ofSetting, List.lookup_cons, orElse, listOf_textsToml]

/-- The fields of settings give the settings back, whatever holds if nothing is set. -/
theorem ofFields_tomlFields (settings : Settings) (origin : Origin) :
    ofFields (ofTomlFields origin settings.tomlFields) = .ok settings := by
  obtain ⟨version, testRoot, workspaceRoot, debug, search, logLevel⟩ := settings
  cases workspaceRoot <;>
    simp [tomlFields, ofTomlFields, ofToml, ofFields, logLevelOfSetting, List.lookup_cons, orElse,
      truth, textAs, number_version, ofSetting_search]

/-! ### Saving and loading -/

/-- A file that holds the text of settings, with breaks after it, is loaded as these settings. -/
theorem loadFrom_toToml {disk : Disk} {environment : List (String × String)} {path text : String}
    (absolute : Path.isAbsolute path = true) (idle : Environment.IsIdle environment)
    (found : disk.find? path = some (.file text.toUTF8)) {settings : Settings} {count : Nat}
    (written : text.toList = settings.toToml.toList ++ List.replicate count '\n') :
    loadFrom disk environment path = .ok settings := by
  rw [loadFrom_of_found absolute idle found, ofContent, readContent_toUTF8, written,
    readDocument_toToml]
  exact congrArg (Except.mapError SettingsFault.misfit) (settings.ofFields_tomlFields _)

/-- Storing ends with writing the text into the file. -/
theorem find?_of_store {disk : Disk} {directory path text : String}
    (stored : (store disk directory path text).2 = none) :
    (disk.applyAll (store disk directory path text).1).find? path = some (.file text.toUTF8) := by
  unfold store at stored ⊢
  cases made : disk.makeDirectories directory with
  | mk changes fault =>
      cases fault with
      | some fault =>
          simp only [made] at stored
          cases stored
      | none =>
          simp only [made] at stored ⊢
          cases written : (disk.applyAll changes).write path text.toUTF8 with
          | error fault =>
              simp only [written] at stored
              cases stored
          | ok change =>
              simp only [Disk.applyAll, List.foldl_append]
              exact Disk.find?_apply_of_write written

/-- Saving settings writes their text into the file and reports a fault of writing. -/
theorem save_eq {disk : Disk} {path directory : String} {settings : Settings}
    (parent : Path.parent? path = some directory) :
    save disk path settings =
      ((store disk directory path settings.toToml).1,
        (store disk directory path settings.toToml).2.map .file) := by
  simp only [save, parent]

/-- Saving ends with writing the text into the file. -/
theorem find?_of_save {disk : Disk} {path : String} {settings : Settings}
    (saved : (save disk path settings).2 = none) :
    (disk.applyAll (save disk path settings).1).find? path =
      some (.file settings.toToml.toUTF8) := by
  cases parent : Path.parent? path with
  | none =>
      simp only [save, parent] at saved
      cases saved
  | some directory =>
      rw [save_eq parent] at saved ⊢
      exact find?_of_store (Option.map_eq_none_iff.mp saved)

/-- **Saved settings are loaded unchanged,** and so are settings that were shown and kept in a file:
with every text, every number and every list, also an empty one. -/
theorem saved_loads (settings : Settings) (disk : Disk) (environment : List (String × String))
    (path : String) (absolute : Path.isAbsolute path = true)
    (idle : Environment.IsIdle environment) :
    ((save disk path settings).2 = none →
      loadFrom (disk.applyAll (save disk path settings).1) environment path = .ok settings) ∧
    ∀ (request : Request) (seen : Disk) (environment' : List (String × String)),
      request.command = .showSettings → request.settings seen environment' = .ok settings →
      disk.find? path = some (.file (request.run seen environment').1.output.toUTF8) →
        loadFrom disk environment path = .ok settings := by
  refine ⟨fun saved => ?_, fun request seen environment' shows active kept => ?_⟩
  · have written : settings.toToml.toList = settings.toToml.toList ++ List.replicate 0 '\n' := by
      simp
    exact loadFrom_toToml absolute idle (find?_of_save saved) written
  · have output : (request.run seen environment').1.output.toList =
        settings.toToml.toList ++ List.replicate 1 '\n' := by
      rw [Request.run, active]
      simp [Request.answer, shows]
    exact loadFrom_toToml absolute idle kept output

/-- A request that says nothing itself has the settings of its file. -/
theorem settings_of_loadFrom {disk : Disk} {environment : List (String × String)} {path : String}
    {settings : Settings} (loaded : loadFrom disk environment path = .ok settings) :
    (⟨some path, none, false, .showSettings⟩ : Request).settings disk environment =
      .ok settings := by
  simp only [Request.settings, loaded]
  rfl

/-- Settings with empty lists and with texts that need escapes. -/
def bareSettings : Settings :=
  ⟨4294967295, "Prüfung \"1\"\n'''\\", some "", true, ⟨[], ["\t", "Test.php"], []⟩, ""⟩

/-- A disk with these settings as they are shown. -/
def keptDisk : Disk :=
  ⟨.directory [("kept.toml", .file (bareSettings.toToml ++ "\n").toUTF8)], []⟩

/-- The settings of this file are shown, and saved over what was kept of them before. -/
theorem bareSettings_saved :
    Path.isAbsolute "/kept.toml" = true ∧ Environment.IsIdle [("HOME", "/")] ∧
      (save keptDisk "/kept.toml" bareSettings).2 = none ∧
      loadFrom (keptDisk.applyAll (save keptDisk "/kept.toml" bareSettings).1) [("HOME", "/")]
        "/kept.toml" = .ok bareSettings ∧
      (⟨some "/kept.toml", none, false, .showSettings⟩ : Request).settings keptDisk [] =
        .ok bareSettings ∧
      loadFrom keptDisk [("HOME", "/")] "/kept.toml" = .ok bareSettings := by
  have absolute : Path.isAbsolute "/kept.toml" = true := by decide
  have idle : Environment.IsIdle [("HOME", "/")] := by
    unfold Environment.IsIdle
    decide
  -- What the file holds does not matter for these, so that it is not evaluated.
  have holds (content : ByteArray) : (⟨.directory [("kept.toml", .file content)], []⟩ : Disk).find?
      "/kept.toml" = some (.file content) :=
    rfl
  have stores (content : ByteArray) (text : String) :
      (store ⟨.directory [("kept.toml", .file content)], []⟩ "/" "/kept.toml" text).2 = none :=
    rfl
  have kept := holds (bareSettings.toToml ++ "\n").toUTF8
  have saved : (save keptDisk "/kept.toml" bareSettings).2 = none := by
    have parent : Path.parent? "/kept.toml" = some "/" := by decide +kernel
    have stored : (store keptDisk "/" "/kept.toml" bareSettings.toToml).2 = none := stores _ _
    rw [save_eq parent, stored]
    rfl
  have shown : (bareSettings.toToml ++ "\n").toList =
      bareSettings.toToml.toList ++ List.replicate 1 '\n' := by
    simp
  have loaded : loadFrom keptDisk [] "/kept.toml" = .ok bareSettings :=
    loadFrom_toToml absolute (List.forall_mem_nil _) kept shown
  have active := settings_of_loadFrom loaded
  have loads := saved_loads bareSettings keptDisk [("HOME", "/")] "/kept.toml" absolute idle
  refine ⟨absolute, idle, saved, loads.1 saved, active, ?_⟩
  exact loads.2 ⟨some "/kept.toml", none, false, .showSettings⟩ keptDisk [] rfl active
    (by rw [Request.run, active]; exact kept)

end PhpTestIndex.Settings
