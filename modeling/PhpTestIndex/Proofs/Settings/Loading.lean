import PhpTestIndex.Proofs.Files.Writing
import PhpTestIndex.Settings.Store

/-! # Loading settings from a file

Where no variable of the environment sets anything, settings are what a file says and the values
that hold if nothing is set (`PhpTestIndex.Settings.loadFrom_of_found`).
-/

namespace PhpTestIndex

/-- The bytes of a text are read as the text. -/
theorem fromUTF8?_toUTF8 (text : String) : String.fromUTF8? text.toUTF8 = some text := by
  simp only [String.fromUTF8?, String.toUTF8_eq_toByteArray, dif_pos text.isValidUTF8]
  rfl

/-- No variable of the environment sets anything. -/
def Environment.IsIdle (environment : List (String × String)) : Prop :=
  ∀ entry ∈ environment, keyOf? entry.1 = none

/-- Variables without the prefix of the program set nothing. -/
theorem Environment.IsIdle.settings_eq {environment : List (String × String)}
    (idle : IsIdle environment) : Environment.settings environment = [] := by
  unfold Environment.settings
  induction environment with
  | nil => rfl
  | cons entry environment ih =>
      obtain ⟨name, text⟩ := entry
      have nothing : keyOf? name = none := idle (name, text) List.mem_cons_self
      simp only [List.foldl_cons, nothing, Option.map_none]
      exact ih fun other member => idle other (List.mem_cons_of_mem _ member)

/-- Merging nothing into some fields leaves them as they are. -/
theorem Setting.mergeFields_nil (fields : List (String × Setting)) :
    mergeFields fields [] = fields := by
  have unchanged : mergeShared [] fields = fields := by
    induction fields with
    | nil => rfl
    | cons field fields ih =>
        obtain ⟨name, value⟩ := field
        rw [mergeShared, ih]
        rfl
  rw [mergeFields, unchanged, List.filter_nil, List.append_nil]

namespace Settings

variable {disk : Disk} {environment : List (String × String)} {path : String}

/-- The settings that the content of a file sets, the file as it is shown. -/
def ofContent (path : String) (content : ByteArray) : Except SettingsFault Settings :=
  match readContent content with
  | .error fault => .error (.unreadable ⟨path, fault⟩)
  | .ok fields => (ofFields (Setting.ofTomlFields (.file path) fields)).mapError .misfit

/-- Reading the bytes of a text is reading the text; they are always well-formed. -/
theorem readContent_toUTF8 (text : String) :
    readContent text.toUTF8 = (Toml.readDocument text.toList).mapError (.notToml text.toList) := by
  rw [readContent, fromUTF8?_toUTF8]

/-- What an absolute path leads to is looked at for settings. -/
theorem fieldsOfFile_of_found (absolute : Path.isAbsolute path = true) {content : ByteArray}
    (found : disk.find? path = some (.file content)) :
    fieldsOfFile disk path =
      match readContent content with
      | .error fault => .error (.unreadable ⟨Path.shorter disk.directory path, fault⟩)
      | .ok fields =>
        .ok (Setting.ofTomlFields (.file (Path.shorter disk.directory path)) fields) := by
  have here : find? disk path = some path := by
    rw [find?, if_pos absolute, Option.filter_some, if_pos (Disk.isFile_of_find? found)]
  simp only [fieldsOfFile, here, Disk.read_of_find? found]
  rfl

/-- Settings are what the file says if the environment says nothing. -/
theorem loadFrom_of_found (absolute : Path.isAbsolute path = true)
    (idle : Environment.IsIdle environment) {content : ByteArray}
    (found : disk.find? path = some (.file content)) :
    loadFrom disk environment path = ofContent (Path.shorter disk.directory path) content := by
  rw [loadFrom, fieldsOfFile_of_found absolute found, ofContent]
  cases readContent content with
  | error fault => rfl
  | ok fields =>
      simp only [idle.settings_eq, Setting.mergeFields_nil]
      cases ofFields (Setting.ofTomlFields (.file (Path.shorter disk.directory path)) fields) with
      | error misfit => rfl
      | ok settings => rfl

end Settings

end PhpTestIndex
