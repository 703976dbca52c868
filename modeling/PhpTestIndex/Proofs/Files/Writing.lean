import PhpTestIndex.Files.Tree

/-! # What is written can be read

Setting a file leaves everything else where it was: a tree in which a file has been put has all that
stood in it before, and its directories are still directories (`PhpTestIndex.FileTree.grows_put`).
Every step that a path takes can then be taken again (`PhpTestIndex.Disk.step_of_grows`), and so a
path under which a file could be written leads to this file
(`PhpTestIndex.Disk.locate_apply_of_write`).
-/

namespace PhpTestIndex

namespace FileTree

/-- A place below another one is looked for below what stands there. -/
theorem at?_append (tree : FileTree) (place more : List String) :
    tree.at? (place ++ more) = (tree.at? place).bind fun inner => inner.at? more := by
  induction place generalizing tree with
  | nil => rfl
  | cons name place ih =>
      rw [List.cons_append, at?, at?]
      cases tree.entries.lookup name with
      | none => rfl
      | some child => exact ih child

/-- One step into a directory leads to its entry of that name. -/
theorem at?_concat {tree : FileTree} {place : List String} {entries : List (String × FileTree)}
    (found : tree.at? place = some (.directory entries)) (name : String) :
    tree.at? (place ++ [name]) = entries.lookup name := by
  rw [at?_append, found]
  exact Option.bind_fun_some _

/-- What stands in one tree stands in the other one, and directories are still directories. -/
def Grows (old new : FileTree) : Prop :=
  ∀ place tree, old.at? place = some tree →
    ∃ later, new.at? place = some later ∧ (tree.isDirectory = true → later.isDirectory = true)

/-- Where no directory stands, anything can be put without taking something else away. -/
theorem grows_put (new : FileTree) {place : List String} {old : FileTree}
    (noDirectory : ∀ tree ∈ old.at? place, tree.isDirectory = false) :
    Grows old (put new place old) := by
  induction place generalizing old with
  | nil =>
      have isFile : old.isDirectory = false := noDirectory old rfl
      intro place tree found
      cases place with
      | nil =>
          obtain rfl := Option.some.inj found
          exact ⟨new, rfl, fun isDirectory => by simp [isFile] at isDirectory⟩
      | cons name place =>
          cases old with
          | file content => cases found
          | directory entries => cases isFile
  | cons name place ih =>
      intro inner tree found
      cases inner with
      | nil => exact ⟨_, rfl, fun _ => rfl⟩
      | cons other inner =>
          by_cases same : other = name
          · subst same
            cases child : old.entries.lookup other with
            | none =>
                rw [at?, child] at found
                cases found
            | some tree' =>
                rw [at?, child] at found
                have here := @ih tree' (by
                  simpa only [at?, child, Option.bind_some] using noDirectory)
                  inner tree found
                rw [put, at?, entries, lookup_replace, child]
                exact here
          · rw [at?] at found
            refine ⟨tree, ?_, id⟩
            rw [put, at?, entries, lookup_replace_of_ne same]
            exact found

end FileTree

namespace Disk

variable {disk : Disk}

/-- A step takes a name that a directory has, or one of the two marks. -/
theorem step_eq_ok_iff {way next : List String} {segment : String} :
    disk.step way segment = .ok next ↔
      next = Path.follow way segment ∧
        ∃ entries, disk.tree.at? way.reverse = some (.directory entries) ∧
          (segment = "." ∨ segment = ".." ∨
            segment.utf8ByteSize ≤ 255 ∧ (entries.lookup segment).isSome = true) := by
  constructor
  · intro taken
    unfold step at taken
    split at taken
    · cases taken
    · cases taken
    · next entries isDirectory =>
      refine ⟨?_, entries, isDirectory, ?_⟩ <;> split at taken
      · exact (Except.ok.inj taken).symm
      · split at taken
        · cases taken
        · split at taken
          · exact (Except.ok.inj taken).symm
          · cases taken
      · next idle => exact idle.imp_right .inl
      · split at taken
        · cases taken
        · next short =>
          split at taken
          · next there => exact .inr (.inr ⟨Nat.not_lt.mp short, there⟩)
          · cases taken
  · rintro ⟨rfl, entries, isDirectory, idle | idle | ⟨short, there⟩⟩
    · simp only [step, isDirectory, idle, true_or, if_true]
    · simp only [step, isDirectory, idle, or_true, if_true]
    · simp only [step, isDirectory, there, if_neg (Nat.not_lt.mpr short), if_true, ite_self]

/-- A step that is missing has a name, and the directory does not have it. -/
theorem of_step_eq_missing {way : List String} {segment : String}
    {entries : List (String × FileTree)}
    (isDirectory : disk.tree.at? way.reverse = some (.directory entries))
    (missing : disk.step way segment = .error .missing) :
    Path.follow way segment = segment :: way ∧ segment.utf8ByteSize ≤ 255 ∧
      entries.lookup segment = none := by
  simp only [step, isDirectory] at missing
  split at missing
  · cases missing
  · next moves =>
    rw [not_or] at moves
    split at missing
    · cases missing
    · next short =>
      split at missing
      · cases missing
      · next absent =>
        refine ⟨?_, Nat.not_lt.mp short, Option.not_isSome_iff_eq_none.mp absent⟩
        rw [Path.follow, if_neg moves.1, if_neg moves.2]

/-- Something stands where a step leads. -/
theorem isSome_at?_of_step {way next : List String} {segment : String}
    (taken : disk.step way segment = .ok next) : (disk.tree.at? next.reverse).isSome = true := by
  obtain ⟨rfl, entries, isDirectory, enters⟩ := step_eq_ok_iff.mp taken
  have above : (disk.tree.at? way.tail.reverse).isSome = true := by
    cases way with
    | nil => rw [List.tail_nil, isDirectory]; rfl
    | cons name way =>
        rw [List.reverse_cons, FileTree.at?_append] at isDirectory
        rw [List.tail_cons]
        exact Option.isSome_of_isSome_bind (by rw [isDirectory]; rfl)
  unfold Path.follow
  split
  · rw [isDirectory]; rfl
  · next noStay =>
    split
    · exact above
    · next noBack =>
      rw [List.reverse_cons, FileTree.at?_concat isDirectory]
      exact ((enters.resolve_left noStay).resolve_left noBack).2

/-- Every step can be taken again where nothing has been taken away. -/
theorem step_of_grows {later : Disk} (grows : FileTree.Grows disk.tree later.tree)
    {way next : List String} {segment : String} (taken : disk.step way segment = .ok next) :
    later.step way segment = .ok next := by
  obtain ⟨rfl, entries, isDirectory, enters⟩ := step_eq_ok_iff.mp taken
  obtain ⟨tree, isDirectory', still⟩ := grows _ _ isDirectory
  match tree, isDirectory', still rfl with
  | .directory entries', isDirectory', _ =>
      refine step_eq_ok_iff.mpr ⟨rfl, entries', isDirectory', ?_⟩
      refine enters.imp_right (Or.imp_right fun ⟨short, there⟩ => ⟨short, ?_⟩)
      rw [← FileTree.at?_concat isDirectory] at there
      obtain ⟨child, found⟩ := Option.isSome_iff_exists.mp there
      obtain ⟨child', found', -⟩ := grows _ _ found
      rw [← FileTree.at?_concat isDirectory', found']
      rfl

/-- Two ways one after the other lead somewhere if both do. -/
theorem bind_eq_ok_iff {result : Except FileFault (List String)}
    {next : List String → Except FileFault (List String)} {way : List String} :
    result >>= next = .ok way ↔ ∃ middle, result = .ok middle ∧ next middle = .ok way := by
  cases result with
  | error fault =>
      constructor
      · intro taken
        cases taken
      · rintro ⟨middle, taken, -⟩
        cases taken
  | ok middle =>
      constructor
      · exact fun taken => ⟨middle, rfl, taken⟩
      · rintro ⟨other, same, taken⟩
        obtain rfl := Except.ok.inj same
        exact taken

/-- A path leads somewhere if its first part leads to where its second part leads on from. -/
theorem foldlM_step_append_iff {first second way next : List String} :
    (first ++ second).foldlM disk.step way = .ok next ↔
      ∃ middle, first.foldlM disk.step way = .ok middle ∧
        second.foldlM disk.step middle = .ok next := by
  rw [List.foldlM_append, bind_eq_ok_iff]

theorem foldlM_step_cons_iff {segment : String} {segments way next : List String} :
    (segment :: segments).foldlM disk.step way = .ok next ↔
      ∃ middle, disk.step way segment = .ok middle ∧
        segments.foldlM disk.step middle = .ok next := by
  rw [List.foldlM_cons, bind_eq_ok_iff]

/-- A last segment is one step from where the others lead. -/
theorem foldlM_step_concat {names start way : List String}
    (taken : names.foldlM disk.step start = .ok way) (name : String) :
    (names ++ [name]).foldlM disk.step start = disk.step way name := by
  rw [List.foldlM_append, taken]
  change [name].foldlM disk.step way = _
  rw [List.foldlM_cons]
  cases disk.step way name <;> rfl

/-- A way through a tree leads to the same place when the tree has grown. -/
theorem foldlM_step_of_grows {later : Disk} (grows : FileTree.Grows disk.tree later.tree)
    {segments way next : List String} (taken : segments.foldlM disk.step way = .ok next) :
    segments.foldlM later.step way = .ok next := by
  induction segments generalizing way with
  | nil => exact taken
  | cons segment segments ih =>
      obtain ⟨middle, first, others⟩ := foldlM_step_cons_iff.mp taken
      exact foldlM_step_cons_iff.mpr ⟨middle, step_of_grows grows first, ih others⟩

/-- A path is located where its segments lead, if it can be used and something stands there. -/
theorem locate_eq_ok_iff {path : String} {place : List String} :
    disk.locate path = .ok place ↔
      pathFault? path = none ∧
        (segments path).foldlM disk.step (disk.start path) = .ok place.reverse ∧
          (disk.tree.at? place).isSome = true := by
  unfold locate
  cases pathFault? path with
  | some fault => simp
  | none =>
      cases (segments path).foldlM disk.step (disk.start path) with
      | error fault => simp
      | ok way =>
          dsimp only
          constructor
          · intro located
            split at located
            · cases located
            · next found =>
              obtain rfl := Except.ok.inj located
              exact ⟨rfl, by rw [List.reverse_reverse], by rw [found]; rfl⟩
          · rintro ⟨-, same, there⟩
            obtain rfl := Except.ok.inj same
            rw [List.reverse_reverse]
            split
            · next absent => simp [absent] at there
            · rfl

/-- A path still leads where it led if nothing has been taken away. -/
theorem locate_of_grows {later : Disk} (grows : FileTree.Grows disk.tree later.tree)
    (same : later.directory = disk.directory) {path : String} {place : List String}
    (located : disk.locate path = .ok place) : later.locate path = .ok place := by
  obtain ⟨noFault, taken, there⟩ := locate_eq_ok_iff.mp located
  obtain ⟨tree, found⟩ := Option.isSome_iff_exists.mp there
  obtain ⟨tree', found', -⟩ := grows _ _ found
  refine locate_eq_ok_iff.mpr ⟨noFault, ?_, by rw [found']; rfl⟩
  rw [start, same]
  exact foldlM_step_of_grows grows taken

/-- Writing a file changes nowhere what a path leads to. -/
theorem locate_apply_of_locate (content : ByteArray) {place : List String}
    (noDirectory : ∀ tree ∈ disk.tree.at? place, tree.isDirectory = false) {path : String}
    {found : List String} (located : disk.locate path = .ok found) :
    (disk.apply (.write place content)).locate path = .ok found := by
  have grows : FileTree.Grows disk.tree (disk.apply (.write place content)).tree :=
    FileTree.grows_put (.file content) noDirectory
  exact locate_of_grows grows rfl located

/-- A path with a segment is missing only after it was found fit for use. -/
theorem pathFault?_of_locate_eq_missing {path : String} (named : Path.segments path ≠ [])
    (missing : disk.locate path = .error .missing) : pathFault? path = none := by
  unfold locate at missing
  cases fault : pathFault? path with
  | none => rfl
  | some fault' =>
      rw [fault] at missing
      obtain rfl := Except.error.inj missing
      unfold pathFault? at fault
      split at fault
      · cases fault
      · split at fault
        · next empty => exact absurd (empty ▸ rfl) named
        · split at fault <;> cases fault

theorem segments_of_getLast?_ne {path : String} (noSlash : path.toList.getLast? ≠ some '/') :
    segments path = Path.segments path := by
  rw [segments, if_neg noSlash, List.append_nil]

/-- A path that leads nowhere, though its directory is there, ends with a name that the directory
does not have. -/
theorem step_of_locate_eq_missing {path name : String} {names way : List String}
    (missing : disk.locate path = .error .missing) (noSlash : path.toList.getLast? ≠ some '/')
    (named : Path.segments path = names ++ [name])
    (taken : names.foldlM disk.step (disk.start path) = .ok way) :
    disk.step way name = .error .missing := by
  have noFault := pathFault?_of_locate_eq_missing (by simp [named]) missing
  have all : (segments path).foldlM disk.step (disk.start path) = disk.step way name := by
    rw [segments_of_getLast?_ne noSlash, named, foldlM_step_concat taken]
  cases last : disk.step way name with
  | error fault =>
      simp only [locate, noFault, all, last] at missing
      exact missing
  | ok next =>
      have located := locate_eq_ok_iff.mpr
        ⟨noFault, by rw [all, last, List.reverse_reverse], isSome_at?_of_step last⟩
      rw [located] at missing
      cases missing

/-- A file with a new name is where its path leads. -/
theorem locate_apply_of_new {path name : String} {names way : List String}
    {entries : List (String × FileTree)} (content : ByteArray)
    (isDirectory : disk.tree.at? way.reverse = some (.directory entries))
    (missing : disk.locate path = .error .missing) (noSlash : path.toList.getLast? ≠ some '/')
    (named : Path.segments path = names ++ [name])
    (taken : names.foldlM disk.step (disk.start path) = .ok way) :
    (disk.apply (.write (name :: way).reverse content)).locate path = .ok (name :: way).reverse ∧
      disk.tree.at? (name :: way).reverse = none := by
  have noFault := pathFault?_of_locate_eq_missing (by simp [named]) missing
  obtain ⟨follows, short, absent⟩ := of_step_eq_missing isDirectory
    (step_of_locate_eq_missing missing noSlash named taken)
  have free : disk.tree.at? (name :: way).reverse = none := by
    rw [List.reverse_cons, FileTree.at?_concat isDirectory, absent]
  refine ⟨?_, free⟩
  let later := disk.apply (.write (name :: way).reverse content)
  have grows : FileTree.Grows disk.tree later.tree :=
    FileTree.grows_put (.file content) (by rw [free]; nofun)
  have there : later.tree.at? (name :: way).reverse = some (.file content) :=
    FileTree.at?_put (.file content) _ disk.tree
  obtain ⟨tree, isDirectory', still⟩ := grows _ _ isDirectory
  match tree, isDirectory', still rfl with
  | .directory entries', isDirectory', _ =>
      have last : later.step way name = .ok (name :: way) := by
        refine step_eq_ok_iff.mpr ⟨follows.symm, entries', isDirectory', .inr (.inr ⟨short, ?_⟩)⟩
        rw [← FileTree.at?_concat isDirectory', ← List.reverse_cons, there]
        rfl
      refine locate_eq_ok_iff.mpr ⟨noFault, ?_, by rw [there]; rfl⟩
      have taken' : names.foldlM later.step (disk.start path) = .ok way :=
        foldlM_step_of_grows grows taken
      rw [segments_of_getLast?_ne noSlash, named, List.reverse_reverse]
      exact (foldlM_step_concat taken' name).trans last

/-- A file that could be written is where its path leads afterwards. -/
theorem locate_apply_of_write {path : String} {content : ByteArray} {change : Change}
    (written : disk.write path content = .ok change) :
    ∃ place, change = .write place content ∧ (disk.apply change).locate path = .ok place ∧
      ∀ tree ∈ disk.tree.at? place, tree.isDirectory = false := by
  unfold write at written
  split at written
  · next place located =>
    split at written
    · next old found =>
      obtain rfl := Except.ok.inj written
      have noDirectory : ∀ tree ∈ disk.tree.at? place, tree.isDirectory = false := by
        rintro tree member
        rw [found] at member
        obtain rfl := Option.some.inj member
        rfl
      exact ⟨place, rfl, locate_apply_of_locate content noDirectory located, noDirectory⟩
    · cases written
  · next missing =>
    split at written
    · cases written
    · next name names reversed =>
      split at written
      · cases written
      · next way taken =>
        split at written
        · next entries isDirectory =>
          split at written
          · cases written
          · next noSlash =>
            obtain rfl := Except.ok.inj written
            have named : Path.segments path = names.reverse ++ [name] := by
              rw [← List.reverse_cons, ← reversed, List.reverse_reverse]
            obtain ⟨located, free⟩ :=
              locate_apply_of_new content isDirectory missing noSlash named taken
            exact ⟨_, rfl, located, by rw [free]; nofun⟩
        · cases written
        · cases written
  · cases written

theorem find?_of_locate {path : String} {place : List String}
    (located : disk.locate path = .ok place) : disk.find? path = disk.tree.at? place := by
  rw [find?, located]

/-- **What is written can be read** under the same path. -/
theorem find?_apply_of_write {path : String} {content : ByteArray} {change : Change}
    (written : disk.write path content = .ok change) :
    (disk.apply change).find? path = some (.file content) := by
  obtain ⟨place, rfl, located, -⟩ := locate_apply_of_write written
  rw [find?_of_locate located]
  exact FileTree.at?_put (.file content) place disk.tree

theorem isFile_of_find? {path : String} {content : ByteArray}
    (found : disk.find? path = some (.file content)) : disk.isFile path = true := by
  rw [isFile, found]

/-- Where a file is found, its content can be read. -/
theorem read_of_find? {path : String} {content : ByteArray}
    (found : disk.find? path = some (.file content)) : disk.read path = .ok content := by
  unfold find? at found
  unfold read
  split at found
  · cases found
  · next place located =>
    simp only [found]

end Disk

end PhpTestIndex
