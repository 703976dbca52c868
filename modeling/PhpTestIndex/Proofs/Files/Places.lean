import PhpTestIndex.Proofs.Files.Writing
import PhpTestIndex.Proofs.Path.Spelling

/-! # Places below the current directory

A relative path leads to the same place from the current directory as it does when it is written
from the root (`PhpTestIndex.Disk.locate_of_fromRoot`), and it is what is shown of the longer path
(`PhpTestIndex.Path.shorter_join`).
-/

namespace PhpTestIndex

namespace Path

variable {names : List String} {path : String}

theorem isAbsolute_ofLocation (names : List String) : isAbsolute (ofLocation names) = true := by
  simp [isAbsolute, ofLocation]

/-- A path that is made from a location has its names for segments. -/
theorem segments_ofLocation (isName : ∀ name ∈ names, IsName name) :
    segments (ofLocation names) = names := by
  have joined : segments (Text.join "/" names) = names := by
    induction names with
    | nil => rfl
    | cons name rest ih =>
        obtain ⟨first, others⟩ := List.forall_mem_cons.mp isName
        cases rest with
        | nil =>
            rw [Text.join, String.intercalate_singleton]
            exact segments_of_isName first
        | cons next rest =>
            rw [Text.join, String.intercalate_cons_cons, segments_append, segments_of_isName first]
            exact congrArg (name :: ·) (ih others)
  have cut : segments (ofLocation names) = segments "" ++ segments (Text.join "/" names) :=
    segments_append "" (Text.join "/" names)
  rw [cut, joined]
  rfl

/-- A path from the root is not empty. -/
theorem ne_empty_of_isAbsolute (fromRoot : isAbsolute path = true) : path ≠ "" := by
  rintro rfl
  cases fromRoot

/-- What is joined to a path from the root starts at the root. -/
theorem isAbsolute_join (isAbove : isAbsolute path = true) (inner : String) :
    isAbsolute (join path inner) = true := by
  obtain ⟨rest, rfl⟩ := exists_of_isAbsolute isAbove
  unfold join
  split
  · assumption
  · split
    · next empty => simp at empty
    · split <;> simp [isAbsolute]

/-- A path below a place has the names of the place before its own. -/
theorem segments_join_ofLocation (isName : ∀ name ∈ names, IsName name)
    (relative : isAbsolute path = false) :
    segments (join (ofLocation names) path) = names ++ segments path := by
  rw [segments_join (isAbsolute_ofLocation names), relative, if_neg Bool.false_ne_true,
    segments_ofLocation isName]

/-- Joining looks only at the beginning of what is joined. -/
theorem join_append (directory : String) {path : String} (relative : isAbsolute path = false)
    (occupied : path ≠ "") (more : String) :
    join directory (path ++ more) = join directory path ++ more := by
  have stays : isAbsolute (path ++ more) = false := by
    cases written : path.toList with
    | nil => exact absurd (String.toList_eq_nil_iff.mp written) occupied
    | cons c rest => simpa [isAbsolute, written] using relative
  simp only [join, stays, relative, Bool.false_eq_true, if_false]
  split
  · rfl
  · split <;> simp only [String.append_assoc]

/-- In a path from the root, the current directory is no component anywhere. -/
theorem components_of_isAbsolute (fromRoot : isAbsolute path = true) :
    components path = (segments path).filter (· ≠ ".") := by
  unfold components
  split
  · next same => rw [same, List.filter_nil]
  · next same => rw [same, fromRoot, Bool.not_true, Bool.and_false, if_neg Bool.false_ne_true]

/-- A location below another one has nothing left above, and its own names below. -/
theorem dropCommon_append (names rest : List String) :
    dropCommon names (names ++ rest) = ([], rest) := by
  induction names with
  | nil => cases rest <;> rfl
  | cons name names ih => rw [List.cons_append, dropCommon, if_pos rfl, ih]

/-- A path below a place is seen from there as it was before. -/
theorem shorter_join (isName : ∀ name ∈ names, IsName name) (relative : isAbsolute path = false)
    (named : ∀ segment ∈ segments path, segment ≠ ".") :
    shorter names (join (ofLocation names) path) = Text.join "/" (segments path) := by
  have parts : components (join (ofLocation names) path) = names ++ segments path := by
    rw [components_of_isAbsolute (isAbsolute_join (isAbsolute_ofLocation names) path),
      segments_join_ofLocation isName relative, List.filter_eq_self]
    intro part member
    rcases List.mem_append.mp member with above | below
    · simpa using (isName part above).notHere
    · simpa using named part below
  have seen : seenFrom names (join (ofLocation names) path) = segments path := by
    simp only [seenFrom, parts, dropCommon_append, List.length_nil, List.replicate_zero,
      List.nil_append]
  simp only [shorter, seen, parts]
  rw [if_pos (by rw [List.length_append]; omega)]

end Path

namespace Disk

variable {disk : Disk}

/-- Names lead further down, one after another. -/
theorem eq_of_foldlM_step {names way next : List String}
    (isName : ∀ name ∈ names, Path.IsName name) (taken : names.foldlM disk.step way = .ok next) :
    next = names.reverse ++ way := by
  induction names generalizing way with
  | nil => exact (Except.ok.inj taken).symm
  | cons name names ih =>
      obtain ⟨first, others⟩ := List.forall_mem_cons.mp isName
      obtain ⟨middle, step, later⟩ := foldlM_step_cons_iff.mp taken
      obtain ⟨follows, -⟩ := step_eq_ok_iff.mp step
      rw [Path.follow, if_neg first.notHere, if_neg first.notAbove] at follows
      rw [ih others later, follows, List.reverse_cons, List.append_assoc, List.singleton_append]

/-- A path that can be used is not empty. -/
theorem occupied_of_pathFault? {path : String} (proper : pathFault? path = none) : path ≠ "" := by
  rintro rfl
  cases proper

/-- The beginning of a path that can be used can be used. -/
theorem pathFault?_of_append {path more : String} (proper : pathFault? (path ++ more) = none)
    (occupied : path ≠ "") : pathFault? path = none := by
  unfold pathFault? at proper ⊢
  split at proper
  · cases proper
  · next noNull =>
    split at proper
    · cases proper
    · split at proper
      · cases proper
      · next short =>
        rw [String.utf8ByteSize_append] at short
        rw [if_neg (fun inside => noNull (by simp_all)), if_neg occupied, if_neg (by omega)]

/-- A joined path ends like what was joined. -/
theorem getLast?_join (directory : String) {path : String} (occupied : path ≠ "") :
    (Path.join directory path).toList.getLast? = path.toList.getLast? := by
  have last (before : String) : (before ++ path).toList.getLast? = path.toList.getLast? := by
    rw [String.toList_append]
    exact List.getLast?_append_of_ne_nil _ fun empty => occupied (String.toList_eq_nil_iff.mp empty)
  unfold Path.join
  split
  · rfl
  · split
    · rfl
    · split
      · exact last directory
      · exact last (directory ++ "/")

/-- A path below the current directory leads to the same place as it does when it is written from
the root. -/
theorem locate_of_fromRoot {path : String} {place : List String}
    (isName : ∀ name ∈ disk.directory, Path.IsName name) (relative : Path.isAbsolute path = false)
    (proper : pathFault? path = none)
    (located : disk.locate (Path.join (Path.ofLocation disk.directory) path) = .ok place) :
      disk.locate path = .ok place := by
  obtain ⟨-, taken, there⟩ := locate_eq_ok_iff.mp located
  have fromRoot : Path.isAbsolute (Path.join (Path.ofLocation disk.directory) path) = true :=
    Path.isAbsolute_join (Path.isAbsolute_ofLocation _) path
  have inner : segments (Path.join (Path.ofLocation disk.directory) path) =
      disk.directory ++ segments path := by
    rw [segments, segments, Path.segments_join_ofLocation isName relative,
      getLast?_join _ (occupied_of_pathFault? proper), List.append_assoc]
  rw [inner, start, if_pos fromRoot] at taken
  obtain ⟨middle, first, second⟩ := foldlM_step_append_iff.mp taken
  obtain rfl := eq_of_foldlM_step isName first
  rw [List.append_nil] at second
  exact locate_eq_ok_iff.mpr ⟨proper, by rwa [start, relative, if_neg Bool.false_ne_true], there⟩

end Disk

end PhpTestIndex
