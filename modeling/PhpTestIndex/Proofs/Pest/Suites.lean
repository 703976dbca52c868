import PhpTestIndex.Pest.Name
import PhpTestIndex.Proofs.Path.Spelling

/-! # Which suite a file is

The suite of a file is named after the location of the file and the root, however these are spelled,
and after the names from the root to the file, without the last extension
(`PhpTestIndex.Pest.syntheticClass_isNamedAfter_iff`). The exceptions are files whose name becomes
`.` or `..` when the extension is taken off: these are no names, and are dropped.
-/

namespace PhpTestIndex

namespace Path

variable {name rest : String}

/-- What is left of a file name without its last extension. A dot at the start of the name begins no
extension. -/
inductive IsStem : String → String → Prop
  | extended {stem extension : String} (occupied : stem ≠ "") (last : '.' ∉ extension.toList) :
      IsStem (stem ++ "." ++ extension) stem
  | whole {name : String} (noExtension : '.' ∉ name.toList.tail) : IsStem name name

/-- A name without its last extension is its stem. -/
theorem stem_extended {stem extension : String} (occupied : stem ≠ "")
    (last : '.' ∉ extension.toList) : Path.stem (stem ++ "." ++ extension) = stem := by
  have passed := Text.bne_of_not_mem (mt List.mem_reverse.mp last)
  have found : (stem ++ "." ++ extension).toList.reverse.dropWhile (fun c => c != '.') =
      '.' :: stem.toList.reverse := by
    simp [List.dropWhile_append_of_pos passed]
  obtain ⟨c, before, split⟩ : ∃ c before, stem.toList.reverse = c :: before :=
    List.exists_cons_of_ne_nil (by simpa using occupied)
  rw [Path.stem, found, split]
  change String.ofList (c :: before).reverse = stem
  rw [← split, List.reverse_reverse, String.ofList_toList]

/-- A name without a period after its first character is its own stem. -/
theorem stem_of_not_mem_tail (noExtension : '.' ∉ name.toList.tail) : stem name = name := by
  cases split : name.toList with
  | nil => simp [stem, split]
  | cons c rest =>
      rw [split, List.tail_cons] at noExtension
      have passed := Text.bne_of_not_mem (mt List.mem_reverse.mp noExtension)
      rw [stem, split, List.reverse_cons, List.dropWhile_append_of_pos passed]
      by_cases isDot : c = '.' <;> simp [isDot]

/-- Every file name can be taken apart at the dot before its last extension, if it has one. -/
theorem isStem_stem (name : String) : IsStem name (stem name) := by
  by_cases noExtension : '.' ∉ name.toList.tail
  · rw [stem_of_not_mem_tail noExtension]
    exact .whole noExtension
  · rw [not_not, ← List.mem_reverse] at noExtension
    obtain ⟨extension, before, split, last⟩ := List.eq_append_cons_of_mem noExtension
    obtain ⟨c, chars⟩ : ∃ c, name.toList = c :: (before.reverse ++ '.' :: extension.reverse) := by
      cases whole : name.toList with
      | nil => simp [whole] at split
      | cons c rest =>
          rw [whole, List.tail_cons, List.reverse_eq_iff] at split
          exact ⟨c, by simp [split]⟩
    obtain rfl : name =
        String.ofList (c :: before.reverse) ++ "." ++ String.ofList extension.reverse :=
      String.toList_injective (by simp [chars])
    have occupied : String.ofList (c :: before.reverse) ≠ "" := by simp
    have last' : '.' ∉ (String.ofList extension.reverse).toList := by simpa using last
    rw [stem_extended occupied last']
    exact .extended occupied last'

/-- Taking off the last extension leaves what the definition of an extension says. -/
theorem isStem_iff : IsStem name rest ↔ stem name = rest := by
  constructor
  · intro isStem
    cases isStem with
    | extended occupied last => exact stem_extended occupied last
    | whole noExtension => exact stem_of_not_mem_tail noExtension
  · rintro rfl
    exact isStem_stem name

/-- What is below a directory is what its location goes on with. -/
theorem below?_append (root names : List String) : below? root (root ++ names) = some names := by
  induction root with
  | nil => rfl
  | cons first root ih => rw [List.cons_append, below?, if_pos rfl, ih]

/-- Nothing else is below it. -/
theorem below?_eq_none {root names : List String} (outside : ¬ root <+: names) :
    below? root names = none := by
  induction root generalizing names with
  | nil => exact absurd List.nil_prefix outside
  | cons first root ih =>
      cases names with
      | nil => rfl
      | cons name names =>
          rw [below?]
          split
          · rename_i same
            subst same
            exact ih fun isPrefix => outside (List.cons_prefix_cons.mpr ⟨rfl, isPrefix⟩)
          · rfl

end Path

namespace Pest

variable {directory root file last stem : String} {above place names : List String}

/-- What is called `.` or `..` without its extension has no name left. -/
def IsNoName (stem : String) : Prop :=
  stem = "." ∨ stem = ".."

instance (stem : String) : Decidable (IsNoName stem) :=
  inferInstanceAs (Decidable (stem = "." ∨ stem = ".."))

/-- The full name of a suite that is called after some names. -/
def fullName (names : List String) : String :=
  Text.join "\\" (suiteNamespace :: names.map Text.capitalize)

/-- A suite with its namespace is named after the names from the root to a file, if the file is
below the root, and after the file alone if it is neither the root nor below it. The last extension
does not count, and every name begins in upper case. -/
structure IsNamedAfter (above place : List String) (suite : String × String) : Prop where
  below : ∀ names last stem, place = above ++ (names ++ [last]) → Path.IsStem last stem →
    suite.1 ++ "\\" ++ suite.2 = fullName (names ++ [stem])
  outside : ∀ names last stem, ¬ above <+: place → place = names ++ [last] →
    Path.IsStem last stem → suite = (suiteNamespace, Text.capitalize stem)
  nowhere : ¬ above <+: place → place = [] → suite = (suiteNamespace, "")

/-- A file has a name of its own without its extension, or is the root. -/
def HasOwnName (above place : List String) : Prop :=
  place = above ∨
    ∀ names last stem, place = names ++ [last] → Path.IsStem last stem → ¬ IsNoName stem

/-- A file has a name of its own unless its stem is no name; the root itself counts as having one.
-/
theorem hasOwnName_iff : HasOwnName above place ↔
    place = above ∨ ∀ last ∈ place.getLast?, ¬ IsNoName (Path.stem last) := by
  refine or_congr_right ⟨fun own last ends => ?_, fun own names last stem isFile isStem => ?_⟩
  · obtain ⟨names, isFile⟩ := List.getLast?_eq_some_iff.mp ends
    exact own names last _ isFile (Path.isStem_stem last)
  · rw [← Path.isStem_iff.mp isStem]
    exact own last (by rw [isFile, List.getLast?_concat]; rfl)

instance (above place : List String) : Decidable (HasOwnName above place) :=
  decidable_of_iff _ hasOwnName_iff.symm

/-- One name more follows the others with a separator, in upper case. -/
theorem fullName_concat (names : List String) (last : String) :
    fullName (names ++ [last]) = fullName names ++ "\\" ++ Text.capitalize last := by
  rw [fullName, fullName, Text.join, Text.join, List.map_append, List.map_singleton,
    ← List.cons_append, String.intercalate_append_of_ne_nil (by simp) (by simp)]
  rfl

theorem capitalize_of_isNoName (noName : IsNoName stem) : Text.capitalize stem ≠ "" := by
  rcases noName with rfl | rfl <;> decide +kernel

/-- The names after which a suite is called, if the last one without its extension is a name. -/
theorem suiteSegments_concat (isStem : Path.IsStem last stem)
    (found : (Path.below? above place).getD place.getLast?.toList = names ++ [last]) :
    suiteSegments above place = if IsNoName stem then names else names ++ [stem] := by
  rw [suiteSegments, found, ← Path.isStem_iff.mp isStem]
  by_cases noName : IsNoName (Path.stem last)
  · rcases noName with here | there
    · simp [here, IsNoName]
    · simp [there, IsNoName]
  · rw [if_neg noName]
    rw [IsNoName, not_or] at noName
    simp [noName]

/-- The class of a file is its last name, and its namespace has the names before it. -/
theorem syntheticClass_eq (segments : suiteSegments (Path.location directory root)
    (Path.location directory file) = names) :
    syntheticClass directory root file =
      (fullName names.dropLast, (names.getLast?.map Text.capitalize).getD "") := by
  rw [syntheticClass, segments, fullName, List.map_dropLast, List.getLast?_map]

/-- The suite of a file without a name left is called after the names above the file only. -/
theorem fullName_ne_of_isNoName (noName : IsNoName stem) :
    fullName names.dropLast ++ "\\" ++ (names.getLast?.map Text.capitalize).getD "" ≠
      fullName (names ++ [stem]) := by
  intro same
  rw [fullName_concat] at same
  rcases List.eq_nil_or_concat' names with rfl | ⟨first, last, rfl⟩
  · exact capitalize_of_isNoName noName ((String.append_right_inj _).mp same).symm
  · rw [List.dropLast_concat, List.getLast?_concat, Option.map_some, Option.getD_some,
      ← fullName_concat, String.append_assoc, eq_comm, String.append_eq_left_iff] at same
    simp at same

/-- Below the root, a suite has the full name of the names from the root exactly if the file has a
name left. -/
theorem fullName_below_iff (isBelow : Path.location directory file =
      Path.location directory root ++ (names ++ [last])) (isStem : Path.IsStem last stem) :
    (syntheticClass directory root file).1 ++ "\\" ++ (syntheticClass directory root file).2 =
      fullName (names ++ [stem]) ↔ ¬ IsNoName stem := by
  have found : (Path.below? (Path.location directory root) (Path.location directory file)).getD
      (Path.location directory file).getLast?.toList = names ++ [last] := by
    rw [isBelow, Path.below?_append, Option.getD_some]
  rw [syntheticClass_eq (suiteSegments_concat isStem found)]
  by_cases noName : IsNoName stem
  · rw [if_pos noName]
    exact iff_of_false (fullName_ne_of_isNoName noName) (not_not_intro noName)
  · rw [if_neg noName, List.dropLast_concat, List.getLast?_concat, Option.map_some,
      Option.getD_some, fullName_concat]
    exact iff_of_true rfl noName

/-- Outside the root, a suite is called after the file alone exactly if the file has a name left. -/
theorem suite_outside_iff
    (isOutside : ¬ Path.location directory root <+: Path.location directory file)
    (isFile : Path.location directory file = names ++ [last]) (isStem : Path.IsStem last stem) :
    syntheticClass directory root file = (suiteNamespace, Text.capitalize stem) ↔
      ¬ IsNoName stem := by
  have found : (Path.below? (Path.location directory root) (Path.location directory file)).getD
      (Path.location directory file).getLast?.toList = [] ++ [last] := by
    rw [Path.below?_eq_none isOutside, isFile, List.getLast?_concat]
    rfl
  have common : fullName [] = suiteNamespace := rfl
  rw [syntheticClass_eq (suiteSegments_concat isStem found)]
  by_cases noName : IsNoName stem
  · rw [if_pos noName]
    refine iff_of_false (fun same => ?_) (not_not_intro noName)
    exact capitalize_of_isNoName noName (congrArg Prod.snd same).symm
  · rw [if_neg noName, List.nil_append, List.dropLast_singleton, common]
    exact iff_of_true rfl noName

/-- A file that is the root of the file system gives no name at all. -/
theorem suite_nowhere
    (isOutside : ¬ Path.location directory root <+: Path.location directory file)
    (isRoot : Path.location directory file = []) :
    syntheticClass directory root file = (suiteNamespace, "") := by
  have found :
      suiteSegments (Path.location directory root) (Path.location directory file) = [] := by
    rw [suiteSegments, Path.below?_eq_none isOutside, isRoot]
    rfl
  rw [syntheticClass_eq found]
  rfl

/-- **A suite is named after where its file is.** Other spellings of the root and the file make no
difference to the name of the suite, which is made of the names from the root to the file exactly if
the file is called something other than `.` or `..` without its extension. -/
theorem syntheticClass_isNamedAfter_iff (isAbove : Path.isAbsolute directory) (root file : String) :
    (∀ root' file', Path.Respelled directory root root' → Path.Respelled directory file file' →
      syntheticClass directory root' file' = syntheticClass directory root file) ∧
    (IsNamedAfter (Path.location directory root) (Path.location directory file)
        (syntheticClass directory root file) ↔
      HasOwnName (Path.location directory root) (Path.location directory file)) := by
  refine ⟨fun root' file' sameRoot sameFile => ?_, fun isNamed => ?_, fun own => ?_⟩
  · rw [syntheticClass, syntheticClass, sameRoot.location_eq isAbove, sameFile.location_eq isAbove]
  · by_cases isRoot : Path.location directory file = Path.location directory root
    · exact .inl isRoot
    refine .inr fun names last stem isFile isStem => ?_
    by_cases isBelow : Path.location directory root <+: Path.location directory file
    · obtain ⟨rest, split⟩ := isBelow
      rcases List.eq_nil_or_concat' rest with rfl | ⟨names', last', rfl⟩
      · exact absurd (split.symm.trans (List.append_nil _)) isRoot
      · obtain rfl : last' = last := by
          simpa using congrArg List.getLast? (split.trans isFile)
        exact (fullName_below_iff split.symm isStem).mp (isNamed.below _ _ _ split.symm isStem)
    · exact (suite_outside_iff isBelow isFile isStem).mp
        (isNamed.outside _ _ _ isBelow isFile isStem)
  · rcases own with isRoot | own
    · have isPrefix : Path.location directory root <+: Path.location directory file :=
        isRoot ▸ List.prefix_rfl
      refine ⟨fun names last stem isBelow _ => ?_, fun _ _ _ isOutside => absurd isPrefix isOutside,
        fun isOutside => absurd isPrefix isOutside⟩
      have longer := congrArg List.length (isRoot.symm.trans isBelow)
      simp at longer
    · refine ⟨fun names last stem isBelow isStem => ?_,
        fun names last stem isOutside isFile isStem =>
          (suite_outside_iff isOutside isFile isStem).mpr (own names last stem isFile isStem),
        suite_nowhere⟩
      have isFile : Path.location directory file =
          Path.location directory root ++ names ++ [last] := by rw [isBelow, List.append_assoc]
      exact (fullName_below_iff isBelow isStem).mpr (own _ last stem isFile isStem)

/-- A file whose path goes back and forth is named as its location says. -/
theorem smokeTest_isNamedAfter :
    (∀ root' file', Path.Respelled "/home/me" "." root' →
        Path.Respelled "/home/me" "tests/../tests//unit/Smoke.test.php" file' →
      syntheticClass "/home/me" root' file' = ("P\\Tests\\Unit", "Smoke.test")) ∧
    IsNamedAfter ["home", "me"] ["home", "me", "tests", "unit", "Smoke.test.php"]
      ("P\\Tests\\Unit", "Smoke.test") := by
  have isSuite : syntheticClass "/home/me" "." "tests/../tests//unit/Smoke.test.php" =
      ("P\\Tests\\Unit", "Smoke.test") := by decide +kernel
  have above : Path.location "/home/me" "." = ["home", "me"] := by decide +kernel
  have place : Path.location "/home/me" "tests/../tests//unit/Smoke.test.php" =
      ["home", "me", "tests", "unit", "Smoke.test.php"] := by decide +kernel
  have ⟨spelled, named⟩ := @syntheticClass_isNamedAfter_iff "/home/me" (by decide +kernel) "."
    "tests/../tests//unit/Smoke.test.php"
  rw [isSuite, above, place] at named
  rw [isSuite] at spelled
  exact ⟨spelled, named.mpr (by decide +kernel)⟩

/-- **A file name that is dots without its extension is dropped.** The suite of the file `...php` in
the directory `tests` is called after the directory. -/
theorem dotsFile_not_isNamedAfter :
    syntheticClass "/" "/project" "/project/tests/...php" = ("P", "Tests") ∧
    ¬ IsNamedAfter (Path.location "/" "/project") (Path.location "/" "/project/tests/...php")
      (syntheticClass "/" "/project" "/project/tests/...php") := by
  have isSuite : syntheticClass "/" "/project" "/project/tests/...php" = ("P", "Tests") := by
    decide +kernel
  refine ⟨isSuite, fun named => ?_⟩
  have isStem : Path.IsStem "...php" ".." := Path.isStem_iff.mpr (by decide +kernel)
  have asked := named.below ["tests"] "...php" ".." (by decide +kernel) isStem
  have isAsked : fullName ["tests", ".."] = "P\\Tests\\.." := by decide +kernel
  rw [isSuite] at asked
  exact absurd (asked.trans isAsked) (by decide +kernel)

end Pest

end PhpTestIndex
