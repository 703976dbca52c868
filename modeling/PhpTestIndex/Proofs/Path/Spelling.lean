import Mathlib.Data.List.Basic
import Mathlib.Logic.Relation
import PhpTestIndex.Path
import PhpTestIndex.Proofs.Text.Piece

/-! # Spellings of a path

A path can be spelled in many ways: from the root or from the current directory, with slashes more
than one, with segments `.`, with names that are taken back by `..`, and with steps up from the root
(`PhpTestIndex.Path.Respells`). Seen from a directory, two paths mean the same location exactly if
one is another spelling of the other (`PhpTestIndex.Path.respelled_iff_location_eq`).
-/

namespace PhpTestIndex.Path

variable {directory path path' name : String}

/-- The name of a step on the way from the root: a segment that means neither the place itself nor
the one above. -/
structure IsName (name : String) : Prop where
  occupied : name ≠ ""
  whole : '/' ∉ name.toList
  notHere : name ≠ "."
  notAbove : name ≠ ".."

/-! ### Segments -/

/-- A slash between two paths puts their segments together. -/
theorem segments_append (before after : String) :
    segments (before ++ "/" ++ after) = segments before ++ segments after := by
  have cut : (before ++ "/" ++ after).toList = before.toList ++ '/' :: after.toList := by simp
  rw [segments, cut, Text.split_append, List.filter_append, List.map_append, segments, segments]

/-- A name is a path of one segment. -/
theorem segments_of_isName (isName : IsName name) : segments name = [name] := by
  rw [segments, Text.split_of_not_mem isName.whole]
  simp [isName.occupied]

/-- A slash at the end adds no segment. -/
theorem segments_append_slash (path : String) : segments (path ++ "/") = segments path := by
  calc
    segments (path ++ "/") = segments (path ++ "/" ++ "") := by rw [String.append_empty]
    _ = segments path ++ [] := segments_append path ""
    _ = segments path := List.append_nil _

/-- A path from the root begins with a slash. -/
theorem exists_of_isAbsolute (fromRoot : isAbsolute path) : ∃ rest, path = "/" ++ rest := by
  obtain ⟨rest, split⟩ := List.head?_eq_some_iff.mp (of_decide_eq_true fromRoot)
  refine ⟨String.ofList rest, String.toList_injective ?_⟩
  rw [split, String.toList_append, String.toList_ofList, String.toList_ofList,
    List.singleton_append]

/-- Whether a path begins at the root shows in what stands before its first slash. -/
theorem isAbsolute_append (before after : String) :
    isAbsolute (before ++ "/" ++ after) = (before = "" || isAbsolute before) := by
  have start : before = "" ↔ before.toList = [] := String.toList_eq_nil_iff.symm
  simp only [isAbsolute, String.toList_append, start]
  cases before.toList <;> simp

/-- A slash behind a path makes it start at the root only if nothing else is there. -/
theorem isAbsolute_append_slash (path : String) :
    isAbsolute (path ++ "/") = (path = "" || isAbsolute path) := by
  simpa using isAbsolute_append path ""

/-- The segments of a path inside a directory. -/
theorem segments_join (isAbove : isAbsolute directory) (path : String) :
    segments (join directory path) =
      (if isAbsolute path then [] else segments directory) ++ segments path := by
  unfold join
  split
  · rfl
  · split
    · rename_i empty
      simp [empty, isAbsolute] at isAbove
    · split
      · rename_i slashAtEnd
        obtain ⟨before, split⟩ := List.getLast?_eq_some_iff.mp slashAtEnd
        obtain rfl : directory = String.ofList before ++ "/" :=
          String.toList_injective (by simp [split])
        rw [segments_append, segments_append_slash]
      · rw [segments_append]

/-- The way to what a path means is that of its segments, after those of the directory if the path
does not begin at the root. -/
theorem location_eq (isAbove : isAbsolute directory) (path : String) :
    location directory path =
      resolve ((if isAbsolute path then [] else segments directory) ++ segments path) := by
  rw [location, segments_join isAbove]

/-! ### Spellings -/

/-- A part of a path that leads nowhere. -/
inductive IsIdle : String → Prop
  | nothing : IsIdle ""
  | here : IsIdle "."
  | pair {name : String} (isName : IsName name) : IsIdle (name ++ "/" ++ "..")

/-- A path is spelled with more than before: with the current directory, a slash at its end, a part
that leads nowhere, or a step up from the root. -/
inductive Respells (directory : String) : String → String → Prop
  | fromRoot {path : String} (relative : ¬ isAbsolute path) :
      Respells directory path (directory ++ "/" ++ path)
  | slashAtEnd {path : String} (occupied : path ≠ "") : Respells directory path (path ++ "/")
  | idle (before after : String) {part : String} (isIdle : IsIdle part) :
      Respells directory (before ++ "/" ++ after) (before ++ "/" ++ part ++ "/" ++ after)
  | aboveRoot (after : String) : Respells directory ("/" ++ after) ("/../" ++ after)

/-- One path is another spelling of another: each can be had from the other by spelling paths with
more or with less. -/
def Respelled (directory : String) : String → String → Prop :=
  Relation.EqvGen (Respells directory)

/-- What leads nowhere does not count on the way to a place. -/
theorem resolve_append_idle {part : String} (isIdle : IsIdle part) (before after : List String) :
    resolve (before ++ segments part ++ after) = resolve (before ++ after) := by
  cases isIdle with
  | nothing =>
      have empty : segments "" = [] := rfl
      rw [empty, List.append_nil]
  | here =>
      have step : segments "." = ["."] := rfl
      simp [step, resolve, follow]
  | pair isName =>
      have back : segments ".." = [".."] := rfl
      rw [segments_append, segments_of_isName isName, back]
      simp [resolve, follow, isName.notHere, isName.notAbove]

/-- There is no way up from the root. -/
theorem resolve_above (after : List String) : resolve (".." :: after) = resolve after := by
  simp [resolve, follow]

/-- Spelling a path with more leads to the same place. -/
theorem Respells.location_eq (isAbove : isAbsolute directory)
    (respells : Respells directory path path') :
    location directory path = location directory path' := by
  rw [Path.location_eq isAbove, Path.location_eq isAbove]
  cases respells with
  | fromRoot relative =>
      have fromRoot : isAbsolute (directory ++ "/" ++ path) := by
        rw [isAbsolute_append, isAbove, Bool.or_true]
      rw [if_neg relative, if_pos fromRoot, segments_append, List.nil_append]
  | slashAtEnd occupied =>
      rw [segments_append_slash, isAbsolute_append_slash]
      simp [occupied]
  | idle before after isIdle =>
      rename_i part
      have isSame : isAbsolute (before ++ "/" ++ part ++ "/" ++ after) =
          isAbsolute (before ++ "/" ++ after) := by
        simp only [isAbsolute_append, String.append_eq_empty_iff]
        simp
      rw [isSame, segments_append, segments_append, segments_append, ← List.append_assoc,
        ← List.append_assoc, ← List.append_assoc, resolve_append_idle isIdle]
  | aboveRoot after =>
      have up : segments ("/../" ++ after) = ".." :: segments after :=
        segments_append "/.." after
      have down : segments ("/" ++ after) = segments after := segments_append "" after
      rw [up, down]
      simp [isAbsolute, resolve_above]

/-- Spellings of one another lead to the same place. -/
theorem Respelled.location_eq (isAbove : isAbsolute directory)
    (respelled : Respelled directory path path') :
    location directory path = location directory path' := by
  induction respelled with
  | rel path path' respells => exact respells.location_eq isAbove
  | refl path => rfl
  | symm path path' _ ih => exact ih.symm
  | trans path between path' _ _ first second => exact first.trans second

/-! ### Every path is spelled from the root -/

/-- Some pieces of a path, with a slash after each. -/
def trail (pieces : List String) : String :=
  pieces.foldr (fun piece rest => piece ++ "/" ++ rest) ""

@[simp] theorem trail_nil : trail [] = "" := rfl

@[simp] theorem trail_cons (piece : String) (rest : List String) :
    trail (piece :: rest) = piece ++ "/" ++ trail rest := rfl

/-- Trails follow one another. -/
theorem trail_append (first second : List String) :
    trail (first ++ second) = trail first ++ trail second := by
  induction first with
  | nil => rw [List.nil_append, trail_nil, String.empty_append]
  | cons piece rest ih =>
      rw [List.cons_append, trail_cons, trail_cons, ih, ← String.append_assoc]

/-- One more name at the end of a path along names. -/
theorem trail_concat (names : List String) (last : String) :
    trail (names ++ [last]) = trail names ++ last ++ "/" := by
  rw [trail_append, trail_cons, trail_nil, String.append_empty, String.append_assoc]

/-- The pieces of a path between its slashes. -/
theorem exists_trail (path : String) :
    ∃ pieces, (∀ piece ∈ pieces, '/' ∉ piece.toList) ∧ path ++ "/" = trail pieces := by
  refine ⟨(Text.split '/' path.toList).map String.ofList, ?_, ?_⟩
  · intro piece member
    obtain ⟨chars, present, rfl⟩ := List.mem_map.mp member
    rw [String.toList_ofList]
    exact Text.not_mem_of_mem_split present
  · have spelled (pieces : List (List Char)) : (trail (pieces.map String.ofList)).toList =
        pieces.flatMap fun piece => piece ++ ['/'] := by
      induction pieces with
      | nil => rfl
      | cons piece rest ih =>
          rw [List.map_cons, trail_cons, String.toList_append, String.toList_append, ih,
            String.toList_ofList, List.flatMap_cons]
          rfl
    refine String.toList_injective ?_
    rw [spelled, Text.flatMap_split, String.toList_append]
    rfl

/-- A path from the root along some names ends with a slash. -/
theorem exists_slash_of_trail (names : List String) :
    ∃ before, "/" ++ trail names = before ++ "/" := by
  rcases List.eq_nil_or_concat' names with rfl | ⟨first, last, rfl⟩
  · exact ⟨"", rfl⟩
  · refine ⟨"/" ++ trail first ++ last, ?_⟩
    rw [trail_concat, String.append_assoc, String.append_assoc, String.append_assoc]

/-- The segments of a trail of names are the names. -/
theorem segments_trail {names : List String} (isName : ∀ name ∈ names, IsName name) :
    segments (trail names) = names := by
  induction names with
  | nil => rfl
  | cons name rest ih =>
      obtain ⟨first, others⟩ := List.forall_mem_cons.mp isName
      rw [trail_cons, segments_append, segments_of_isName first, ih others, List.singleton_append]

/-- Names lead where they say, with nothing to resolve. -/
theorem resolve_of_isName {names : List String} (isName : ∀ name ∈ names, IsName name) :
    resolve names = names := by
  have along (way : List String) : names.foldl follow way = names.reverse ++ way := by
    induction names generalizing way with
    | nil => rfl
    | cons name rest ih =>
        obtain ⟨first, others⟩ := List.forall_mem_cons.mp isName
        rw [List.foldl_cons, ih others, follow, if_neg first.notHere, if_neg first.notAbove,
          List.reverse_cons, List.append_assoc, List.singleton_append]
  rw [resolve, along, List.append_nil, List.reverse_reverse]

/-- A path from the root along names means the place at the end of them. -/
theorem location_trail {names : List String} (isName : ∀ name ∈ names, IsName name)
    (directory : String) : location directory ("/" ++ trail names) = names := by
  have fromRoot : isAbsolute ("/" ++ trail names) := by simp [isAbsolute]
  have named : segments ("/" ++ trail names) = segments (trail names) :=
    segments_append "" (trail names)
  rw [location, join, if_pos fromRoot, named, segments_trail isName, resolve_of_isName isName]

/-- Pieces that follow a path along names are names as well, or can be spelled with less. -/
theorem exists_respelled_trail (directory : String) (pieces names : List String)
    (whole : ∀ piece ∈ pieces, '/' ∉ piece.toList) (isName : ∀ name ∈ names, IsName name) :
    ∃ names', (∀ name ∈ names', IsName name) ∧
      Respelled directory ("/" ++ trail names ++ trail pieces) ("/" ++ trail names') := by
  induction pieces generalizing names with
  | nil =>
      refine ⟨names, isName, ?_⟩
      rw [trail_nil, String.append_empty]
      exact .refl _
  | cons piece rest ih =>
      obtain ⟨wholePiece, wholeRest⟩ := List.forall_mem_cons.mp whole
      -- A piece that is spelled with more than the names that are left goes the way of the rest.
      have shorter {left : List String} (isName : ∀ name ∈ left, IsName name)
          (respells : Respells directory ("/" ++ trail left ++ trail rest)
            ("/" ++ trail names ++ trail (piece :: rest))) :
          ∃ names', (∀ name ∈ names', IsName name) ∧
            Respelled directory ("/" ++ trail names ++ trail (piece :: rest))
              ("/" ++ trail names') := by
        obtain ⟨names', isName', respelled⟩ := ih left wholeRest isName
        exact ⟨names', isName', .trans _ _ _ (.symm _ _ (.rel _ _ respells)) respelled⟩
      have idle {left : List String} {part : String} (isIdle : IsIdle part)
          (longer : "/" ++ trail names ++ trail (piece :: rest) =
            "/" ++ trail left ++ part ++ "/" ++ trail rest) :
          Respells directory ("/" ++ trail left ++ trail rest)
            ("/" ++ trail names ++ trail (piece :: rest)) := by
        obtain ⟨before, slash⟩ := exists_slash_of_trail left
        rw [longer, slash]
        exact .idle before (trail rest) isIdle
      by_cases empty : piece = ""
      · subst empty
        exact shorter isName (idle .nothing (by simp [String.append_assoc]))
      by_cases here : piece = "."
      · subst here
        exact shorter isName (idle .here (by simp [String.append_assoc]))
      by_cases above : piece = ".."
      · subst above
        rcases List.eq_nil_or_concat' names with rfl | ⟨first, last, rfl⟩
        · exact @shorter [] (by simp) (.aboveRoot (trail rest))
        · obtain ⟨isNameFirst, isNameLast⟩ := List.forall_mem_append.mp isName
          refine shorter isNameFirst (idle (.pair (isNameLast last (by simp))) ?_)
          rw [trail_concat, trail_cons]
          simp only [String.append_assoc]
      · have isNamePiece : IsName piece := ⟨empty, wholePiece, here, above⟩
        obtain ⟨names', isName', respelled⟩ := ih (names ++ [piece]) wholeRest
          (List.forall_mem_append.mpr ⟨isName, by simpa using isNamePiece⟩)
        refine ⟨names', isName', ?_⟩
        rw [trail_concat] at respelled
        rw [trail_cons]
        simpa only [String.append_assoc] using respelled

/-- Every path is another spelling of a path from the root along names. -/
theorem exists_respelled (isAbove : isAbsolute directory) (path : String) :
    ∃ names, (∀ name ∈ names, IsName name) ∧ Respelled directory path ("/" ++ trail names) := by
  have fromRoot (rest : String) : ∃ names, (∀ name ∈ names, IsName name) ∧
      Respelled directory ("/" ++ rest) ("/" ++ trail names) := by
    obtain ⟨pieces, whole, spelled⟩ := exists_trail rest
    obtain ⟨names, isName, respelled⟩ := exists_respelled_trail directory pieces [] whole (by simp)
    have slashAtEnd : Respells directory ("/" ++ rest) ("/" ++ trail [] ++ trail pieces) := by
      rw [← spelled, trail_nil, String.append_empty, ← String.append_assoc]
      exact .slashAtEnd (by simp)
    exact ⟨names, isName, .trans _ _ _ (.rel _ _ slashAtEnd) respelled⟩
  by_cases isFromRoot : isAbsolute path
  · obtain ⟨rest, rfl⟩ := exists_of_isAbsolute isFromRoot
    exact fromRoot rest
  · obtain ⟨rest, split⟩ := exists_of_isAbsolute isAbove
    obtain ⟨names, isName, respelled⟩ := fromRoot (rest ++ "/" ++ path)
    have spelled : Respelled directory (directory ++ "/" ++ path) ("/" ++ trail names) := by
      simpa only [split, String.append_assoc] using respelled
    exact ⟨names, isName, .trans _ _ _ (.rel _ _ (.fromRoot isFromRoot)) spelled⟩

/-- **Paths mean the same place exactly if they are spellings of one another.** -/
theorem respelled_iff_location_eq (isAbove : isAbsolute directory) :
    Respelled directory path path' ↔ location directory path = location directory path' := by
  refine ⟨Respelled.location_eq isAbove, fun same => ?_⟩
  obtain ⟨names, isName, respelled⟩ := exists_respelled isAbove path
  obtain ⟨names', isName', respelled'⟩ := exists_respelled isAbove path'
  have place := respelled.location_eq isAbove
  have place' := respelled'.location_eq isAbove
  rw [location_trail isName] at place
  rw [location_trail isName', ← same, place] at place'
  subst place'
  exact .trans _ _ _ respelled (.symm _ _ respelled')

end PhpTestIndex.Path
