import PhpTestIndex.Path

/-! # Trees of files

A `FileTree` is a file or a directory with what it holds.  A place in a tree is the list of the
names on the way from its root.  `FileTree.at?` looks at a place and `FileTree.put` sets what
stands there.

Two things of real disks are left out.  Names are Unicode texts here, while a real name can be any
bytes.  And there is nothing but files and directories, which can always be read: no links, pipes or
devices, no permissions and no failing hardware.  So every fault comes from the form of the tree or of
the path.

A `Disk` is a tree with a current directory, from which paths are seen.  A path is followed segment
by segment, so that every segment before the last one has to be a directory.  What an operation
would change is a list of `Change`s, which `Disk.apply` carries out.
-/

namespace PhpTestIndex

/-- Why a path cannot be used. -/
inductive FileFault
  | missing
  | alreadyThere
  | notDirectory
  | isDirectory
  | nameTooLong
  | invalidName
deriving DecidableEq, Repr

/-- What is said about a path that cannot be used. -/
def FileFault.message : FileFault → String
  | missing => "No such file or directory (os error 2)"
  | alreadyThere => "File exists (os error 17)"
  | notDirectory => "Not a directory (os error 20)"
  | isDirectory => "Is a directory (os error 21)"
  | nameTooLong => "File name too long (os error 36)"
  | invalidName => "file name contained an unexpected NUL byte"

/-- A file, or a directory with what it holds. -/
inductive FileTree
  | file (content : ByteArray)
  | directory (entries : List (String × FileTree))
deriving Inhabited

/-- Set what a name stands for, in its place if it is there and at the end if it is not. -/
def FileTree.replace (name : String) (tree : FileTree) :
    List (String × FileTree) → List (String × FileTree)
  | [] => [(name, tree)]
  | (key, old) :: rest =>
    if key = name then (name, tree) :: rest else (key, old) :: replace name tree rest

namespace FileTree

/-- A directory that holds nothing. -/
def empty : FileTree :=
  directory []

/-- What a directory holds; a file holds nothing. -/
def entries : FileTree → List (String × FileTree)
  | file _ => []
  | directory entries => entries

/-- The tree is a directory. -/
def isDirectory : FileTree → Bool
  | file _ => false
  | directory _ => true

/-- What stands at a place. -/
def at? (tree : FileTree) : List String → Option FileTree
  | [] => some tree
  | name :: place => (tree.entries.lookup name).bind fun child => child.at? place

/-- Set what stands at a place; directories on the way are made, and files on the way give way. -/
def put (new : FileTree) : List String → FileTree → FileTree
  | [], _ => new
  | name :: place, tree =>
    directory (replace name (put new place ((tree.entries.lookup name).getD empty)) tree.entries)

theorem lookup_replace (name : String) (tree : FileTree) (entries : List (String × FileTree)) :
    (replace name tree entries).lookup name = some tree := by
  induction entries with
  | nil => simp [replace]
  | cons entry rest ih =>
    obtain ⟨key, old⟩ := entry
    by_cases h : key = name
    · simp [replace, h]
    · have hne : (name == key) = false := beq_eq_false_iff_ne.mpr (Ne.symm h)
      simp [replace, h, List.lookup_cons, hne, ih]

theorem lookup_replace_of_ne {name other : String} (h : other ≠ name) (tree : FileTree)
    (entries : List (String × FileTree)) :
    (replace name tree entries).lookup other = entries.lookup other := by
  induction entries with
  | nil =>
    have hne : (other == name) = false := by simpa using h
    simp [replace, List.lookup_cons, hne]
  | cons entry rest ih =>
    obtain ⟨key, old⟩ := entry
    have hne : (other == name) = false := by simpa using h
    by_cases hk : key = name
    · subst hk
      simp [replace, List.lookup_cons, hne]
    · simp [replace, hk, List.lookup_cons, ih]

/-- What is put at a place stands there. -/
theorem at?_put (new : FileTree) (place : List String) (tree : FileTree) :
    (put new place tree).at? place = some new := by
  induction place generalizing tree with
  | nil => rfl
  | cons name place ih => simp [put, at?, entries, lookup_replace, ih]

end FileTree

/-- Something that is done to a tree of files. -/
inductive Change
  | makeDirectory (place : List String)
  | write (place : List String) (content : ByteArray)

/-- Files as they are seen from a current directory. -/
structure Disk where
  tree : FileTree
  /-- The place of the current directory. -/
  directory : List String

namespace Disk

/-- Follow one more segment; the way from the root is given from its end. -/
def step (disk : Disk) (way : List String) (segment : String) : Except FileFault (List String) :=
  match disk.tree.at? way.reverse with
  | none => .error .missing
  | some (.file _) => .error .notDirectory
  | some (.directory entries) =>
    if segment = "." ∨ segment = ".." then .ok (Path.follow way segment)
    else if 255 < segment.utf8ByteSize then .error .nameTooLong
    else if (entries.lookup segment).isSome then .ok (Path.follow way segment)
    else .error .missing

/-- The segments of a path; a slash at its end asks for a directory. -/
def segments (path : String) : List String :=
  Path.segments path ++ (if path.toList.getLast? = some '/' then ["."] else [])

/-- The place where a path starts, given from its end. -/
def start (disk : Disk) (path : String) : List String :=
  if Path.isAbsolute path then [] else disk.directory.reverse

/-- A text that is not a path. -/
def pathFault? (path : String) : Option FileFault :=
  if path.toList.contains '\x00' then some .invalidName
  else if path = "" then some .missing
  else if 4095 < path.utf8ByteSize then some .nameTooLong
  else none

/-- The place that a path leads to. -/
def locate (disk : Disk) (path : String) : Except FileFault (List String) :=
  match pathFault? path with
  | some fault => .error fault
  | none =>
    match (segments path).foldlM disk.step (disk.start path) with
    | .error fault => .error fault
    | .ok way =>
      match disk.tree.at? way.reverse with
      | none => .error .missing
      | some _ => .ok way.reverse

/-- What a path leads to. -/
def find? (disk : Disk) (path : String) : Option FileTree :=
  match disk.locate path with
  | .error _ => none
  | .ok place => disk.tree.at? place

/-- The path leads to a directory. -/
def isDirectory (disk : Disk) (path : String) : Bool :=
  match disk.find? path with
  | some (.directory _) => true
  | _ => false

/-- The path leads to a file. -/
def isFile (disk : Disk) (path : String) : Bool :=
  match disk.find? path with
  | some (.file _) => true
  | _ => false

/-- What the file holds that a path leads to. -/
def read (disk : Disk) (path : String) : Except FileFault ByteArray :=
  match disk.locate path with
  | .error fault => .error fault
  | .ok place =>
    match disk.tree.at? place with
    | none => .error .missing
    | some (.directory _) => .error .isDirectory
    | some (.file content) => .ok content

/-- Make the directory that a path leads to the current one. -/
def enter (disk : Disk) (path : String) : Except FileFault Disk :=
  match disk.locate path with
  | .error fault => .error fault
  | .ok place =>
    match disk.tree.at? place with
    | some (.directory _) => .ok { disk with directory := place }
    | _ => .error .notDirectory

/-- Carry out a change. -/
def apply (disk : Disk) : Change → Disk
  | .makeDirectory place => { disk with tree := FileTree.put .empty place disk.tree }
  | .write place content => { disk with tree := FileTree.put (.file content) place disk.tree }

/-- Carry out some changes. -/
def applyAll (disk : Disk) (changes : List Change) : Disk :=
  changes.foldl apply disk

/-- The directories that are missing on a way, and why the way cannot be made if it cannot. -/
def missingDirectories (disk : Disk) :
    List String → List String → List Change × Option FileFault
  | _, [] => ([], none)
  | way, segment :: rest =>
    let next := Path.follow way segment
    match disk.tree.at? next.reverse with
    | some (.directory _) => missingDirectories disk next rest
    | some (.file _) => ([], some (if rest.isEmpty then .alreadyThere else .notDirectory))
    | none =>
      if 255 < segment.utf8ByteSize then ([], some .nameTooLong)
      else
        let change := Change.makeDirectory next.reverse
        let (changes, fault) := missingDirectories (disk.apply change) next rest
        (change :: changes, fault)

/-- Make a directory and those on the way to it that are missing. -/
def makeDirectories (disk : Disk) (path : String) : List Change × Option FileFault :=
  if path.toList.contains '\x00' then ([], some .invalidName)
  else missingDirectories disk (disk.start path) (Path.segments path)

/-- Write a file; the directory that is to hold it has to be there. -/
def write (disk : Disk) (path : String) (content : ByteArray) : Except FileFault Change :=
  match disk.locate path with
  | .ok place =>
    match disk.tree.at? place with
    | some (.file _) => .ok (.write place content)
    | _ => .error .isDirectory
  | .error .missing =>
    match (Path.segments path).reverse with
    | [] => .error .missing
    | name :: way =>
      match way.reverse.foldlM disk.step (disk.start path) with
      | .error fault => .error fault
      | .ok way =>
        match disk.tree.at? way.reverse with
        | some (.directory _) =>
          if path.toList.getLast? = some '/' then .error .isDirectory
          else .ok (.write (name :: way).reverse content)
        | some (.file _) => .error .notDirectory
        | none => .error .missing
  | .error fault => .error fault

end Disk

end PhpTestIndex
