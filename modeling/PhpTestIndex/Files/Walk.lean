import PhpTestIndex.Files.Ignore
import PhpTestIndex.Files.Tree

/-! # Walking through directories

A walk gives the paths of the files below a directory.  What the rules of the walk pass over does
not occur, and nothing below it; then the ignore files count that stand in the directories above,
the nearest first; and a name with a dot at its start is passed over unless a rule keeps it.

Rules for repositories count only inside a repository, and those above its root do not.
-/

namespace PhpTestIndex

/-- The ignore files of a directory. -/
structure IgnoreLevel where
  /-- The directory lies above the one that is walked through, so its rules are on absolute
  paths. -/
  isAbove : Bool
  own : IgnoreRules
  repository : IgnoreRules
  /-- The rules that are kept beside a repository. -/
  exclude : IgnoreRules
  isRepository : Bool

/-- A path that a walk comes to. -/
structure WalkStep where
  /-- The path as it is written. -/
  path : String
  place : List String
  isDirectory : Bool

/-- Why a walk is not possible: a line that is not a rule. -/
structure WalkFault where
  line : String
  fault : GlobFault
deriving DecidableEq, Repr

/-- What is said about a walk that is not possible. -/
def WalkFault.message (fault : WalkFault) : String :=
  "error parsing glob '" ++ fault.line ++ "': " ++ fault.fault.message

namespace IgnoreLevel

/-- The places of the ignore files in a directory: its own, that of a repository and the one that is
kept beside a repository. -/
def filePlaces : List String × List String × List String :=
  ([".ignore"], [".gitignore"], [".git", "info", "exclude"])

/-- The rules in a file of a directory, and the lines that are not rules. -/
def rulesIn (root : String) (place : List String) (tree : FileTree) :
    IgnoreRules × List (List Char × GlobFault) :=
  match tree.at? place with
  | some (.file content) => IgnoreRules.ofFile root content
  | _ => (⟨IgnoreRules.dropHere root, []⟩, [])

/-- The ignore files of a directory, and their lines that are not rules. -/
def ofDirectory (isAbove : Bool) (root : String) (tree : FileTree) :
    IgnoreLevel × List WalkFault :=
  let (ownPlace, repositoryPlace, excludePlace) := filePlaces
  let (own, ownFaults) := rulesIn root ownPlace tree
  let (repository, repositoryFaults) := rulesIn root repositoryPlace tree
  let (exclude, excludeFaults) := rulesIn root excludePlace tree
  (⟨isAbove, own, repository, exclude, (tree.at? [".git"]).isSome⟩,
    (ownFaults ++ repositoryFaults ++ excludeFaults).map fun (line, fault) =>
      ⟨String.ofList line, fault⟩)

/-- What some rules of a level say. -/
def verdictOf? (level : IgnoreLevel) (rules : IgnoreRules) (step : WalkStep) : Option Verdict :=
  rules.verdict? (if level.isAbove then Path.ofLocation step.place else step.path) step.isDirectory

/-- The levels up to the root of the nearest repository; none if there is no repository. -/
def repositoryLevels (levels : List IgnoreLevel) : List IgnoreLevel :=
  match levels.findIdx? isRepository with
  | none => []
  | some index => levels.take (index + 1)

/-- What the levels say, the nearest first. -/
def verdict? (levels : List IgnoreLevel) (step : WalkStep) : Option Verdict :=
  let inRepository := repositoryLevels levels
  ((levels.findSome? fun level => level.verdictOf? level.own step).or
    (inRepository.findSome? fun level => level.verdictOf? level.repository step)).or
    (inRepository.findSome? fun level => level.verdictOf? level.exclude step)

/-- The levels of the directories above a place, the nearest first, and their lines that are not
rules. -/
def above (tree : FileTree) : List String → List IgnoreLevel × List WalkFault
  | [] => ([], [])
  | _ :: way =>
    let place := way.reverse
    let (level, faults) :=
      ofDirectory true (Path.ofLocation place) ((tree.at? place).getD .empty)
    let (levels, more) := above tree way
    (level :: levels, more ++ faults)

end IgnoreLevel

/-- A name that is hidden. -/
def isHiddenName (name : String) : Bool :=
  name.toList.head? = some '.'

/-- A walk passes over what stands under a name; the rules of the walk itself come first, then the
levels, the nearest first. -/
def isPassedOver (rules : IgnoreRules) (levels : List IgnoreLevel) (name : String)
    (step : WalkStep) : Bool :=
  let step := { step with path := IgnoreRules.dropHere step.path }
  match (rules.verdict? step.path step.isDirectory).or (IgnoreLevel.verdict? levels step) with
  | some .ignored => true
  | some .kept => false
  | none => isHiddenName name

mutual

/-- The paths of the files in a tree that is written as `path`, without those that are passed
over. -/
def FileTree.walk (rules : IgnoreRules) (levels : List IgnoreLevel) (path : String)
    (place : List String) : FileTree → List String
  | .file _ => [path]
  | .directory entries =>
    let level := (IgnoreLevel.ofDirectory false path (.directory entries)).1
    FileTree.walkEntries rules (level :: levels) path place entries

/-- The paths of the files among what a directory holds. -/
def FileTree.walkEntries (rules : IgnoreRules) (levels : List IgnoreLevel) (path : String)
    (place : List String) : List (String × FileTree) → List String
  | [] => []
  | (name, tree) :: rest =>
    let inner := Path.join path name
    let innerPlace := place ++ [name]
    (if isPassedOver rules levels name ⟨inner, innerPlace, tree.isDirectory⟩ then []
      else FileTree.walk rules levels inner innerPlace tree) ++
      FileTree.walkEntries rules levels path place rest

end

/-- The rules that pass over what has one of some patterns, seen from a directory.  A pattern stands
where a rule has it after its `!`. -/
def IgnoreRules.ofPatterns (root : String) (patterns : List String) :
    IgnoreRules × List WalkFault :=
  let (rules, faults) := ofLines false root (patterns.map fun pattern => '!' :: pattern.toList)
  (⟨rules.root, rules.rules.map fun rule => { rule with verdict := .ignored }⟩,
    faults.map fun (line, fault) => ⟨String.ofList line, fault⟩)

/-- The paths of the files below a directory without those that have one of the patterns; a line
that is not a rule is a fault if it is one of the patterns or stands above the directory. -/
def Disk.walk (disk : Disk) (patterns : List String) (path : String) :
    Except WalkFault (List String) :=
  match disk.locate path with
  | .error _ => .ok []
  | .ok place =>
    let (rules, faults) := IgnoreRules.ofPatterns path patterns
    let (levels, more) := IgnoreLevel.above disk.tree place.reverse
    match faults ++ more with
    | fault :: _ => .error fault
    | [] => .ok (FileTree.walk rules levels path place ((disk.tree.at? place).getD .empty))

end PhpTestIndex
