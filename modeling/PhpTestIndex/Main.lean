import PhpTestIndex.CommandLine

/-! # The program

The program looks at the files that a request may need, answers the request from what it has seen,
makes the changes and writes the answer.
-/

namespace PhpTestIndex.Program

/-- What stands at a place, without what a directory holds. -/
def lookAt (place : List String) : IO (Option FileTree) := do
  let path := (← IO.currentDir) / Path.ofLocation place
  try
    match (← path.metadata).type with
    | .dir => return some .empty
    | _ => return some (.file (← IO.FS.readBinFile path))
  catch _ => return none

/-- Add what stands at a place to a tree, if the tree does not have it. -/
def addPlace (tree : FileTree) (place : List String) : IO FileTree := do
  match tree.at? place, ← lookAt place with
  | none, some found => return FileTree.put found place tree
  | _, _ => return tree

/-- Add what stands on the way that a path takes from a directory. -/
def addPath (directory : List String) (tree : FileTree) (path : String) : IO FileTree := do
  let mut way := if Path.isAbsolute path then [] else directory.reverse
  let mut tree := tree
  for segment in Path.segments path do
    way := Path.follow way segment
    tree ← addPlace tree way.reverse
  return tree

/-- What stands at a place with all that it holds; only the files that are wanted are read. -/
partial def readTree (isWanted : String → Bool) (place : List String) : IO FileTree := do
  let mut entries := []
  let path := (← IO.currentDir) / Path.ofLocation place
  for entry in ← path.readDir do
    let inner := place ++ [entry.fileName]
    match (← entry.path.symlinkMetadata).type with
    | .dir => entries := (entry.fileName, ← readTree isWanted inner) :: entries
    | .file =>
      let content ←
        if isWanted entry.fileName then IO.FS.readBinFile entry.path else pure ByteArray.empty
      entries := (entry.fileName, .file content) :: entries
    | _ => pure ()
  return .directory entries

/-- Add the ignore files above a place and all that stands at the place itself. -/
def addSearched (settings : Settings) (directory : List String) (tree : FileTree) (path : String) :
    IO FileTree := do
  let mut tree ← addPath directory tree path
  let place := Path.location (Path.ofLocation directory) path
  let (own, repository, exclude) := IgnoreLevel.filePlaces
  for above in Settings.upwards place.reverse do
    for file in [own, repository, exclude] do
      tree ← addPath [] tree (Path.ofLocation (above ++ file))
  let isWanted (name : String) : Bool :=
    settings.search.isTestFile name || [own, repository, exclude].any (·.getLast? = some name)
  if (tree.at? place).any FileTree.isDirectory then
    try tree := FileTree.put (← readTree isWanted place) place tree
    catch _ => pure ()
  return tree

/-- The variables of the environment. -/
def readEnvironment : IO (List (String × String)) := do
  try
    let content ← IO.FS.readBinFile "/proc/self/environ"
    let lines := (content.toList.splitOn 0).filterMap fun line =>
      String.fromUTF8? line.toByteArray
    return lines.map fun line =>
      (String.ofList (line.toList.takeWhile (· != '=')),
        String.ofList ((line.toList.dropWhile (· != '=')).drop 1))
  catch _ => return []

/-- The files that a request may need. -/
def diskFor (request : Request) (environment : List (String × String)) : IO Disk := do
  let directory := Path.location "/" (← IO.currentDir).toString
  let mut tree := FileTree.empty
  tree ← addPath [] tree (Path.ofLocation directory)
  for path in request.settingsPaths directory do
    tree ← addPath directory tree path
  match request.settings ⟨tree, directory⟩ environment with
  | .error _ => pure ()
  | .ok settings =>
    match request.command with
    | .parse file _ => tree ← addPath directory tree file
    | .discover _ _ =>
      for path in settings.searchedDirectories do
        tree ← addSearched settings directory tree path
    | _ => pure ()
  return ⟨tree, directory⟩

/-- Make a change. -/
def perform (change : Change) : IO Unit :=
  match change with
  | .makeDirectory place => IO.FS.createDirAll (Path.ofLocation place)
  | .write place content => IO.FS.writeBinFile (Path.ofLocation place) content

/-- Answer a request, and make the changes that it asks for. -/
def answer (request : Request) : IO Written := do
  let environment ← readEnvironment
  let disk ← diskFor request environment
  let (written, changes) := request.run disk environment
  try
    changes.forM perform
    return written
  catch fault => return request.refuse (.config (toString fault))

end PhpTestIndex.Program

open PhpTestIndex in
/-- Answer the arguments of the program. -/
def main (arguments : List String) : IO UInt32 := do
  let written ← match Request.read arguments with
    | .error guidance => pure guidance.written
    | .ok request => Program.answer request
  IO.print written.output
  IO.eprint written.errors
  return UInt32.ofNat written.code.number
