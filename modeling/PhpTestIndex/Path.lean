import PhpTestIndex.Text.Piece

/-!
# Paths

A path is a text with slashes between its segments.  Empty segments do not count, nor does `.`
except as the first segment of a relative path.  `Path.location` is the place that a path means,
seen from a directory: the names on the way from the root, with `..` taken back.
-/

namespace PhpTestIndex.Path

/-- The path begins at the root. -/
def isAbsolute (path : String) : Bool :=
  path.toList.head? = some '/'

/-- The segments of a path that are not empty. -/
def segments (path : String) : List String :=
  ((Text.split '/' path.toList).filter fun segment => !segment.isEmpty).map String.ofList

/-- The segments that count. -/
def components (path : String) : List String :=
  match segments path with
  | [] => []
  | first :: rest =>
    if first = "." && !isAbsolute path then "." :: rest.filter (· ≠ ".")
    else (first :: rest).filter (· ≠ ".")

/-- The path that `path` means inside a directory. -/
def join (directory path : String) : String :=
  if isAbsolute path then path
  else if directory = "" then path
  else if directory.toList.getLast? = some '/' then directory ++ path
  else directory ++ "/" ++ path

/-- Take one more segment on the way from the root; the way is given from its end. -/
def follow (way : List String) (segment : String) : List String :=
  if segment = "." then way
  else if segment = ".." then way.tail
  else segment :: way

/-- The names on the way from the root to the place that segments mean. -/
def resolve (segments : List String) : List String :=
  (segments.foldl follow []).reverse

/-- The names on the way from the root to the place that a path means. -/
def location (directory path : String) : List String :=
  resolve (segments (join directory path))

/-- The absolute path of a place. -/
def ofLocation (names : List String) : String :=
  "/" ++ Text.join "/" names

/-- The names that lead from one place to another below it. -/
def below? : List String → List String → Option (List String)
  | [], names => some names
  | _ :: _, [] => none
  | first :: root, name :: names => if first = name then below? root names else none

/-- The path of what holds the last component of a path, if there is a name or a step to drop. -/
def parent? (path : String) : Option String :=
  match components path with
  | [] => none
  | parts => some ((if isAbsolute path then "/" else "") ++ Text.join "/" parts.dropLast)

/-- The file name at the end of a path. -/
def fileName? (path : String) : Option String :=
  (components path).getLast?.filter fun name => name ≠ "." && name ≠ ".."

/-- Drop what two lists have in common at their start. -/
def dropCommon : List String → List String → List String × List String
  | first :: here, name :: names =>
    if first = name then dropCommon here names else (first :: here, name :: names)
  | here, names => (here, names)

/-- An absolute path as it is seen from a place, by way of the directories above it. -/
def seenFrom (place : List String) (path : String) : List String :=
  let (up, down) := dropCommon place (components path)
  List.replicate up.length ".." ++ down

/-- The shorter way to write an absolute path: as it is, or as it is seen from a place. -/
def shorter (place : List String) (path : String) : String :=
  let seen := seenFrom place path
  if seen.length < (components path).length + 1 then Text.join "/" seen else path

/-- What paths are ordered by: their components, the root before `.`, `.` before `..` and `..`
before names. -/
def orderKey (path : String) : List String :=
  (if isAbsolute path then ["0"] else []) ++ (components path).map fun part =>
    if part = "." then "1" else if part = ".." then "2" else "3" ++ part

/-- A path stands before another one or has the same components. -/
def precedes (path other : String) : Bool :=
  !(orderKey other).lex (orderKey path) fun part next => decide (part < next)

/-- A path and those after it, without those that have the components of the one before. -/
def dropRepeated (path : String) : List String → List String
  | [] => [path]
  | next :: rest =>
    if orderKey path = orderKey next then dropRepeated path rest
    else path :: dropRepeated next rest

/-- Some paths in order, each once. -/
def sorted (paths : List String) : List String :=
  match paths.mergeSort precedes with
  | [] => []
  | path :: rest => dropRepeated path rest

/-- A file name without its last extension; a dot at its start begins no extension. -/
def stem (name : String) : String :=
  match (name.toList.reverse.dropWhile fun c => c != '.') with
  | [] => name
  | [_] => name
  | _ :: before => String.ofList before.reverse

end PhpTestIndex.Path
