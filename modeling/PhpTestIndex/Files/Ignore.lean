import PhpTestIndex.Files.Glob
import PhpTestIndex.Path
import PhpTestIndex.Text.Blank

/-!
# Ignore rules

A line of an ignore file is a rule on paths: it says which paths are passed over, or after `!` which
ones are kept.  A pattern with a slash is seen from the directory of its rules and one without from
everywhere below it; a slash at the end asks for a directory.  Of the rules for a path the last one
counts.
-/

namespace PhpTestIndex

/-- What rules say about a path. -/
inductive Verdict
  | ignored
  | kept
deriving DecidableEq, Repr

/-- A rule on paths. -/
structure IgnoreRule where
  glob : Glob
  verdict : Verdict
  /-- The rule is on directories only. -/
  onDirectories : Bool
deriving Repr

namespace IgnoreRule

/-- The text of a line without the blanks at its end, unless the last of them is escaped. -/
def lineText (line : List Char) : List Char :=
  if ['\\', ' '].isSuffixOf line then line else Text.trimEnd line

/-- Take off the marks that a rule begins with: whether it keeps paths, whether it is seen from the
directory of the rules, and the pattern. -/
def marks (text : List Char) : Verdict × Bool × List Char :=
  let anchor (verdict : Verdict) (text : List Char) : Verdict × Bool × List Char :=
    match text with
    | '/' :: rest => (verdict, true, rest)
    | text => (verdict, false, text)
  match text with
  | '\\' :: '!' :: rest => (.ignored, false, '!' :: rest)
  | '\\' :: '#' :: rest => (.ignored, false, '#' :: rest)
  | '!' :: rest => anchor .kept rest
  | text => anchor .ignored text

/-- Take off the slash at the end, with a backslash before it, and say whether there was one. -/
def endSlash (text : List Char) : Bool × List Char :=
  match Text.before? ['/'] text with
  | none => (false, text)
  | some text => (true, (Text.before? ['\\'] text).getD text)

/-- The pattern begins with any directories. -/
def hasAnyStart (pattern : List Char) : Bool :=
  ['*', '*', '/'].isPrefixOf pattern || pattern == ['*', '*']

/-- The pattern as it is seen from the directory of the rules. -/
def fullPattern (isAnchored : Bool) (pattern : List Char) : List Char :=
  let start :=
    if !isAnchored && !pattern.contains '/' && !hasAnyStart pattern then
      ['*', '*', '/'] ++ pattern
    else pattern
  if ['/', '*', '*'].isSuffixOf start then start ++ ['/', '*'] else start

/-- The rule in a line, if it holds any. -/
def ofLine? (isLenient : Bool) (line : List Char) : Except GlobFault (Option IgnoreRule) :=
  if line.head? = some '#' then .ok none
  else
    let text := lineText line
    if text.isEmpty then .ok none
    else
      let (verdict, isAnchored, body) := marks text
      let (onDirectories, pattern) := endSlash body
      match Glob.read isLenient (fullPattern isAnchored pattern) with
      | .error fault => .error fault
      | .ok glob => .ok (some ⟨glob, verdict, onDirectories⟩)

/-- A rule is on a path. -/
def applies (rule : IgnoreRule) (path : String) (isDirectory : Bool) : Bool :=
  (isDirectory || !rule.onDirectories) && rule.glob.isMatch path

end IgnoreRule

/-- Rules that are seen from a directory. -/
structure IgnoreRules where
  /-- The directory as it is written at the start of the paths. -/
  root : String
  rules : List IgnoreRule

namespace IgnoreRules

/-- A path without `./` at its start. -/
def dropHere (path : String) : String :=
  match Text.after? ['.', '/'] path.toList with
  | none => path
  | some rest => String.ofList rest

/-- A path as it is seen from the directory of some rules, if it lies in it. -/
def within (root path : String) : String :=
  let path := dropHere path
  if root = "." || !path.toList.contains '/' then path
  else
    match Text.after? root.toList path.toList with
    | none => path
    | some ('/' :: rest) => String.ofList rest
    | some rest => String.ofList rest

/-- What the rules say about a path; the last rule on it counts. -/
def verdict? (rules : IgnoreRules) (path : String) (isDirectory : Bool) : Option Verdict :=
  let path := within rules.root path
  (rules.rules.reverse.find? fun rule => rule.applies path isDirectory).map fun rule =>
    rule.verdict

/-- The lines of a file up to the first that is not text. -/
def textLines (content : ByteArray) : List (List Char) :=
  let bytes := content.toList
  let pieces := (bytes.splitOn 10).map fun line => String.fromUTF8? line.toByteArray
  (pieces.takeWhile Option.isSome).filterMap fun line => line.map fun line =>
    (Text.before? ['\r'] line.toList).getD line.toList

/-- Drop marks of the byte order at the start of the first line. -/
def dropOrderMark : List (List Char) → List (List Char)
  | [] => []
  | line :: rest => line.dropWhile (· == '\uFEFF') :: rest

/-- The rules in some lines, and the lines that cannot be read. -/
def ofLines (isLenient : Bool) (root : String) (lines : List (List Char)) :
    IgnoreRules × List (List Char × GlobFault) :=
  let read := lines.map fun line => (line, IgnoreRule.ofLine? isLenient line)
  let rule? : List Char × Except GlobFault (Option IgnoreRule) → Option IgnoreRule
    | (_, .ok rule) => rule
    | (_, .error _) => none
  let fault? : List Char × Except GlobFault (Option IgnoreRule) → Option (List Char × GlobFault)
    | (line, .error fault) => some (IgnoreRule.lineText line, fault)
    | (_, .ok _) => none
  (⟨dropHere root, read.filterMap rule?⟩, read.filterMap fault?)

/-- The rules in an ignore file, and the lines that cannot be read. -/
def ofFile (root : String) (content : ByteArray) :
    IgnoreRules × List (List Char × GlobFault) :=
  ofLines true root (dropOrderMark (textLines content))

end IgnoreRules

end PhpTestIndex
