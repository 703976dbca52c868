/-! # Patterns of paths

A `Glob` is a pattern of paths: `?` stands for a byte and `*` for any bytes, but not for a slash;
`**` between slashes stands for any directories; brackets hold a set of characters and braces
alternatives. `Glob.read` reads a pattern and `Glob.isMatch` says whether a path has it.

Paths are compared byte by byte.  A part of a pattern is matched by giving what may be left of a
path after it, so a pattern matches if nothing may be left after its last part.
-/

namespace PhpTestIndex

/-- A part of a pattern. -/
inductive Glob.Part
  | literal (c : Char)
  /-- A byte that is not a slash. -/
  | anyByte
  /-- Bytes that are not slashes. -/
  | anyName
  /-- A byte in a set, or outside it; a range goes from its first character to its last. -/
  | oneOf (isNegated : Bool) (ranges : List (Char × Char))
  /-- Any directories at the start, with the slash after them. -/
  | anyStart
  /-- Any directories between two slashes. -/
  | anyMiddle
  /-- A slash and anything after it. -/
  | anyEnd
  | choice (branches : List (List Glob.Part))
deriving Inhabited, Repr

/-- A pattern of paths. -/
structure Glob where
  parts : List Glob.Part
deriving Inhabited, Repr

/-- Why a pattern cannot be read. -/
inductive GlobFault
  | unclosedSet
  | invalidRange (first last : Char)
  | unopenedChoice
  | unclosedChoice
  | danglingEscape
deriving DecidableEq, Repr

/-- What is said about a pattern that cannot be read. -/
def GlobFault.message : GlobFault → String
  | unclosedSet => "unclosed character class; missing ']'"
  | invalidRange first last =>
    "invalid range; '" ++ first.toString ++ "' > '" ++ last.toString ++ "'"
  | unopenedChoice =>
    "unopened alternate group; missing '\x7b' (maybe escape '\x7d' with '[\x7d]'?)"
  | unclosedChoice =>
    "unclosed alternate group; missing '\x7d' (maybe escape '\x7b' with '[\x7b]'?)"
  | danglingEscape => "dangling '\\'"

namespace Glob

/-! ## Matching -/

/-- The byte of a slash. -/
def slash : UInt8 :=
  47

/-- The bytes of a character. -/
def bytesOf (c : Char) : List UInt8 :=
  c.toString.toUTF8.toList

/-- What follows the bytes of a character. -/
def afterBytes? : List UInt8 → List UInt8 → Option (List UInt8)
  | [], path => some path
  | _ :: _, [] => none
  | byte :: bytes, first :: path => if byte = first then afterBytes? bytes path else none

/-- A byte is in a range of characters: among the bytes of its ends, or between the last byte of the
first character and the first byte of the last one. -/
def isInRange (byte : UInt8) (range : Char × Char) : Bool :=
  let first := bytesOf range.1
  let last := bytesOf range.2
  first.contains byte || last.contains byte ||
    (range.1 != range.2 && first.getLast?.any (· ≤ byte) && last.head?.any (byte ≤ ·))

/-- What may be left after bytes that are not slashes. -/
def afterName : List UInt8 → List (List UInt8)
  | [] => [[]]
  | byte :: path => (byte :: path) :: (if byte = slash then [] else afterName path)

/-- What may be left after any bytes. -/
def afterAnything : List UInt8 → List (List UInt8)
  | [] => [[]]
  | byte :: path => (byte :: path) :: afterAnything path

/-- What follows the slashes. -/
def afterSlashes : List UInt8 → List (List UInt8)
  | [] => []
  | byte :: path => (if byte = slash then [path] else []) ++ afterSlashes path

mutual

/-- A part that says nothing: a group whose branches are all empty. -/
def Part.isVacuous : Part → Bool
  | .choice branches => areVacuous branches
  | _ => false

/-- A branch that says nothing. -/
def isVacuousBranch : List Part → Bool
  | [] => true
  | part :: parts => part.isVacuous && isVacuousBranch parts

/-- Branches none of which says anything. -/
def areVacuous : List (List Part) → Bool
  | [] => true
  | branch :: branches => isVacuousBranch branch && areVacuous branches

end

mutual

/-- What may be left of a path after a part of a pattern. -/
def Part.rests (path : List UInt8) : Part → List (List UInt8)
  | .literal c => (afterBytes? (bytesOf c) path).toList
  | .anyByte =>
    match path with
    | [] => []
    | byte :: rest => if byte = slash then [] else [rest]
  | .anyName => afterName path
  | .oneOf isNegated ranges =>
    match path with
    | [] => []
    | byte :: rest => if ranges.any (isInRange byte) != isNegated then [rest] else []
  | .anyStart => path :: afterSlashes path
  | .anyMiddle =>
    match path with
    | [] => []
    | byte :: rest => if byte = slash then rest :: afterSlashes rest else []
  | .anyEnd =>
    match path with
    | [] => []
    | byte :: rest => if byte = slash then afterAnything rest else []
  | .choice branches =>
    if areVacuous branches then [path] else branchRests path branches

/-- What may be left after the parts of a pattern. -/
def partsRests (paths : List (List UInt8)) : List Part → List (List UInt8)
  | [] => paths
  | part :: parts => partsRests (paths.flatMap fun path => part.rests path).eraseDups parts

/-- What may be left after one of some branches; a branch that says nothing does not count. -/
def branchRests (path : List UInt8) : List (List Part) → List (List UInt8)
  | [] => []
  | branch :: branches =>
    (if isVacuousBranch branch then [] else partsRests [path] branch) ++
      branchRests path branches

end

/-- A path has a pattern; `**` alone is the pattern of every path. -/
def isMatch (glob : Glob) (path : String) : Bool :=
  match glob.parts with
  | [.anyStart] => true
  | parts => (partsRests [path.toUTF8.toList] parts).any List.isEmpty

/-! ## Reading -/

/-- Add a character to a set, as one of its own or as the end of the range that is open. -/
def addToSet (isOpen : Bool) (c : Char) (ranges : List (Char × Char)) :
    Except GlobFault (List (Char × Char)) :=
  match isOpen, ranges with
  | true, (first, _) :: rest =>
    if c < first then .error (.invalidRange first c) else .ok ((first, c) :: rest)
  | _, ranges => .ok ((c, c) :: ranges)

/-- Read what is left of a set up to its bracket, with its ranges from last to first; gives none if
there is no bracket. -/
def set? (isFirst isOpen : Bool) (ranges : List (Char × Char)) :
    List Char → Except GlobFault (Option (List (Char × Char) × List Char))
  | [] => .ok none
  | c :: rest =>
    if c = ']' && !isFirst then
      .ok (some ((if isOpen then ('-', '-') :: ranges else ranges).reverse, rest))
    else if c = '-' && !isFirst && !isOpen then set? false true ranges rest
    else
      match addToSet isOpen c ranges with
      | .error fault => .error fault
      | .ok ranges => set? false false ranges rest

/-- Read a set after its opening bracket. -/
def oneOf? (chars : List Char) : Except GlobFault (Option (Part × List Char)) :=
  let isNegated := chars.head? = some '!' || chars.head? = some '^'
  match set? true false [] (if isNegated then chars.drop 1 else chars) with
  | .error fault => .error fault
  | .ok none => .ok none
  | .ok (some (ranges, rest)) => .ok (some (.oneOf isNegated ranges, rest))

/-- A pattern that is being read. -/
structure Draft where
  /-- The parts of the branch that is open, from last to first. -/
  parts : List Part
  /-- The groups around it, the innermost first: the branches before it and the parts before the
  group, both from last to first. -/
  groups : List (List (List Part) × List Part)
  /-- The character before. -/
  before : Option Char

namespace Draft

/-- Add a part that ends with a character. -/
def add (draft : Draft) (part : Part) (last : Char) : Draft :=
  { draft with parts := part :: draft.parts, before := some last }

/-- Open a group. -/
def openGroup (draft : Draft) : Draft :=
  ⟨[], ([], draft.parts) :: draft.groups, some '\x7b'⟩

/-- Begin the next branch of a group; outside groups a comma is a comma. -/
def nextBranch (draft : Draft) : Draft :=
  match draft.groups with
  | [] => draft.add (.literal ',') ','
  | (branches, outer) :: groups =>
    ⟨[], (draft.parts.reverse :: branches, outer) :: groups, some ','⟩

/-- Close a group. -/
def closeGroup (draft : Draft) : Except GlobFault Draft :=
  match draft.groups with
  | [] => .error .unopenedChoice
  | (branches, outer) :: groups =>
    .ok ⟨.choice (draft.parts.reverse :: branches).reverse :: outer, groups, some '\x7d'⟩

/-- Two stars that do not stand between slashes. -/
def addTwoStars (draft : Draft) : Draft :=
  (draft.add .anyName '*').add .anyName '*'

/-- Two stars between slashes take the slash before them; the slash after them is `last`. -/
def addDirectories (draft : Draft) (part : Part) (last : Char) : Draft :=
  match draft.parts with
  | .anyStart :: _ => { draft with before := some last }
  | .anyEnd :: _ => { draft with before := some last }
  | parts => { draft with parts := part :: parts.tail, before := some last }

/-- Add two stars; gives the text that is left after them. -/
def addStars (draft : Draft) (rest : List Char) : Draft × List Char :=
  let isInGroup := !draft.groups.isEmpty
  match draft.parts, rest with
  | [], [] => (draft.add .anyStart '*', [])
  | [], '/' :: rest => (draft.add .anyStart '/', rest)
  | [], rest => (draft.addTwoStars, rest)
  | _ :: _, rest =>
    let isAfterMark :=
      draft.before = some '/' ||
        (isInGroup && (draft.before = some ',' || draft.before = some '\x7b'))
    if !isAfterMark then (draft.addTwoStars, rest)
    else
      match rest with
      | [] => (draft.addDirectories .anyEnd '*', [])
      | '/' :: rest => (draft.addDirectories .anyMiddle '/', rest)
      | c :: rest =>
        if isInGroup && (c = ',' || c = '\x7d') then
          (draft.addDirectories .anyEnd '*', c :: rest)
        else (draft.addTwoStars, c :: rest)

/-- Read what is left of a pattern.  Where `isLenient` holds, a bracket that is not closed stands
for itself. -/
def read (isLenient : Bool) : Nat → Draft → List Char → Except GlobFault Draft
  | 0, draft, _ => .ok draft
  | _ + 1, draft, [] => .ok draft
  | fuel + 1, draft, c :: rest =>
    match c, rest with
    | '?', rest => read isLenient fuel (draft.add .anyByte '?') rest
    | '*', '*' :: rest =>
      let (draft, rest) := draft.addStars rest
      read isLenient fuel draft rest
    | '*', rest => read isLenient fuel (draft.add .anyName '*') rest
    | '[', rest =>
      match oneOf? rest with
      | .error fault => .error fault
      | .ok (some (part, rest)) => read isLenient fuel (draft.add part ']') rest
      | .ok none =>
        if isLenient then read isLenient fuel (draft.add (.literal '[') '[') rest
        else .error .unclosedSet
    | '\x7b', rest => read isLenient fuel draft.openGroup rest
    | '\x7d', rest =>
      match draft.closeGroup with
      | .error fault => .error fault
      | .ok draft => read isLenient fuel draft rest
    | ',', rest => read isLenient fuel draft.nextBranch rest
    | '\\', [] => .error .danglingEscape
    | '\\', c :: rest => read isLenient fuel (draft.add (.literal c) c) rest
    | c, rest => read isLenient fuel (draft.add (.literal c) c) rest

end Draft

/-- Read a pattern. -/
def read (isLenient : Bool) (text : List Char) : Except GlobFault Glob :=
  match Draft.read isLenient (text.length + 1) ⟨[], [], none⟩ text with
  | .error fault => .error fault
  | .ok draft =>
    if draft.groups.isEmpty then .ok ⟨draft.parts.reverse⟩ else .error .unclosedChoice

end Glob

end PhpTestIndex
