import PhpTestIndex.Php.Literal
import PhpTestIndex.Test.Identifier

/-!
# Class names and their parents

A class name after `extends` means a class: a leading backslash makes it absolute, an imported name
stands for what was imported, and any other name belongs to the namespace around it.

A `Hierarchy` holds the parents of the classes of a file.  A class is a test case by descent if the
chain of its parents reaches a class whose name ends with `TestCase`.
-/

namespace PhpTestIndex.PhpUnit

/-- The imports of a block, the latest first: a local name and the full name it stands for. -/
abbrev Imports := List (String × String)

/-- The full names of the classes of a file and of their parents, the latest first. -/
abbrev Hierarchy := List (String × Option String)

/-- The full name of a class that is called `name` inside a namespace. -/
def resolveClass (name : String) (inNamespace : Option String) (imports : Imports) : String :=
  match Text.after? ['\\'] name.toList with
  | some absolute => String.ofList absolute
  | none =>
    let first := name.toList.takeWhile fun c => c != '\\'
    let rest := name.toList.dropWhile fun c => c != '\\'
    match imports.lookup (String.ofList first) with
    | some imported => imported ++ String.ofList rest
    | none => Identifier.qualifiedClass inNamespace (some name)

/-- The name ends with `TestCase`, its namespace aside. -/
def isTestCaseName (name : String) : Bool :=
  "TestCase".toList.isSuffixOf (Php.shortName name.toList)

/-- The number of entries whose class was not visited. -/
def Hierarchy.unvisited (hierarchy : Hierarchy) (visited : List String) : Nat :=
  hierarchy.countP fun entry => !visited.contains entry.1

theorem Hierarchy.unvisited_lt {hierarchy : Hierarchy} {visited : List String} {name : String}
    {parent : Option String} (fresh : ¬ visited.contains name = true)
    (entered : hierarchy.lookup name = some parent) :
    hierarchy.unvisited (name :: visited) < hierarchy.unvisited visited := by
  obtain ⟨before, after, rfl, _⟩ := List.lookup_eq_some_iff.mp entered
  have fewer (entries : Hierarchy) :
      entries.unvisited (name :: visited) ≤ entries.unvisited visited := by
    apply List.countP_mono_left
    simp
  have early := fewer before
  have late := fewer after
  unfold unvisited at early late ⊢
  rw [List.countP_append, List.countP_append,
    List.countP_cons_of_neg (by simp), List.countP_cons_of_pos (by simpa using fresh)]
  omega

/-- Follow the parents of a class up to one with the name of a test case: whether there is one, and
the classes that were visited, the latest first.  A class that was visited before ends the way. -/
def Hierarchy.ascend (hierarchy : Hierarchy) (visited : List String) (name : String) :
    Bool × List String :=
  if h : visited.contains name then (false, visited)
  else
    match entered : hierarchy.lookup name with
    | some (some parent) =>
      have := unvisited_lt h entered
      if isTestCaseName parent then (true, name :: visited)
      else hierarchy.ascend (name :: visited) parent
    | _ => (false, name :: visited)
termination_by hierarchy.unvisited visited

/-- The chain of the parents of a class reaches a test case. -/
def Hierarchy.extendsTestCase (hierarchy : Hierarchy) (name : String) : Bool :=
  (hierarchy.ascend [] name).1

/-- The imports that a clause adds: none if it has no name. -/
def importOfClause (document : Php.Document) (clause : Php.Node) : Option (String × String) :=
  let name? := clause.namedChildren.find? fun child =>
    child.kind = .name || child.kind = .qualifiedName
  name?.map fun name =>
    let full := (document.text name).dropWhile fun c => c == '\\'
    let localName := ((clause.child? .localName).map document.text).getD (Php.shortName full)
    (String.ofList localName, String.ofList full)

/-- Add the imports of a declaration; a group of imports adds none. -/
def Imports.add (document : Php.Document) (imports : Imports) (declaration : Php.Node) : Imports :=
  ((declaration.childrenOf .useClause).filterMap (importOfClause document)).reverse ++ imports

end PhpTestIndex.PhpUnit
