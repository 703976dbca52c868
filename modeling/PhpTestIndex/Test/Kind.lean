/-!
# Kinds of test nodes

The levels of a definition tree.  Each kind has a name, which is also the channel on which nodes of
the kind are announced.
-/

namespace PhpTestIndex

/-- What a node of a definition tree stands for. -/
inductive TestKind
  | namespaceSuite
  | classSuite
  /-- A call that groups tests under a description. -/
  | describe
  | method
  /-- One run of a method with one row of data. -/
  | dataSet
deriving DecidableEq, Repr, Inhabited

namespace TestKind

/-- All kinds, from the outermost level to the innermost. -/
def all : List TestKind :=
  [namespaceSuite, classSuite, describe, method, dataSet]

/-- The name of a kind. -/
def name : TestKind → String
  | namespaceSuite => "namespace"
  | classSuite => "class"
  | describe => "describe"
  | method => "method"
  | dataSet => "data_set"

/-- The name of a kind as it appears in messages about the program itself. -/
def title : TestKind → String
  | namespaceSuite => "Namespace"
  | classSuite => "Class"
  | describe => "Describe"
  | method => "Method"
  | dataSet => "DataSet"

/-- The kind that has a name. -/
def ofName? (name : String) : Option TestKind :=
  if name = "dataset" then some dataSet else all.find? fun kind => kind.name = name

/-- What is said about a name that no kind has. -/
def unknownMessage (name : String) : String :=
  "Unknown test type: " ++ name

theorem ofName?_name (kind : TestKind) : ofName? kind.name = some kind := by
  cases kind <;> decide

end TestKind

end PhpTestIndex
