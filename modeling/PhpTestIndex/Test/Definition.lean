import PhpTestIndex.Source.Position
import PhpTestIndex.Test.Identifier
import PhpTestIndex.Test.Kind

/-!
# Test definitions

A `Definition` is a node of the tree that describes the tests of a file: a suite, a test or a data
set, with where it stands and how it is marked.  Its identifier comes from the names of the
namespace, the class and the method; its label is free.

`Definition.nodes` lists a tree from the root down, siblings in order.
-/

namespace PhpTestIndex

/-- The marks on a test that matter for running it, as they are written. -/
structure Annotations where
  dataProvider : List String
  depends : List String
  group : List String
  testdox : List String
  /-- Rows of data that stand with the test itself. -/
  testWith : List String
  skipped : Bool
  incomplete : Bool
deriving DecidableEq, Repr

namespace Annotations

/-- A test without marks. -/
def none : Annotations :=
  ⟨[], [], [], [], [], false, false⟩

instance : Inhabited Annotations :=
  ⟨none⟩

/-- There is no mark. -/
def isNone (annotations : Annotations) : Bool :=
  annotations = none

end Annotations

/-- A node of the tree that describes the tests of a file. -/
structure Definition where
  kind : TestKind
  id : String
  label : String
  inNamespace : Option String
  className : Option String
  methodName : Option String
  qualifiedClass : Option String
  file : String
  span : Span
  /-- The number of nodes above this one. -/
  depth : Nat
  annotations : Annotations
  children : List Definition
deriving Repr, Inhabited

namespace Definition

/-- The node of a namespace. -/
def ofNamespace (name file : String) (span : Span) : Definition :=
  ⟨.namespaceSuite, name, name, some name, none, none, none, file, span, 0, .none, []⟩

/-- The node of a class. -/
def ofClass (inNamespace : Option String) (name file : String) (span : Span) : Definition :=
  ⟨.classSuite, (Identifier.unique inNamespace (some name) none).getD "", name,
    Identifier.present inNamespace, some name, none,
    some (Identifier.qualifiedClass inNamespace (some name)), file, span, 0, .none, []⟩

/-- The node of a method or a group of tests in the class of `parent`. -/
def member (parent : Definition) (kind : TestKind) (name : String) (span : Span) : Definition :=
  ⟨kind, (Identifier.unique parent.inNamespace parent.className (some name)).getD "", name,
    parent.inNamespace, parent.className, some name, parent.qualifiedClass, parent.file, span, 0,
    .none, []⟩

/-- The node of a data set of the test `parent`. -/
def labelledDataSet (parent : Definition) (label : String) : Definition :=
  ⟨.dataSet, Identifier.dataSet parent.id label, label, parent.inNamespace, parent.className,
    parent.methodName, parent.qualifiedClass, parent.file, parent.span, 0, .none, []⟩

/-- The node of the data set with an index. -/
def dataSet (parent : Definition) (index : Nat) : Definition :=
  parent.labelledDataSet (Identifier.dataSetLabel index)

mutual

/-- The nodes of a tree, each before its children. -/
def nodes : Definition → List Definition
  | ⟨kind, id, label, inNamespace, className, methodName, qualifiedClass, file, span, depth,
      annotations, children⟩ =>
    ⟨kind, id, label, inNamespace, className, methodName, qualifiedClass, file, span, depth,
      annotations, children⟩ :: forestNodes children

/-- The nodes of several trees, one tree after the other. -/
def forestNodes : List Definition → List Definition
  | [] => []
  | definition :: rest => definition.nodes ++ forestNodes rest

end

mutual

/-- Set the depth of a node, and the depth of each node below it by its distance. -/
def assignDepth (depth : Nat) : Definition → Definition
  | ⟨kind, id, label, inNamespace, className, methodName, qualifiedClass, file, span, _,
      annotations, children⟩ =>
    ⟨kind, id, label, inNamespace, className, methodName, qualifiedClass, file, span, depth,
      annotations, assignForestDepth (depth + 1) children⟩

/-- Set the depth of several nodes. -/
def assignForestDepth (depth : Nat) : List Definition → List Definition
  | [] => []
  | definition :: rest => assignDepth depth definition :: assignForestDepth depth rest

end

/-- The first node of a tree that has an identifier. -/
def find? (definition : Definition) (id : String) : Option Definition :=
  definition.nodes.find? fun node => node.id = id

/-- The number of methods in some trees. -/
def countMethods (forest : List Definition) : Nat :=
  (forestNodes forest).countP fun node => node.kind = .method

end Definition

end PhpTestIndex
