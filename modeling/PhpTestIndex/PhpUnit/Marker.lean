import PhpTestIndex.Php.Literal
import PhpTestIndex.PhpUnit.DocBlock
import PhpTestIndex.Test.Definition

/-!
# Markers

What the documentation and the attributes of a class or a method say about it.  A tag and an
attribute both come down to the same few `Mark`s, and `Markers` gathers them in order: first the
tags, then the attributes.
-/

namespace PhpTestIndex.PhpUnit

/-- One thing that a tag or an attribute says. -/
inductive Mark
  /-- The method is a test. -/
  | isTest
  /-- The class is a test case. -/
  | isTestCase
  | dataProvider (name : String)
  | depends (name : String)
  | group (name : String)
  | testdox (text : String)
  | testWith (row : String)
  | skipped
  | incomplete
deriving DecidableEq, Repr

/-- What is said about a declaration. -/
structure Markers where
  isTest : Bool
  isTestCase : Bool
  annotations : Annotations
deriving DecidableEq, Repr, Inhabited

namespace Markers

/-- Nothing is said. -/
def none : Markers :=
  ⟨false, false, .none⟩

/-- Add a mark. -/
def add (markers : Markers) (mark : Mark) : Markers :=
  let annotations := markers.annotations
  match mark with
  | .isTest => { markers with isTest := true }
  | .isTestCase => { markers with isTestCase := true }
  | .dataProvider name =>
    { markers with
      annotations := { annotations with dataProvider := annotations.dataProvider ++ [name] } }
  | .depends name =>
    { markers with annotations := { annotations with depends := annotations.depends ++ [name] } }
  | .group name =>
    { markers with annotations := { annotations with group := annotations.group ++ [name] } }
  | .testdox text =>
    { markers with annotations := { annotations with testdox := annotations.testdox ++ [text] } }
  | .testWith row =>
    { markers with annotations := { annotations with testWith := annotations.testWith ++ [row] } }
  | .skipped => { markers with annotations := { annotations with skipped := true } }
  | .incomplete => { markers with annotations := { annotations with incomplete := true } }

/-- What some marks say together. -/
def ofMarks (marks : List Mark) : Markers :=
  marks.foldl add none

end Markers

/-- What a tag says. -/
def DocTag.marks (tag : DocTag) : List Mark :=
  let word (mark : String → Mark) : List Mark := (tag.firstWord?.map mark).toList
  match tag.name with
  | "test" => [.isTest]
  | "dataProvider" => word .dataProvider
  | "depends" => word .depends
  | "group" => word .group ++ [.isTestCase]
  | "ticket" => word .group ++ [.isTestCase]
  | "testdox" => [.testdox tag.value, .isTestCase]
  | "testWith" => ((tag.value :: tag.rows).filter fun row => row ≠ "").map .testWith
  | "skip" => [.skipped]
  | "skipped" => [.skipped]
  | "incomplete" => [.incomplete]
  | "todo" => [.incomplete]
  | "covers" => [.isTestCase]
  | "coversDefaultClass" => [.isTestCase]
  | "coversNothing" => [.isTestCase]
  | "uses" => [.isTestCase]
  | _ => []

/-- An attribute of a declaration: its name without namespaces, and the values it is given. -/
structure Attribute where
  name : String
  values : List Php.Node

namespace Attribute

/-- The attribute of a node, if it has a name that can be told. -/
def ofNode? (document : Php.Document) (node : Php.Node) : Option Attribute :=
  let name? := node.namedChildren.find? fun child =>
    child.kind = .name || child.kind = .qualifiedName
  name?.map fun name =>
    ⟨String.ofList (Php.shortName (document.text name)),
      ((node.child? .arguments).map Php.argumentValues).getD []⟩

/-- The attributes of a declaration, in order. -/
def ofDeclaration (document : Php.Document) (declaration : Php.Node) : List Attribute :=
  (declaration.childrenOf .attributeList).flatMap fun list =>
    list.namedChildren.flatMap fun group =>
      (group.childrenOf .attributeItem).filterMap (ofNode? document)

/-- The string that an attribute is given at an index. -/
def string? (document : Php.Document) (attr : Attribute) (index : Nat) : Option String :=
  attr.values[index]?.bind document.stringValue?

/-- The class that an attribute is given first. -/
def class? (document : Php.Document) (attr : Attribute) : Option String :=
  attr.values.head?.bind document.className?

/-- The method of another class that an attribute is given. -/
def external? (document : Php.Document) (attr : Attribute) : Option String :=
  match attr.class? document, attr.string? document 1 with
  | some className, some method => some (className ++ "::" ++ method)
  | _, _ => none

/-- What an attribute says. -/
def marks (document : Php.Document) (attr : Attribute) : List Mark :=
  let string (mark : String → Mark) : List Mark := ((attr.string? document 0).map mark).toList
  let external (mark : String → Mark) : List Mark := ((attr.external? document).map mark).toList
  let ofClass (mark : String → Mark) : List Mark := ((attr.class? document).map mark).toList
  match attr.name with
  | "Test" => [.isTest]
  | "DataProvider" => string .dataProvider
  | "DataProviderExternal" => external .dataProvider
  | "Depends" => string .depends
  | "DependsUsingDeepClone" => string .depends
  | "DependsUsingShallowClone" => string .depends
  | "DependsExternal" => external .depends
  | "DependsExternalUsingDeepClone" => external .depends
  | "DependsExternalUsingShallowClone" => external .depends
  | "DependsOnClass" => ofClass .depends
  | "DependsOnClassUsingDeepClone" => ofClass .depends
  | "DependsOnClassUsingShallowClone" => ofClass .depends
  | "Group" => string .group ++ [.isTestCase]
  | "Ticket" => string .group ++ [.isTestCase]
  | "TestDox" => string .testdox ++ [.isTestCase]
  | "TestWith" => (attr.values.head?.map fun row => .testWith (document.string row)).toList
  | "TestWithJson" => string .testWith
  | name => if classMarks.contains name then [.isTestCase] else []
where
  /-- The attributes that only stand on test cases. -/
  classMarks : List String :=
    ["CoversClass", "CoversFunction", "CoversMethod", "CoversTrait", "CoversNothing", "UsesClass",
     "UsesFunction", "Small", "Medium", "Large", "RunTestsInSeparateProcesses", "BackupGlobals",
     "DoesNotPerformAssertions"]

end Attribute

namespace Markers

/-- What the documentation and the attributes of a declaration say. -/
def ofDeclaration (document : Php.Document) (declaration : Php.Placed) : Markers :=
  let tags := ((document.docBlock? declaration).map docTags).getD []
  let attrs := Attribute.ofDeclaration document declaration.node
  ofMarks (tags.flatMap DocTag.marks ++ attrs.flatMap (Attribute.marks document))

end Markers

end PhpTestIndex.PhpUnit
