import PhpTestIndex.Context
import PhpTestIndex.PhpUnit.Hierarchy
import PhpTestIndex.PhpUnit.Marker
import PhpTestIndex.Test.Grouping

/-!
# Tests in classes

The classes that stand at the top level of a file or in the body of a namespace are candidates.  A
candidate is a suite if it is not abstract, has a test method, and is a test case: by its name, by
descent or by its markers.  A test method is public, neither abstract nor static, and is a test by
its name or by its markers.

`Survey.ofDocument` finds the candidates with the namespace and the imports of their block, and
`PhpUnit.read` makes the definition tree.  The reader goes through one file after the other with one
`Context`.
-/

namespace PhpTestIndex.PhpUnit

/-- A class declaration that may be a suite. -/
structure Candidate where
  declaration : Php.Placed
  name : String
  inNamespace : Option String
  /-- The index of the block of imports that the class stands in. -/
  block : Nat

/-- The name of a candidate with its namespace. -/
def Candidate.qualifiedName (candidate : Candidate) : String :=
  Identifier.qualifiedClass candidate.inNamespace (some candidate.name)

/-- What is known of a file after some of its statements. -/
structure Survey where
  context : Context
  candidates : List Candidate
  /-- The imports of each block of the file so far; the last block is the current one. -/
  blocks : List Imports

namespace Survey

/-- The start of a file, for a reader that stands at `context`. -/
def start (context : Context) : Survey :=
  ⟨context, [], [[]]⟩

/-- Begin a block without imports. -/
def openBlock (survey : Survey) : Survey :=
  { survey with blocks := survey.blocks ++ [[]] }

/-- Enter the body of a namespace. -/
def enterNamespace (survey : Survey) (name : Option String) : Survey :=
  { survey with context := (survey.context.enter .namespaceBody).setNamespace name }

/-- Leave the body of a namespace. -/
def exitNamespace (survey : Survey) : Survey :=
  { survey with context := survey.context.exit }

/-- Change the namespace of what follows. -/
def setNamespace (survey : Survey) (name : Option String) : Survey :=
  { survey with context := survey.context.setNamespace name }

/-- Add the imports of a declaration to the current block. -/
def addImports (document : Php.Document) (declaration : Php.Node) (survey : Survey) : Survey :=
  match survey.blocks.getLast? with
  | none => survey
  | some imports =>
    { survey with blocks := survey.blocks.dropLast ++ [imports.add document declaration] }

/-- Add a class. -/
def addClass (document : Php.Document) (declaration : Php.Placed) (survey : Survey) : Survey :=
  match declaration.node.child? .name with
  | none => survey
  | some name =>
    let candidate : Candidate :=
      ⟨declaration, document.string name, survey.context.currentNamespace,
        survey.blocks.length - 1⟩
    { survey with candidates := survey.candidates ++ [candidate] }

/-- A node that carries no meaning of its own stands between siblings without separating them. -/
def nextBefore (before : Option Php.Node) (node : Php.Node) : Option Php.Node :=
  if node.kind.isNamed then some node else before

mutual

/-- Go through a statement; `before` is the named sibling before it. -/
def statement (document : Php.Document) (before : Option Php.Node) :
    Php.Node → Survey → Survey
  | ⟨kind, title, first, stop, children⟩, survey =>
    let node : Php.Node := ⟨kind, title, first, stop, children⟩
    match kind with
    | .namespaceDefinition =>
      let name := (node.child? .name).map document.string
      if (node.child? .body).isSome then
        (namespaceBody document children (survey.openBlock.enterNamespace name)).exitNamespace.openBlock
      else survey.openBlock.setNamespace name
    | .useDeclaration => survey.addImports document node
    | .classDeclaration => survey.addClass document ⟨before, node⟩
    | _ => survey

/-- Go through the statements of a list of siblings. -/
def statements (document : Php.Document) (before : Option Php.Node) :
    List Php.Node → Survey → Survey
  | [], survey => survey
  | node :: rest, survey =>
    statements document (nextBefore before node) rest (statement document before node survey)

/-- Go through the statements of the first body among the children of a namespace. -/
def namespaceBody (document : Php.Document) : List Php.Node → Survey → Survey
  | [], survey => survey
  | ⟨_, title, _, _, children⟩ :: rest, survey =>
    if title = some .body then statements document none children survey
    else namespaceBody document rest survey

end

/-- Go through a file, with a reader that stands at `context`. -/
def ofDocument (document : Php.Document) (context : Context) : Survey :=
  statements document none document.root.children (start context)

/-- The parents of the classes, resolved in their namespaces with the imports of their blocks. -/
def hierarchy (document : Php.Document) (survey : Survey) : Hierarchy :=
  (survey.candidates.map fun candidate =>
    (candidate.qualifiedName,
      (parentName? candidate.declaration.node).map fun parent =>
        resolveClass parent candidate.inNamespace
          (survey.blocks[candidate.block]?.getD []))).reverse
where
  /-- The first class after `extends`, as it is written. -/
  parentName? (declaration : Php.Node) : Option String :=
    (declaration.childrenOf .baseClause).head?.bind fun clause =>
      (clause.namedChildren.find? fun child =>
        child.kind = .name || child.kind = .qualifiedName).map document.string

end Survey

/-- The method is public. -/
def isPublic (document : Php.Document) (method : Php.Node) : Bool :=
  match (method.childrenOf .visibilityModifier).head? with
  | none => true
  | some modifier => document.string modifier = "public"

/-- The label of a declaration: the text it is given, or its name. -/
def labelOf (annotations : Annotations) (name : String) : String :=
  annotations.testdox.headD name

/-- The definition of a method of a class, if the method is a test. -/
def method? (document : Php.Document) (suite : Definition) (method : Php.Placed) :
    Option Definition :=
  let node := method.node
  if !isPublic document node || node.has .abstractModifier || node.has .staticModifier then none
  else
    match node.child? .name with
    | none => none
    | some nameNode =>
      let name := document.string nameNode
      let markers := Markers.ofDeclaration document method
      if "test".toList.isPrefixOf name.toList || markers.isTest then
        let annotations := markers.annotations
        let plain := suite.member .method name node.span
        let test := { plain with label := labelOf annotations name, annotations := annotations }
        some { test with
          children := (List.range annotations.testWith.length).map test.dataSet }
      else none

/-- The definitions of the tests of a class. -/
def methods (document : Php.Document) (suite : Definition) (body : Php.Node) : List Definition :=
  (body.placedChildren.filter fun member => member.node.kind = .methodDeclaration).filterMap
    (method? document suite)

/-- The candidate is a test case: by its name, by descent or by its markers. -/
def qualifies (hierarchy : Hierarchy) (candidate : Candidate) (markers : Markers) : Bool :=
  "Test".toList.isSuffixOf candidate.name.toList ||
    hierarchy.extendsTestCase candidate.qualifiedName || markers.isTestCase

/-- The body of a candidate that is a test case and can be made. -/
def suiteBody? (document : Php.Document) (hierarchy : Hierarchy) (candidate : Candidate) :
    Option Php.Node :=
  let node := candidate.declaration.node
  let markers := Markers.ofDeclaration document candidate.declaration
  if node.has .abstractModifier || !qualifies hierarchy candidate markers then none
  else node.child? .body

/-- The definition of a candidate, its tests aside. -/
def suiteHead (document : Php.Document) (file : String) (candidate : Candidate) : Definition :=
  let marks := (Markers.ofDeclaration document candidate.declaration).annotations
  let plain := Definition.ofClass candidate.inNamespace candidate.name file
    candidate.declaration.node.span
  { plain with
    label := labelOf marks candidate.name
    annotations := { Annotations.none with group := marks.group, testdox := marks.testdox } }

/-- Read a candidate: its definition, if it is a suite, and where the reader stands after it. -/
def readSuite (document : Php.Document) (hierarchy : Hierarchy) (file : String)
    (candidate : Candidate) (context : Context) : Option Definition × Context :=
  match suiteBody? document hierarchy candidate with
  | none => (none, context)
  | some body =>
    let inside := (context.enter .classBody).setClass (some candidate.name)
    let suite := suiteHead document file candidate
    match methods document suite body with
    | [] => (none, inside.exit)
    | tests => (some { suite with children := tests }, inside.exit)

/-- Read some candidates, one after the other. -/
def readSuites (document : Php.Document) (hierarchy : Hierarchy) (file : String) :
    List Candidate → Context → List Definition × Context
  | [], context => ([], context)
  | candidate :: rest, context =>
    let (suite, between) := readSuite document hierarchy file candidate context
    let (later, after) := readSuites document hierarchy file rest between
    (suite.toList ++ later, after)

/-- Read a file with tests in classes: its definition tree, if it has tests, and where the reader
stands after it.  Before it, the reader stands wherever an earlier file has left it. -/
def read (document : Php.Document) (file : String) (context : Context) :
    Option (List Definition) × Context :=
  let survey := Survey.ofDocument document context.restart
  let (suites, after) :=
    readSuites document (survey.hierarchy document) file survey.candidates survey.context
  match suites with
  | [] => (none, after)
  | suites => (some (Definition.groupByNamespace file suites), after)

/-- The definition tree of a file with tests in classes. -/
def forest? (document : Php.Document) (file : String) : Option (List Definition) :=
  (read document file .start).1

end PhpTestIndex.PhpUnit
