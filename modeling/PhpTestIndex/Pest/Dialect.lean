import PhpTestIndex.Context
import PhpTestIndex.Pest.Call
import PhpTestIndex.Pest.Name
import PhpTestIndex.Test.Grouping

/-!
# Tests registered by calls

The suite of a file is named after the file.  Below it stand the tests and the groups that the file
registers, in order; a group without tests is left out.  The open groups give a test its name: they
are the scopes of the one `Context` with which a `Reader` goes through one file after the other.
-/

namespace PhpTestIndex.Pest

/-- The definition of a group, its children aside. -/
def groupHead (document : Php.Document) (context : Context) (parent : Definition) (call : Call) :
    Definition :=
  let name := groupName (context.describePath ++ [call.description])
  { parent.member .describe name call.node.span with
    label := call.description
    annotations := call.annotations document }

/-- The definition of a test. -/
def testDefinition (document : Php.Document) (context : Context) (parent : Definition)
    (call : Call) : Definition :=
  let name := testName call.function call.description context.describePath
  let test := { parent.member .method name call.node.span with
    label := testLabel call.function call.description
    annotations := call.annotations document }
  { test with
    children := test.annotations.testWith.map fun row =>
      test.labelledDataSet (Identifier.rowLabel row) }

mutual

/-- The definition that a registration gives, and where the reader stands after it; a group without
tests gives none. -/
def define (document : Php.Document) (parent : Definition) :
    Registration → Context → Option Definition × Context
  | ⟨call, inner⟩, context =>
    if call.function = describeFunction then
      let group := groupHead document context parent call
      let (tests, inside) :=
        defineAll document group inner (context.enter (.describe call.description))
      match tests with
      | [] => (none, inside.exit)
      | tests => (some { group with children := tests }, inside.exit)
    else (some (testDefinition document context parent call), context)

/-- The definitions that some registrations give, one after the other. -/
def defineAll (document : Php.Document) (parent : Definition) :
    List Registration → Context → List Definition × Context
  | [], context => ([], context)
  | registration :: rest, context =>
    let (definition, between) := define document parent registration context
    let (later, after) := defineAll document parent rest between
    (definition.toList ++ later, after)

end

/-- The suite of a file, its tests aside; relative paths are seen from `directory`. -/
def suiteHead (directory root file : String) (document : Php.Document) : Definition :=
  let (inNamespace, className) := syntheticClass directory root file
  Definition.ofClass (some inNamespace) className file document.root.span

/-- A reader of files that register tests. -/
structure Reader where
  /-- The root of the tests that the reader was told last. -/
  root : String
  /-- Where the reader stands. -/
  context : Context
deriving Inhabited

namespace Reader

/-- A reader that has not read anything. -/
def start : Reader :=
  ⟨"", .start⟩

/-- Tell the reader the root of the tests. -/
def setRoot (reader : Reader) (root : String) : Reader :=
  { reader with root := root }

/-- Read a file that registers tests: its definition tree, if it has tests, and the reader after
it. -/
def read (reader : Reader) (directory : String) (document : Php.Document) (file : String) :
    Option (List Definition) × Reader :=
  let suite := suiteHead directory reader.root file document
  let (tests, after) :=
    defineAll document suite (Registration.ofStatements document document.root)
      reader.context.restart
  let reader := { reader with context := after }
  match tests with
  | [] => (none, reader)
  | tests => (some (Definition.groupByNamespace file [{ suite with children := tests }]), reader)

end Reader

/-- The definition tree of a file that registers tests. -/
def forest? (directory root : String) (document : Php.Document) (file : String) :
    Option (List Definition) :=
  ((Reader.start.setRoot root).read directory document file).1

end PhpTestIndex.Pest
