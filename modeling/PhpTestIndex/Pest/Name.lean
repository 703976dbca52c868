import PhpTestIndex.Path
import PhpTestIndex.Text.UpperCase

/-! # Names of tests without a class

Tests that are registered by calls have no class of their own.  The suite is named after the place
of the file below the root of the tests: `tests/Unit/FooTest.php` is the class `FooTest` in the
namespace `P\Tests\Unit`.  A test is named after its description and the descriptions of the groups
around it.
-/

namespace PhpTestIndex.Pest

/-- The namespace above all suites that are named after files. -/
def suiteNamespace : String :=
  "P"

/-- What stands between the descriptions in the name of a test. -/
def separator : String :=
  " → "

/-- The label of a test: its description after the word it is registered with, where that word reads
as a part of the sentence. -/
def testLabel (function description : String) : String :=
  if function = "it" || function = "arch" then function ++ " " ++ description else description

/-- The name of a group: the descriptions from the outermost group to this one. -/
def groupName (descriptions : List String) : String :=
  Text.join separator (descriptions.map fun description => "`" ++ description ++ "`")

/-- The name of a test inside groups. -/
def testName (function description : String) (groups : List String) : String :=
  let label := testLabel function description
  if groups.isEmpty then label else groupName groups ++ separator ++ label

/-- The names from the root to a file that its suite is called after. -/
def suiteSegments (root file : List String) : List String :=
  let names := (Path.below? root file).getD file.getLast?.toList
  match names.getLast? with
  | none => []
  | some last =>
    names.dropLast ++ [Path.stem last].filter fun name => name ≠ "." && name ≠ ".."

/-- The namespace and the class that stand for a file, seen from a directory. -/
def syntheticClass (directory root file : String) : String × String :=
  let segments := (suiteSegments (Path.location directory root)
    (Path.location directory file)).map Text.capitalize
  (Text.join "\\" (suiteNamespace :: segments.dropLast), segments.getLast?.getD "")

end PhpTestIndex.Pest
