import PhpTestIndex.Text.Blank
import PhpTestIndex.Text.Piece

/-!
# Identifiers of tests

An identifier joins what is known of a test: `N\C::m` for the method `m` of the class `C` in the
namespace `N`.  Parts that are absent or empty are left out.  A data set has the identifier of its
test, a blank and its label.
-/

namespace PhpTestIndex.Identifier

/-- A part of an identifier that is there and is not empty. -/
def present (part : Option String) : Option String :=
  part.filter fun text => text ≠ ""

/-- The name of a class with its namespace. -/
def qualifiedClass (inNamespace className : Option String) : String :=
  match present inNamespace, present className with
  | none, none => ""
  | some inNamespace, none => inNamespace
  | none, some className => className
  | some inNamespace, some className => inNamespace ++ "\\" ++ className

/-- The identifier of a namespace, a class or a method; without a class the method does not
count. -/
def unique (inNamespace className methodName : Option String) : Option String :=
  match present className with
  | none => present inNamespace
  | some className =>
    let qualified := qualifiedClass inNamespace (some className)
    match present methodName with
    | none => some qualified
    | some methodName => some (qualified ++ "::" ++ methodName)

/-- The identifier of a data set of a test. -/
def dataSet (test label : String) : String :=
  test ++ " " ++ label

/-- The label of the data set with an index. -/
def dataSetLabel (index : Nat) : String :=
  "with data set #" ++ toString index

/-- The text up to `quote`, in which `quote` does not occur, and the text after it. -/
def upToQuote (quote : Char) (chars : List Char) : Option (List Char × List Char) :=
  match chars.dropWhile fun c => c != quote with
  | [] => none
  | _ :: rest => some (chars.takeWhile fun c => c != quote, rest)

/-- The key of a data row that is written as a string before an arrow. -/
def rowKey? (row : List Char) : Option (List Char) :=
  let keyed (quote : Char) (rest : List Char) : Option (List Char) :=
    match upToQuote quote rest with
    | none => none
    | some (key, rest) =>
      if "=>".toList.isPrefixOf (Text.trimStart rest) then some key else none
  match Text.trimStart row with
  | '\'' :: rest => keyed '\'' rest
  | '\x22' :: rest => keyed '\x22' rest
  | _ => none

/-- The values of a data row, without the brackets around them. -/
def rowValues (row : List Char) : List Char :=
  let row := Text.trim row
  Text.trim (((Text.after? ['['] row).bind (Text.before? [']'])).getD row)

/-- The label of a data set that is named after its row: by the key of the row, or by its values. -/
def rowLabel (row : String) : String :=
  match rowKey? row.toList with
  | some key => "with data set \"dataset \"" ++ String.ofList key ++ "\"\""
  | none => "with data set \"(" ++ String.ofList (rowValues row.toList) ++ ")\""

end PhpTestIndex.Identifier
