import PhpTestIndex.Json
import PhpTestIndex.Test.Definition

/-! # Definitions as JSON

`Definition.toJson` writes a definition and leaves out what is absent or empty;
`Definition.ofJson?` reads one.  Fields that the reader does not know are ignored, and an optional
text may be `null`.  Lines and columns are 32-bit words, offsets and depths 64-bit words.
-/

namespace PhpTestIndex

/-- The first number that is too large for an offset or a depth. -/
def wordLimit : Nat :=
  UInt64.size

namespace Json

/-- A whole number from zero on, below a limit. -/
def natBelow? (limit : Nat) : Json → Option Nat
  | .number (.ofNat value) => if value < limit then some value else none
  | _ => none

/-- A text. -/
def text? : Json → Option String
  | .string value => some value
  | _ => none

/-- A field that must be there. -/
def required? (name : String) (read : Json → Option α) (value : Json) : Option α :=
  (value.field? name).bind read

/-- A field that may be missing; then it has the value `missing`. -/
def withDefault? (name : String) (read : Json → Option α) (missing : α) (value : Json) : Option α :=
  match value.field? name with
  | none => some missing
  | some field => read field

/-- An optional text. -/
def optionalText? : Json → Option (Option String)
  | .null => some none
  | .string value => some (some value)
  | _ => none

/-- A list of texts. -/
def texts? : Json → Option (List String)
  | .array items => items.mapM text?
  | _ => none

/-- A truth value. -/
def bool? : Json → Option Bool
  | .bool value => some value
  | _ => none

/-- A field that is left out if its list is empty. -/
def listField (name : String) (values : List String) : List (String × Json) :=
  if values.isEmpty then [] else [(name, strings values)]

/-- A field that is left out if it is false. -/
def flagField (name : String) (value : Bool) : List (String × Json) :=
  if value then [(name, .bool true)] else []

/-- A field that is left out if there is no text. -/
def textField (name : String) (value : Option String) : List (String × Json) :=
  match value with
  | none => []
  | some text => [(name, .string text)]

end Json

namespace Position

/-- A position as JSON. -/
def toJson (position : Position) : Json :=
  .object [
    ("line", .ofNat position.line.toNat), ("character", .ofNat position.character.toNat),
    ("offset", .ofNat position.offset)]

/-- Read a position. -/
def ofJson? (value : Json) : Option Position :=
  match value.required? "line" (Json.natBelow? UInt32.size),
      value.required? "character" (Json.natBelow? UInt32.size),
      value.required? "offset" (Json.natBelow? wordLimit) with
  | some line, some character, some offset =>
    some ⟨UInt32.ofNat line, UInt32.ofNat character, offset⟩
  | _, _, _ => none

end Position

namespace Annotations

/-- The fields of annotations that are not empty. -/
def toJson (annotations : Annotations) : Json :=
  .object (
    Json.listField "data_provider" annotations.dataProvider ++
    Json.listField "depends" annotations.depends ++
    Json.listField "group" annotations.group ++
    Json.listField "testdox" annotations.testdox ++
    Json.listField "test_with" annotations.testWith ++
    Json.flagField "skipped" annotations.skipped ++
    Json.flagField "incomplete" annotations.incomplete)

/-- Read annotations. -/
def ofJson? (value : Json) : Option Annotations :=
  match value with
  | .object _ => do
    let list (name : String) : Option (List String) := value.withDefault? name Json.texts? []
    let dataProvider ← list "data_provider"
    let depends ← list "depends"
    let group ← list "group"
    let testdox ← list "testdox"
    let testWith ← list "test_with"
    let skipped ← value.withDefault? "skipped" Json.bool? false
    let incomplete ← value.withDefault? "incomplete" Json.bool? false
    some ⟨dataProvider, depends, group, testdox, testWith, skipped, incomplete⟩
  | _ => none

end Annotations

namespace Definition

mutual

/-- A definition as JSON. -/
def toJson : Definition → Json
  | ⟨kind, id, label, inNamespace, className, methodName, qualifiedClass, file, span, depth,
      annotations, children⟩ =>
    .object (
      [("type", .string kind.name), ("id", .string id), ("label", .string label)] ++
      Json.textField "namespace" inNamespace ++
      Json.textField "class_name" className ++
      Json.textField "method_name" methodName ++
      Json.textField "qualified_class" qualifiedClass ++
      [("file", .string file), ("start", span.start.toJson), ("end", span.stop.toJson),
        ("depth", .ofNat depth)] ++
      (if annotations.isNone then [] else [("annotations", annotations.toJson)]) ++
      (if children.isEmpty then [] else [("children", .array (forestToJson children))]))

/-- Several definitions as JSON. -/
def forestToJson : List Definition → List Json
  | [] => []
  | definition :: rest => definition.toJson :: forestToJson rest

end

/-- The kind that a JSON value names; only the names themselves count. -/
def kindOfJson? (value : Json) : Option TestKind :=
  value.text?.bind fun name => TestKind.all.find? fun kind => kind.name = name

/-- Read a definition, its children given. -/
def headOfJson? (value : Json) (children : List Definition) : Option Definition := do
  let kind ← value.required? "type" kindOfJson?
  let id ← value.required? "id" Json.text?
  let label ← value.required? "label" Json.text?
  let inNamespace ← value.withDefault? "namespace" Json.optionalText? none
  let className ← value.withDefault? "class_name" Json.optionalText? none
  let methodName ← value.withDefault? "method_name" Json.optionalText? none
  let qualifiedClass ← value.withDefault? "qualified_class" Json.optionalText? none
  let file ← value.required? "file" Json.text?
  let start ← value.required? "start" Position.ofJson?
  let stop ← value.required? "end" Position.ofJson?
  let depth ← value.required? "depth" (Json.natBelow? wordLimit)
  let annotations ← value.withDefault? "annotations" Annotations.ofJson? .none
  some ⟨kind, id, label, inNamespace, className, methodName, qualifiedClass, file, ⟨start, stop⟩,
    depth, annotations, children⟩

mutual

/-- Read a definition. -/
def ofJson? : Json → Option Definition
  | .object fields =>
    match childrenOfFields? fields with
    | none => none
    | some children => headOfJson? (.object fields) children
  | _ => none

/-- Read the children among the fields of a definition. -/
def childrenOfFields? : List (String × Json) → Option (List Definition)
  | [] => some []
  | (name, value) :: rest =>
    if name = "children" then childrenOfJson? value else childrenOfFields? rest

/-- Read the children of a definition. -/
def childrenOfJson? : Json → Option (List Definition)
  | .array items => forestOfJson? items
  | _ => none

/-- Read several definitions. -/
def forestOfJson? : List Json → Option (List Definition)
  | [] => some []
  | item :: rest =>
    match ofJson? item, forestOfJson? rest with
    | some definition, some more => some (definition :: more)
    | _, _ => none

end

end Definition

end PhpTestIndex
