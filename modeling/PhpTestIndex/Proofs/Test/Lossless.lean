import Mathlib.Data.List.Basic
import PhpTestIndex.Proofs.Json.Rendering
import PhpTestIndex.Proofs.Test.Tree
import PhpTestIndex.Test.Json

/-! # Definitions read back from JSON

What `PhpTestIndex.Definition.toJson` leaves out is what `PhpTestIndex.Definition.ofJson?` takes for
a missing field, at every node of a tree (`PhpTestIndex.Definition.ofJson?_toJson`).  Offsets and
depths have to be words, as the reader takes no greater numbers.
-/

namespace PhpTestIndex

namespace Json

section Fields

variable (key name : String)

/-- A list is written under its name, and not at all when it is empty. -/
theorem lookup_listField (values : List String) :
    (listField name values).lookup key =
      if key = name ∧ values ≠ [] then some (strings values) else none := by
  unfold listField
  cases values <;> by_cases same : key = name <;>
    simp [List.lookup_cons, same, beq_false_of_ne]

/-- A flag is written under its name, and not at all when it is off. -/
theorem lookup_flagField (value : Bool) :
    (flagField name value).lookup key =
      if key = name ∧ value then some (.bool true) else none := by
  unfold flagField
  cases value <;> by_cases same : key = name <;>
    simp [List.lookup_cons, same, beq_false_of_ne]

/-- A text is written under its name, and not at all when there is none. -/
theorem lookup_textField (value : Option String) :
    (textField name value).lookup key = if key = name then value.map string else none := by
  unfold textField
  cases value <;> by_cases same : key = name <;>
    simp [List.lookup_cons, same, beq_false_of_ne]

/-- A value that is left out under a condition is found exactly when the condition fails. -/
theorem lookup_unless (omitted : Prop) [Decidable omitted] (value : Json) :
    (if omitted then [] else [(name, value)]).lookup key =
      if key = name then (if omitted then none else some value) else none := by
  by_cases without : omitted <;> by_cases same : key = name <;>
    simp [List.lookup_cons, without, same, beq_false_of_ne]

end Fields

section Defaults

variable {name : String} {value : Json}

/-- A list of texts is read back from the array that it is written as. -/
theorem texts?_strings (values : List String) : texts? (strings values) = some values := by
  simp only [strings, texts?]
  induction values with
  | nil => rfl
  | cons text texts ih => simp [text?, ih]

/-- A list is read back if it is left out only when it is empty. -/
theorem withDefault?_texts {values : List String}
    (found : value.field? name = if values ≠ [] then some (strings values) else none) :
    value.withDefault? name texts? [] = some values := by
  rw [withDefault?, found]
  by_cases empty : values = []
  · simp [empty]
  · simp [empty, texts?_strings]

/-- A truth value is read back if it is left out only when it is false. -/
theorem withDefault?_bool {flag : Bool}
    (found : value.field? name = if flag then some (.bool true) else none) :
    value.withDefault? name bool? false = some flag := by
  rw [withDefault?, found]
  cases flag <;> rfl

/-- A text is read back if it is left out only when there is none. -/
theorem withDefault?_optionalText {text : Option String}
    (found : value.field? name = text.map string) :
    value.withDefault? name optionalText? none = some text := by
  rw [withDefault?, found]
  cases text <;> rfl

theorem required?_of_field? {field : Json} {read : Json → Option α}
    (found : value.field? name = some field) : value.required? name read = read field := by
  rw [required?, found, Option.bind_some]

theorem natBelow?_ofNat {limit number : Nat} (below : number < limit) :
    natBelow? limit (ofNat number) = some number :=
  if_pos below

end Defaults

end Json

/-- A position is read back if its offset is a word; lines and columns always are. -/
theorem Position.ofJson?_toJson {position : Position} (fits : position.offset < wordLimit) :
    Position.ofJson? position.toJson = some position := by
  have line : position.toJson.required? "line" (Json.natBelow? UInt32.size) =
      some position.line.toNat :=
    (Json.required?_of_field? rfl).trans (Json.natBelow?_ofNat position.line.toNat_lt)
  have character : position.toJson.required? "character" (Json.natBelow? UInt32.size) =
      some position.character.toNat :=
    (Json.required?_of_field? rfl).trans (Json.natBelow?_ofNat position.character.toNat_lt)
  have offset : position.toJson.required? "offset" (Json.natBelow? wordLimit) =
      some position.offset :=
    (Json.required?_of_field? rfl).trans (Json.natBelow?_ofNat fits)
  simp [ofJson?, line, character, offset]

/-- The JSON value shows annotations: the marks that are there, and nothing for those that are
not. -/
structure Annotations.ShownBy (annotations : Annotations) (value : Json) : Prop where
  dataProvider : value.field? "data_provider" =
    if annotations.dataProvider ≠ [] then some (Json.strings annotations.dataProvider) else .none
  depends : value.field? "depends" =
    if annotations.depends ≠ [] then some (Json.strings annotations.depends) else .none
  group : value.field? "group" =
    if annotations.group ≠ [] then some (Json.strings annotations.group) else .none
  testdox : value.field? "testdox" =
    if annotations.testdox ≠ [] then some (Json.strings annotations.testdox) else .none
  testWith : value.field? "test_with" =
    if annotations.testWith ≠ [] then some (Json.strings annotations.testWith) else .none
  skipped : value.field? "skipped" =
    if annotations.skipped then some (.bool true) else .none
  incomplete : value.field? "incomplete" =
    if annotations.incomplete then some (.bool true) else .none

namespace Annotations

/-- The object of some annotations shows each of them under its own name, and nothing when it has
its default. -/
theorem shownBy_toJson (annotations : Annotations) : annotations.ShownBy annotations.toJson := by
  constructor <;>
    simp [toJson, Json.field?, List.lookup_append, Json.lookup_listField, Json.lookup_flagField]

/-- Annotations are read back whatever they are, as each missing field has its default. -/
theorem ofJson?_toJson (annotations : Annotations) :
    ofJson? annotations.toJson = some annotations := by
  obtain ⟨dataProvider, depends, group, testdox, testWith, skipped, incomplete⟩ :=
    annotations.shownBy_toJson
  have reads : ofJson? annotations.toJson = (do
      let list (name : String) := annotations.toJson.withDefault? name Json.texts? []
      let dataProvider ← list "data_provider"
      let depends ← list "depends"
      let group ← list "group"
      let testdox ← list "testdox"
      let testWith ← list "test_with"
      let skipped ← annotations.toJson.withDefault? "skipped" Json.bool? false
      let incomplete ← annotations.toJson.withDefault? "incomplete" Json.bool? false
      some ⟨dataProvider, depends, group, testdox, testWith, skipped, incomplete⟩) := rfl
  rw [reads]
  simp only [Json.withDefault?_texts dataProvider, Json.withDefault?_texts depends,
    Json.withDefault?_texts group, Json.withDefault?_texts testdox,
    Json.withDefault?_texts testWith, Json.withDefault?_bool skipped,
    Json.withDefault?_bool incomplete, Option.bind_eq_bind, Option.bind_some]

end Annotations

namespace Definition

/-- The offsets and the depth of a node are words. -/
structure FitsWords (node : Definition) : Prop where
  start : node.span.start.offset < wordLimit
  stop : node.span.stop.offset < wordLimit
  depth : node.depth < wordLimit

/-- The JSON value shows a node and its children; what is absent or empty is left out. -/
structure ShownBy (definition : Definition) (value : Json) : Prop where
  kind : value.field? "type" = some (.string definition.kind.name)
  id : value.field? "id" = some (.string definition.id)
  label : value.field? "label" = some (.string definition.label)
  inNamespace : value.field? "namespace" = definition.inNamespace.map Json.string
  className : value.field? "class_name" = definition.className.map Json.string
  methodName : value.field? "method_name" = definition.methodName.map Json.string
  qualifiedClass : value.field? "qualified_class" = definition.qualifiedClass.map Json.string
  file : value.field? "file" = some (.string definition.file)
  start : value.field? "start" = some definition.span.start.toJson
  stop : value.field? "end" = some definition.span.stop.toJson
  depth : value.field? "depth" = some (.ofNat definition.depth)
  annotations : value.field? "annotations" =
    if definition.annotations.isNone then none else some definition.annotations.toJson
  children : value.field? "children" =
    if definition.children = [] then none
    else some (.array (forestToJson definition.children))

/-- The object of a node shows each field under its own name. Optional names, annotations without
content and missing children have no field. -/
theorem shownBy_toJson (definition : Definition) : definition.ShownBy definition.toJson := by
  obtain ⟨kind, id, label, inNamespace, className, methodName, qualifiedClass, file, span, depth,
    annotations, children⟩ := definition
  constructor <;>
    simp [toJson, Json.field?, List.lookup_append, List.lookup_cons, Json.lookup_textField,
      Json.lookup_unless]

theorem kindOfJson?_name (kind : TestKind) : kindOfJson? (.string kind.name) = some kind := by
  cases kind <;> decide

/-- Annotations are read back, as only empty annotations are left out. -/
theorem withDefault?_annotations {value : Json} {annotations : Annotations}
    (found : value.field? "annotations" =
      if annotations.isNone then none else some annotations.toJson) :
    value.withDefault? "annotations" Annotations.ofJson? .none = some annotations := by
  rw [Json.withDefault?, found]
  by_cases none : annotations.isNone
  · have same : annotations = .none := by simpa [Annotations.isNone] using none
    rw [if_pos none, same]
  · rw [if_neg none]
    exact annotations.ofJson?_toJson

/-- All that a node has beside its children is read back. -/
theorem headOfJson?_of_shownBy {definition : Definition} {value : Json}
    (shown : definition.ShownBy value) (fits : definition.FitsWords) (children : List Definition) :
    headOfJson? value children = some { definition with children := children } := by
  simp only [headOfJson?, Json.required?_of_field? shown.kind, kindOfJson?_name,
    Json.required?_of_field? shown.id, Json.required?_of_field? shown.label, Json.text?,
    Json.withDefault?_optionalText shown.inNamespace,
    Json.withDefault?_optionalText shown.className,
    Json.withDefault?_optionalText shown.methodName,
    Json.withDefault?_optionalText shown.qualifiedClass, Json.required?_of_field? shown.file,
    Json.required?_of_field? shown.start, Position.ofJson?_toJson fits.start,
    Json.required?_of_field? shown.stop, Position.ofJson?_toJson fits.stop,
    Json.required?_of_field? shown.depth, Json.natBelow?_ofNat fits.depth,
    withDefault?_annotations shown.annotations, Option.bind_eq_bind, Option.bind_some]

/-- Missing children are no children. -/
theorem childrenOfFields?_eq (fields : List (String × Json)) :
    childrenOfFields? fields = (Json.object fields).withDefault? "children" childrenOfJson? [] := by
  induction fields with
  | nil => rfl
  | cons field fields ih =>
      obtain ⟨name, value⟩ := field
      by_cases same : name = "children"
      · simp [childrenOfFields?, Json.withDefault?, Json.field?, same]
      · have other : ("children" == name) = false := beq_false_of_ne (Ne.symm same)
        simp [childrenOfFields?, ih, Json.withDefault?, Json.field?, List.lookup_cons, same, other]

/-- A definition is read as a node and its children. -/
theorem ofJson?_toJson_eq (definition : Definition) :
    ofJson? definition.toJson =
      (definition.toJson.withDefault? "children" childrenOfJson? []).bind
        (headOfJson? definition.toJson) := by
  obtain ⟨fields, object⟩ : ∃ fields, definition.toJson = .object fields := by
    cases definition
    exact ⟨_, rfl⟩
  rw [object, ofJson?, childrenOfFields?_eq]
  cases Json.withDefault? "children" childrenOfJson? [] (.object fields) <;> rfl

/-- A forest is written node by node. -/
theorem forestToJson_eq_map (forest : List Definition) :
    forestToJson forest = forest.map toJson := by
  induction forest with
  | nil => rfl
  | cons definition rest ih => rw [forestToJson, ih, List.map_cons]

/-- A forest is read back if each of its trees is. -/
theorem forestOfJson?_forestToJson {forest : List Definition}
    (each : ∀ definition ∈ forest, ofJson? definition.toJson = some definition) :
    forestOfJson? (forestToJson forest) = some forest := by
  induction forest with
  | nil => rfl
  | cons definition rest ih =>
      have first := each definition List.mem_cons_self
      have others := ih fun other member => each other (List.mem_cons_of_mem definition member)
      rw [forestToJson, forestOfJson?, first, others]

/-- **A tree is read back from JSON**, whatever is left out at its nodes. -/
theorem ofJson?_toJson {definition : Definition} (fits : ∀ node ∈ definition.nodes, node.FitsWords) :
    ofJson? definition.toJson = some definition := by
  induction definition using induction_children with
  | step definition ih =>
      have shown := definition.shownBy_toJson
      have head := fits definition (by simp [nodes_eq])
      have below : forestOfJson? (forestToJson definition.children) = some definition.children :=
        forestOfJson?_forestToJson fun child member => ih child member fun node within =>
          fits node (by
            rw [nodes_eq, forestNodes_eq_flatMap]
            exact List.mem_cons_of_mem _ (List.mem_flatMap_of_mem member within))
      have children : definition.toJson.withDefault? "children" childrenOfJson? [] =
          some definition.children := by
        rw [Json.withDefault?, shown.children]
        by_cases empty : definition.children = []
        · rw [if_pos empty, empty]
        · rw [if_neg empty]
          exact below
      rw [ofJson?_toJson_eq, children, Option.bind_some, headOfJson?_of_shownBy shown head]
      cases definition
      rfl

/-- Several trees are read back from JSON. -/
theorem forestOfJson?_of_fitsWords {forest : List Definition}
    (fits : ∀ node ∈ forestNodes forest, node.FitsWords) :
    forestOfJson? (forestToJson forest) = some forest :=
  forestOfJson?_forestToJson fun definition member => ofJson?_toJson fun node within =>
    fits node (by
      rw [forestNodes_eq_flatMap]
      exact List.mem_flatMap_of_mem member within)

end Definition

section Whole

namespace Json

/-- All numbers in the fields are whole numbers. -/
def FieldsWhole (fields : List (String × Json)) : Prop :=
  ∀ field ∈ fields, field.2.Whole

variable (name : String)

@[simp] theorem fieldsWhole_nil : FieldsWhole [] :=
  List.forall_mem_nil _

@[simp] theorem fieldsWhole_cons {field : String × Json} {fields : List (String × Json)} :
    FieldsWhole (field :: fields) ↔ field.2.Whole ∧ FieldsWhole fields :=
  List.forall_mem_cons

@[simp] theorem fieldsWhole_append {first second : List (String × Json)} :
    FieldsWhole (first ++ second) ↔ FieldsWhole first ∧ FieldsWhole second :=
  List.forall_mem_append

/-- An array of whole values is whole. -/
theorem whole_array_map {write : α → Json} {values : List α}
    (each : ∀ value ∈ values, (write value).Whole) : (array (values.map write)).Whole := by
  refine .array _ fun item member => ?_
  obtain ⟨value, within, rfl⟩ := List.mem_map.mp member
  exact each value within

theorem whole_strings (values : List String) : (strings values).Whole :=
  whole_array_map fun value _ => .string value

@[simp] theorem fieldsWhole_listField (values : List String) :
    FieldsWhole (listField name values) := by
  unfold listField
  split <;> simp [whole_strings]

@[simp] theorem fieldsWhole_flagField (value : Bool) : FieldsWhole (flagField name value) := by
  unfold flagField
  split <;> simp [Whole.bool]

@[simp] theorem fieldsWhole_textField (value : Option String) :
    FieldsWhole (textField name value) := by
  unfold textField
  split <;> simp [Whole.string]

theorem fieldsWhole_unless {omitted : Prop} [Decidable omitted] {value : Json}
    (whole : value.Whole) : FieldsWhole (if omitted then [] else [(name, value)]) := by
  split <;> simp [whole]

end Json

theorem Position.whole_toJson (position : Position) : position.toJson.Whole :=
  .object _ (show Json.FieldsWhole _ by simp [Json.ofNat, Json.Whole.number])

theorem Annotations.whole_toJson (annotations : Annotations) : annotations.toJson.Whole :=
  .object _ (show Json.FieldsWhole _ by simp)

/-- A tree is written in whole values at every node, by induction on its children. -/
theorem Definition.whole_toJson (definition : Definition) : definition.toJson.Whole := by
  induction definition using induction_children with
  | step definition ih =>
      obtain ⟨kind, id, label, inNamespace, className, methodName, qualifiedClass, file, span,
        depth, annotations, children⟩ := definition
      have below : (Json.array (forestToJson children)).Whole :=
        forestToJson_eq_map children ▸ Json.whole_array_map ih
      refine .object _ (show Json.FieldsWhole _ from ?_)
      simp [Json.fieldsWhole_unless, below, annotations.whole_toJson, Position.whole_toJson,
        Json.Whole.string, Json.Whole.number, Json.ofNat]

end Whole

end PhpTestIndex
