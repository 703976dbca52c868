import Mathlib.Data.List.Basic
import PhpTestIndex.Test.Definition

/-! # Nodes and depths of definition trees

Equations that take the place of the recursions over a tree: the nodes of a tree are its root and
the nodes of its children (`PhpTestIndex.Definition.nodes_eq`), and setting depths changes the
depth of every node and nothing else (`PhpTestIndex.Definition.assignDepth_eq`,
`PhpTestIndex.Definition.forestNodes_assignForestDepth`).
-/

namespace PhpTestIndex.Definition

/-- A child is smaller than its parent, so a recursion may go down the children as a list. -/
theorem sizeOf_lt_of_mem_children {child definition : Definition}
    (member : child ∈ definition.children) : sizeOf child < sizeOf definition := by
  have smaller := List.sizeOf_lt_of_mem member
  cases definition
  simp only [Definition.mk.sizeOf_spec] at *
  omega

/-- A property that a node has whenever its children have it holds of all definitions. -/
theorem induction_children {motive : Definition → Prop}
    (step : ∀ definition, (∀ child ∈ definition.children, motive child) → motive definition)
    (definition : Definition) : motive definition :=
  step definition fun child member =>
    have := sizeOf_lt_of_mem_children member
    induction_children step child
termination_by sizeOf definition

/-- The nodes of a tree in order: first the root, then what stands below it. Proofs use this
equation in the place of the nested recursion that lists the nodes. -/
theorem nodes_eq (definition : Definition) :
    definition.nodes = definition :: forestNodes definition.children := by
  cases definition
  rfl

@[simp] theorem forestNodes_nil : forestNodes [] = [] := rfl

@[simp] theorem forestNodes_cons (definition : Definition) (rest : List Definition) :
    forestNodes (definition :: rest) = definition.nodes ++ forestNodes rest := rfl

/-- The nodes of some trees are those of one tree after the other. -/
theorem forestNodes_eq_flatMap (forest : List Definition) :
    forestNodes forest = forest.flatMap nodes := by
  induction forest with
  | nil => rfl
  | cons definition rest ih => rw [forestNodes_cons, ih, List.flatMap_cons]

theorem forestNodes_append (first second : List Definition) :
    forestNodes (first ++ second) = forestNodes first ++ forestNodes second := by
  simp only [forestNodes_eq_flatMap, List.flatMap_append]

/-- Setting the depths of some trees sets those of every one of them, from the same depth on. -/
theorem assignForestDepth_eq_map (depth : Nat) (forest : List Definition) :
    assignForestDepth depth forest = forest.map (assignDepth depth) := by
  induction forest with
  | nil => rfl
  | cons definition rest ih => rw [assignForestDepth, ih, List.map_cons]

/-- Setting depths changes the depth of the root, goes on one deeper with its children, and leaves
everything else as it is. -/
theorem assignDepth_eq (depth : Nat) (definition : Definition) :
    definition.assignDepth depth =
      { definition with
        depth := depth
        children := definition.children.map (assignDepth (depth + 1)) } := by
  cases definition
  rw [assignDepth, assignForestDepth_eq_map]

/-- Setting depths keeps the kind of a node, as it keeps every other field but the depth and the
children. -/
@[simp] theorem assignDepth_kind (depth : Nat) (definition : Definition) :
    (definition.assignDepth depth).kind = definition.kind := by
  rw [assignDepth_eq]

@[simp] theorem assignDepth_id (depth : Nat) (definition : Definition) :
    (definition.assignDepth depth).id = definition.id := by
  rw [assignDepth_eq]

@[simp] theorem assignDepth_label (depth : Nat) (definition : Definition) :
    (definition.assignDepth depth).label = definition.label := by
  rw [assignDepth_eq]

@[simp] theorem assignDepth_inNamespace (depth : Nat) (definition : Definition) :
    (definition.assignDepth depth).inNamespace = definition.inNamespace := by
  rw [assignDepth_eq]

@[simp] theorem assignDepth_className (depth : Nat) (definition : Definition) :
    (definition.assignDepth depth).className = definition.className := by
  rw [assignDepth_eq]

@[simp] theorem assignDepth_methodName (depth : Nat) (definition : Definition) :
    (definition.assignDepth depth).methodName = definition.methodName := by
  rw [assignDepth_eq]

@[simp] theorem assignDepth_qualifiedClass (depth : Nat) (definition : Definition) :
    (definition.assignDepth depth).qualifiedClass = definition.qualifiedClass := by
  rw [assignDepth_eq]

@[simp] theorem assignDepth_file (depth : Nat) (definition : Definition) :
    (definition.assignDepth depth).file = definition.file := by
  rw [assignDepth_eq]

@[simp] theorem assignDepth_span (depth : Nat) (definition : Definition) :
    (definition.assignDepth depth).span = definition.span := by
  rw [assignDepth_eq]

@[simp] theorem assignDepth_annotations (depth : Nat) (definition : Definition) :
    (definition.assignDepth depth).annotations = definition.annotations := by
  rw [assignDepth_eq]

@[simp] theorem assignDepth_children (depth : Nat) (definition : Definition) :
    (definition.assignDepth depth).children =
      definition.children.map (assignDepth (depth + 1)) := by
  rw [assignDepth_eq]

/-- What a node says of itself: its place in the tree and the nodes below it aside. -/
def head (definition : Definition) : Definition :=
  { definition with depth := 0, children := [] }

/-- Setting depths keeps what the nodes of a tree say of themselves. -/
theorem nodes_assignDepth (depth : Nat) (definition : Definition) :
    (definition.assignDepth depth).nodes.map head = definition.nodes.map head := by
  induction definition using induction_children generalizing depth with
  | step definition ih =>
      rw [nodes_eq, nodes_eq, List.map_cons, List.map_cons, assignDepth_children,
        forestNodes_eq_flatMap, forestNodes_eq_flatMap, List.flatMap_map, List.map_flatMap,
        List.map_flatMap]
      congr 1
      · rw [assignDepth_eq]
        rfl
      · exact List.flatMap_congr fun child member => ih child member (depth + 1)

/-- Whatever a node says, apart from its depth and its children, survives setting the depths of a
forest, node by node and in the same order. -/
theorem forestNodes_assignForestDepth (depth : Nat) (forest : List Definition) :
    (forestNodes (assignForestDepth depth forest)).map head = (forestNodes forest).map head := by
  rw [assignForestDepth_eq_map, forestNodes_eq_flatMap, forestNodes_eq_flatMap, List.flatMap_map,
    List.map_flatMap, List.map_flatMap]
  exact List.flatMap_congr fun definition _ => nodes_assignDepth depth definition

end PhpTestIndex.Definition
