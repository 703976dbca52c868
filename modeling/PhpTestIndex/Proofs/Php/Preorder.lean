import PhpTestIndex.Proofs.Php.Inside

/-! # The nodes of a syntax tree in source order

`PhpTestIndex.Php.Node.nodes` lists a syntax tree from its root down, siblings in order. The list is
the root and then the lists of its children (`PhpTestIndex.Php.Node.nodes_eq`), and its members are
the nodes inside the tree (`PhpTestIndex.Php.Node.mem_nodes_iff`).
-/

namespace PhpTestIndex.Php

namespace Node

/-- A child is smaller than the node that it stands in. -/
theorem sizeOf_lt_of_mem_children {child node : Node} (among : child ∈ node.children) :
    sizeOf child < sizeOf node := by
  have smaller := List.sizeOf_lt_of_mem among
  cases node
  simp only [Node.mk.sizeOf_spec] at *
  omega

/-- A property that a node has whenever its children have it holds of all syntax trees. -/
theorem induction_children {motive : Node → Prop}
    (step : ∀ node, (∀ child ∈ node.children, motive child) → motive node) (node : Node) :
    motive node :=
  step node fun child among =>
    have := sizeOf_lt_of_mem_children among
    induction_children step child
termination_by sizeOf node

/-- The nodes of a tree, a parent before its children and siblings in order. -/
def nodes (root : Node) : List Node :=
  (root.descendants none).map Placed.node

/-- What stands before a tree does not count for its nodes. -/
theorem map_node_descendants (root : Node) (before : Option Node) :
    (root.descendants before).map Placed.node = root.nodes := by
  cases root
  rfl

/-- Without what stands before each of them, the nodes below some siblings are listed in preorder.
-/
theorem map_node_siblingsDescendants (siblings : List Node) (before : Option Node) :
    (siblingsDescendants before siblings).map Placed.node = siblings.flatMap nodes := by
  induction siblings generalizing before with
  | nil => rfl
  | cons node rest ih =>
      rw [siblingsDescendants, List.map_append, map_node_descendants, ih, List.flatMap_cons]

/-- A tree is listed from its root on, and then child by child. -/
theorem nodes_eq (root : Node) : root.nodes = root :: root.children.flatMap nodes := by
  rw [← map_node_siblingsDescendants root.children none]
  cases root
  rfl

/-- Every node in a tree is listed. -/
theorem mem_nodes_of_inside {root node : Node} (inside : root.Inside node) :
    node ∈ root.nodes := by
  obtain ⟨before, member⟩ := inside.exists_mem_descendants
  exact List.mem_map_of_mem member

/-- Every listed node stands in the tree. -/
theorem inside_of_mem_nodes {root node : Node} (member : node ∈ root.nodes) :
    root.Inside node := by
  induction root using induction_children generalizing node with
  | step root ih =>
      rw [nodes_eq] at member
      rcases List.mem_cons.mp member with rfl | below
      · exact .root
      · obtain ⟨child, among, inChild⟩ := List.mem_flatMap.mp below
        exact (Inside.root.child among).trans (ih child among inChild)

theorem mem_nodes_iff {root node : Node} : node ∈ root.nodes ↔ root.Inside node :=
  ⟨inside_of_mem_nodes, mem_nodes_of_inside⟩

end Node

end PhpTestIndex.Php
