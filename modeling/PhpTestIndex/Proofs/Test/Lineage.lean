import PhpTestIndex.Proofs.Test.Tree

/-! # Nodes and the nodes above them

`PhpTestIndex.Definition.forestLineages` lists the nodes of some trees in order, each with the nodes
above it. What goes over from a node to its children holds of all of them
(`PhpTestIndex.Definition.forall_forestLineages`). Setting depths from the roots gives every node
the number of the nodes above it (`PhpTestIndex.Definition.depth_of_mem_forestLineages`).
-/

namespace PhpTestIndex.Definition

/-- A node with the nodes above it, the nearest one first. -/
structure Lineage where
  above : List Definition
  node : Definition

mutual

/-- The nodes of a tree that stands below `above`, each before those below it. -/
def lineages (above : List Definition) : Definition → List Lineage
  | ⟨kind, id, label, inNamespace, className, methodName, qualifiedClass, file, span, depth,
      annotations, children⟩ =>
    let node : Definition :=
      ⟨kind, id, label, inNamespace, className, methodName, qualifiedClass, file, span, depth,
        annotations, children⟩
    ⟨above, node⟩ :: forestLineages (node :: above) children

/-- The nodes of several trees that stand below `above`, one tree after the other. -/
def forestLineages (above : List Definition) : List Definition → List Lineage
  | [] => []
  | definition :: rest => lineages above definition ++ forestLineages above rest

end

/-- A root has the given nodes above it, and its children have these and the root above them. -/
theorem lineages_eq (above : List Definition) (node : Definition) :
    lineages above node = ⟨above, node⟩ :: forestLineages (node :: above) node.children := by
  cases node
  rfl

/-- Trees beside each other have the same nodes above them. -/
theorem forestLineages_eq_flatMap (above forest : List Definition) :
    forestLineages above forest = forest.flatMap (lineages above) := by
  induction forest with
  | nil => rfl
  | cons definition rest ih => rw [forestLineages, ih, List.flatMap_cons]

/-- Forgetting the nodes above leaves the nodes of the tree in their order. -/
theorem map_node_lineages (above : List Definition) (root : Definition) :
    (lineages above root).map Lineage.node = root.nodes := by
  induction root using induction_children generalizing above with
  | step root ih =>
      rw [lineages_eq, List.map_cons, forestLineages_eq_flatMap, List.map_flatMap, nodes_eq,
        forestNodes_eq_flatMap]
      congr 1
      exact List.flatMap_congr fun child member => ih child member (root :: above)

/-- Without the nodes above them, the nodes of some trees are left in their order. -/
theorem map_node_forestLineages (above forest : List Definition) :
    (forestLineages above forest).map Lineage.node = forestNodes forest := by
  rw [forestLineages_eq_flatMap, List.map_flatMap, forestNodes_eq_flatMap]
  exact List.flatMap_congr fun root _ => map_node_lineages above root

/-- Every node of a forest has a list of nodes above it, up to its root. -/
theorem exists_lineage_of_mem_forestNodes {forest : List Definition} {node : Definition}
    (member : node ∈ forestNodes forest) : ∃ above, ⟨above, node⟩ ∈ forestLineages [] forest := by
  rw [← map_node_forestLineages []] at member
  obtain ⟨lineage, present, rfl⟩ := List.mem_map.mp member
  exact ⟨lineage.above, present⟩

section Motive

variable {motive : List Definition → Definition → Prop}

/-- What the root has, and every child takes over from its parent, holds of all nodes below with
whatever stands above them. -/
theorem forall_lineages
    (step : ∀ {above node}, motive above node → ∀ child ∈ node.children,
      motive (node :: above) child)
    (root : Definition) (above : List Definition) (holds : motive above root) :
    ∀ lineage ∈ lineages above root, motive lineage.above lineage.node := by
  induction root using induction_children generalizing above with
  | step root ih =>
      intro lineage member
      rw [lineages_eq, forestLineages_eq_flatMap] at member
      rcases List.mem_cons.mp member with rfl | below
      · exact holds
      · obtain ⟨child, among, inside⟩ := List.mem_flatMap.mp below
        exact ih child among (root :: above) (step holds child among) lineage inside

/-- What holds of the roots and goes over from a node to its children holds of all nodes. -/
theorem forall_forestLineages {forest : List Definition}
    (roots : ∀ root ∈ forest, motive [] root)
    (step : ∀ {above node}, motive above node → ∀ child ∈ node.children,
      motive (node :: above) child) :
    ∀ lineage ∈ forestLineages [] forest, motive lineage.above lineage.node := by
  intro lineage member
  rw [forestLineages_eq_flatMap] at member
  obtain ⟨root, among, inside⟩ := List.mem_flatMap.mp member
  exact forall_lineages step root [] (roots root among) lineage inside

end Motive

/-- **Depth is the number of nodes above.** -/
theorem depth_of_mem_forestLineages {forest : List Definition} {lineage : Lineage}
    (member : lineage ∈ forestLineages [] (assignForestDepth 0 forest)) :
    lineage.node.depth = lineage.above.length := by
  -- What goes over to the children is that the depth was set to the number of the nodes above.
  let isSet (above : List Definition) (node : Definition) : Prop :=
    ∃ original : Definition, node = original.assignDepth above.length
  have roots : ∀ root ∈ assignForestDepth 0 forest, isSet [] root := by
    intro root among
    rw [assignForestDepth_eq_map] at among
    obtain ⟨original, _, rfl⟩ := List.mem_map.mp among
    exact ⟨original, rfl⟩
  have step {above : List Definition} {node : Definition} (set : isSet above node) :
      ∀ child ∈ node.children, isSet (node :: above) child := by
    obtain ⟨original, rfl⟩ := set
    intro child among
    rw [assignDepth_children] at among
    obtain ⟨below, _, rfl⟩ := List.mem_map.mp among
    exact ⟨below, rfl⟩
  obtain ⟨original, equal⟩ := forall_forestLineages roots step lineage member
  rw [equal, assignDepth_eq]

end PhpTestIndex.Definition
