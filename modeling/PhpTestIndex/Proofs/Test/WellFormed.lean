import PhpTestIndex.Proofs.Test.Assembly

/-! # Well-formed forests

A forest is well-formed (`PhpTestIndex.Definition.WellFormed`) if every node has the children that
a node of its kind has, every node that gathers others has a test below it, and depths count the
nodes above. Every forest that is put together is well-formed
(`PhpTestIndex.Definition.Assembled.wellFormed`).
-/

namespace PhpTestIndex.Definition

/-- There is a test below a node. -/
def HasTest (node : Definition) : Prop :=
  ∃ test ∈ forestNodes node.children, test.kind = .method

/-- A node has the children that a node of its kind has. -/
def HasShape (node : Definition) : Prop :=
  match node.kind with
  | .namespaceSuite => (∀ child ∈ node.children, child.kind = .classSuite) ∧ node.HasTest
  | .classSuite | .describe =>
    (∀ child ∈ node.children, child.kind = .method ∨ child.kind = .describe) ∧ node.HasTest
  | .method =>
    (∀ child ∈ node.children, child.kind = .dataSet) ∧
      node.children.length = node.annotations.testWith.length
  | .dataSet => node.children = []

/-- A forest in which every node has its place. -/
structure WellFormed (forest : List Definition) : Prop where
  occupied : forest ≠ []
  roots : ∀ root ∈ forest,
    root.kind = .namespaceSuite ∨ root.kind = .classSuite ∧ root.inNamespace = none
  shapes : ∀ node ∈ forestNodes forest, node.HasShape
  depths : ∀ lineage ∈ forestLineages [] forest, lineage.node.depth = lineage.above.length

variable {file : String} {suite node : Definition}

/-- A node has a test below it if one of its children is a test or has one. -/
theorem hasTest_of_child {child : Definition} (among : child ∈ node.children)
    (below : ∃ test ∈ child.nodes, test.kind = .method) : node.HasTest := by
  obtain ⟨test, inside, kind⟩ := below
  refine ⟨test, ?_, kind⟩
  rw [forestNodes_eq_flatMap]
  exact List.mem_flatMap.mpr ⟨child, among, inside⟩

/-- There is a test below every node with children that are tests and groups. -/
theorem hasTest_of_parts (occupied : node.children ≠ [])
    (parts : ∀ child ∈ node.children, IsPart suite child) : node.HasTest := by
  obtain ⟨child, among⟩ := List.exists_mem_of_ne_nil _ occupied
  exact hasTest_of_child among (parts child among).exists_test

theorem IsSuite.hasTest (isSuite : IsSuite file node) : node.HasTest :=
  hasTest_of_parts isSuite.occupied isSuite.parts

/-- What stands in a forest has the shape of its kind. -/
theorem Standing.hasShape {above : List Definition} (standing : Standing file above node) :
    node.HasShape := by
  unfold HasShape
  cases standing with
  | namespaceSuite kind _ occupied within =>
      simp only [kind]
      refine ⟨fun child among => (within child among).1.kind, ?_⟩
      obtain ⟨child, among⟩ := List.exists_mem_of_ne_nil _ occupied
      obtain ⟨test, below, isTest⟩ := (within child among).1.hasTest
      refine hasTest_of_child among ⟨test, ?_, isTest⟩
      rw [nodes_eq]
      exact List.mem_cons_of_mem child below
  | suite isSuite _ =>
      simp only [isSuite.kind]
      exact ⟨fun child among => (isSuite.parts child among).kind, isSuite.hasTest⟩
  | part _ part =>
      cases part with
      | test kind _ _ rows dataSets =>
          simp only [kind]
          exact ⟨fun child among => (dataSets child among).kind, rows⟩
      | group kind _ _ occupied parts =>
          simp only [kind]
          exact ⟨fun child among => (parts child among).kind, hasTest_of_parts occupied parts⟩
  | dataSet _ _ dataSet =>
      simp only [dataSet.kind]
      exact dataSet.children

/-- A forest that is put together is well-formed. -/
theorem Assembled.wellFormed {forest : List Definition} (assembled : Assembled file forest) :
    WellFormed forest where
  occupied := assembled.occupied
  roots root among := by
    cases assembled.roots root among with
    | classSuite kind outside => exact .inr ⟨kind, outside⟩
    | namespaceSuite name span occupied within => exact .inl rfl
  shapes node among := by
    obtain ⟨above, lineage⟩ := exists_lineage_of_mem_forestNodes among
    exact (assembled.standing ⟨above, node⟩ lineage).hasShape
  depths lineage among := by
    obtain ⟨ground, rfl⟩ := assembled.depths
    exact depth_of_mem_forestLineages among

end PhpTestIndex.Definition
