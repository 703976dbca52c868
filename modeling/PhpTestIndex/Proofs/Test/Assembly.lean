import PhpTestIndex.Proofs.Test.Grouping
import PhpTestIndex.Proofs.Test.Identity
import PhpTestIndex.Proofs.Test.Lineage

/-! # How forests are put together

Both readers put a forest together from the inside: data sets come under tests, tests under groups
and classes, and classes under nodes for their namespaces. `PhpTestIndex.Definition.IsSuite` says
what each of these nodes is like while depths and namespaces are still missing, and
`PhpTestIndex.Definition.Assembled` what is known of a forest after grouping
(`PhpTestIndex.Definition.assembled_groupByNamespace`). From it follows, for every node and the
nodes above it, where the node stands (`PhpTestIndex.Definition.Assembled.standing`).
-/

namespace PhpTestIndex.Definition

variable {file : String} {suite test node : Definition}

/-- A node has the names of a class and its file. -/
structure SharesClass (suite node : Definition) : Prop where
  inNamespace : node.inNamespace = suite.inNamespace
  className : node.className = suite.className
  qualifiedClass : node.qualifiedClass = suite.qualifiedClass
  file : node.file = suite.file

/-- The identifiers of a node are made of its names. -/
structure IsNamed (node : Definition) : Prop where
  id : Identifier.unique node.inNamespace node.className node.methodName = some node.id
  qualifiedClass :
    node.qualifiedClass = some (Identifier.qualifiedClass node.inNamespace node.className)

/-- A node stands for a data set of a test. -/
structure IsDataSetOf (test node : Definition) : Prop extends SharesClass test node where
  kind : node.kind = .dataSet
  id : node.id = Identifier.dataSet test.id node.label
  methodName : node.methodName = test.methodName
  children : node.children = []

/-- A node stands for a test or a group in a class. -/
inductive IsPart (suite : Definition) : Definition → Prop
  | test {node : Definition} (kind : node.kind = .method) (shares : SharesClass suite node)
      (named : node.IsNamed) (rows : node.children.length = node.annotations.testWith.length)
      (dataSets : ∀ child ∈ node.children, IsDataSetOf node child) : IsPart suite node
  | group {node : Definition} (kind : node.kind = .describe) (shares : SharesClass suite node)
      (named : node.IsNamed) (occupied : node.children ≠ [])
      (parts : ∀ child ∈ node.children, IsPart suite child) : IsPart suite node

/-- A node stands for a class with its tests. -/
structure IsSuite (file : String) (node : Definition) : Prop where
  kind : node.kind = .classSuite
  named : node.IsNamed
  file : node.file = file
  occupied : node.children ≠ []
  parts : ∀ child ∈ node.children, IsPart node child

theorem SharesClass.trans (first : SharesClass suite test) (second : SharesClass test node) :
    SharesClass suite node :=
  ⟨second.inNamespace.trans first.inNamespace, second.className.trans first.className,
    second.qualifiedClass.trans first.qualifiedClass, second.file.trans first.file⟩

/-- Tests and groups carry the names of the class that they are in. -/
theorem IsPart.shares (part : IsPart suite node) : SharesClass suite node := by
  cases part with
  | test _ shares => exact shares
  | group _ shares => exact shares

/-- Tests and groups are identified by the names that they carry. -/
theorem IsPart.named (part : IsPart suite node) : node.IsNamed := by
  cases part with
  | test _ _ named => exact named
  | group _ _ named => exact named

/-- What a suite is put together from are tests and groups, and nothing else. -/
theorem IsPart.kind (part : IsPart suite node) : node.kind = .method ∨ node.kind = .describe := by
  cases part with
  | test kind => exact .inl kind
  | group kind => exact .inr kind

/-- Below every test or group there is a test, if it is not one itself. -/
theorem IsPart.exists_test (part : IsPart suite node) :
    ∃ test ∈ node.nodes, test.kind = .method := by
  induction part with
  | @test node kind => exact ⟨node, by rw [nodes_eq]; exact List.mem_cons_self, kind⟩
  | @group node _ _ _ occupied _ ih =>
      obtain ⟨child, among⟩ := List.exists_mem_of_ne_nil _ occupied
      obtain ⟨test, below, kind⟩ := ih child among
      refine ⟨test, ?_, kind⟩
      rw [nodes_eq, forestNodes_eq_flatMap]
      exact List.mem_cons_of_mem node (List.mem_flatMap.mpr ⟨child, among, below⟩)

/-- What is below a test or a group belongs to the class and is named after it, data sets aside. -/
theorem IsPart.inherits (part : IsPart suite node) :
    ∀ below ∈ node.nodes, below.kind ≠ .dataSet → SharesClass suite below ∧ below.IsNamed := by
  induction part with
  | @test node _ shares named _ dataSets =>
      intro below among other
      rw [nodes_eq, forestNodes_eq_flatMap] at among
      rcases List.mem_cons.mp among with rfl | inside
      · exact ⟨shares, named⟩
      · obtain ⟨child, present, inChild⟩ := List.mem_flatMap.mp inside
        have dataSet := dataSets child present
        rw [nodes_eq, dataSet.children, forestNodes_nil, List.mem_singleton] at inChild
        rw [inChild] at other
        exact absurd dataSet.kind other
  | @group node _ shares named _ _ ih =>
      intro below among other
      rw [nodes_eq, forestNodes_eq_flatMap] at among
      rcases List.mem_cons.mp among with rfl | inside
      · exact ⟨shares, named⟩
      · obtain ⟨child, present, inChild⟩ := List.mem_flatMap.mp inside
        exact ih child present below inChild other

/-- A name in a class is known as soon as the class is. -/
theorem unique_eq_some_of_known {inNamespace className methodName : Option String} {id : String}
    (known : Identifier.unique inNamespace className methodName = some id)
    (methodName' : Option String) :
    Identifier.unique inNamespace className methodName' =
      some ((Identifier.unique inNamespace className methodName').getD "") := by
  unfold Identifier.unique at known ⊢
  split
  · rename_i absent
    rw [absent] at known
    change Identifier.present inNamespace = some id at known
    rw [known]
    rfl
  · dsimp only
    cases Identifier.present methodName' <;> rfl

section Making

variable {parent : Definition}

/-- What is made for a method or a group in a class is named after it. -/
theorem isNamed_member (named : parent.IsNamed) (kind : TestKind) (name : String) (span : Span) :
    (parent.member kind name span).IsNamed where
  id := unique_eq_some_of_known named.id (some name)
  qualifiedClass := named.qualifiedClass

theorem isDataSetOf_labelledDataSet (test : Definition) (label : String) :
    IsDataSetOf test (test.labelledDataSet label) :=
  ⟨⟨rfl, rfl, rfl, rfl⟩, rfl, rfl, rfl, rfl⟩

/-- The node that is made for a class is identified by its name and its namespace. -/
theorem isNamed_ofClass {inNamespace : Option String} {name id : String}
    (known : Identifier.unique inNamespace (some name) none = some id) (file : String)
    (span : Span) : (ofClass inNamespace name file span).IsNamed where
  id := by
    change Identifier.unique (Identifier.present inNamespace) (some name) none =
      some ((Identifier.unique inNamespace (some name) none).getD "")
    rw [Identifier.unique_present, known]
    rfl
  qualifiedClass := congrArg some (Identifier.qualifiedClass_present ..).symm

end Making

section Depths

/-- Names do not depend on depths: nodes of one class are still nodes of one class, whatever depths
they are given. -/
theorem SharesClass.assignDepth (shares : SharesClass suite node) (above depth : Nat) :
    SharesClass (suite.assignDepth above) (node.assignDepth depth) where
  inNamespace := by simpa using shares.inNamespace
  className := by simpa using shares.className
  qualifiedClass := by simpa using shares.qualifiedClass
  file := by simpa using shares.file

/-- The identifier of a node is made of its names, so giving it a depth leaves it named. -/
theorem IsNamed.assignDepth (named : node.IsNamed) (depth : Nat) :
    (node.assignDepth depth).IsNamed where
  id := by simpa using named.id
  qualifiedClass := by simpa using named.qualifiedClass

/-- The row of a test is still its row after both are given depths. -/
theorem IsDataSetOf.assignDepth (dataSet : IsDataSetOf test node) (above depth : Nat) :
    IsDataSetOf (test.assignDepth above) (node.assignDepth depth) where
  toSharesClass := dataSet.toSharesClass.assignDepth above depth
  kind := by simpa using dataSet.kind
  id := by simpa using dataSet.id
  methodName := by simpa using dataSet.methodName
  children := by simpa using dataSet.children

/-- Giving depths to a suite leaves its tests and groups parts of it, by induction on how the groups
are nested. -/
theorem IsPart.assignDepth (part : IsPart suite node) (above depth : Nat) :
    IsPart (suite.assignDepth above) (node.assignDepth depth) := by
  induction part generalizing depth with
  | @test node kind shares named rows dataSets =>
      refine .test (by simpa using kind) (shares.assignDepth above depth)
        (named.assignDepth depth) (by simpa using rows) ?_
      rw [assignDepth_children]
      exact List.forall_mem_map.mpr fun child among =>
        (dataSets child among).assignDepth depth (depth + 1)
  | @group node kind shares named occupied _ ih =>
      refine .group (by simpa using kind) (shares.assignDepth above depth)
        (named.assignDepth depth) (by simpa using occupied) ?_
      rw [assignDepth_children]
      exact List.forall_mem_map.mpr fun child among => ih child among (depth + 1)

/-- A suite that is given a depth is still a suite of the file. -/
theorem IsSuite.assignDepth (isSuite : IsSuite file suite) (depth : Nat) :
    IsSuite file (suite.assignDepth depth) where
  kind := by simpa using isSuite.kind
  named := isSuite.named.assignDepth depth
  file := by simpa using isSuite.file
  occupied := by simpa using isSuite.occupied
  parts := by
    rw [assignDepth_children]
    exact List.forall_mem_map.mpr fun child among =>
      (isSuite.parts child among).assignDepth depth (depth + 1)

end Depths

/-- A forest is put together from classes with tests, and depths are set from its roots. -/
structure Assembled (file : String) (forest : List Definition) : Prop where
  occupied : forest ≠ []
  roots : ∀ root ∈ forest, IsRoot file root
  suites : ∀ suite ∈ forest.flatMap members, IsSuite file suite
  depths : ∃ ground, forest = assignForestDepth 0 ground

/-- Grouping puts a forest together. -/
theorem assembled_groupByNamespace {classes : List Definition} (occupied : classes ≠ [])
    (suites : ∀ suite ∈ classes, IsSuite file suite) :
    Assembled file (groupByNamespace file classes) := by
  have kinds : ∀ suite ∈ classes, suite.kind = .classSuite := fun suite among =>
    (suites suite among).kind
  have kept := @flatMap_members_groupByNamespace file classes kinds
  refine ⟨fun empty => ?_, fun root => isRoot_of_mem_groupByNamespace kinds, ?_, _, rfl⟩
  · rw [empty, List.flatMap_nil] at kept
    exact occupied (List.map_eq_nil_iff.mp kept.symm)
  · rw [kept]
    exact List.forall_mem_map.mpr fun suite among => (suites suite among).assignDepth _

/-- The class in which a node stands below the nodes `above`. -/
def enclosingClass? (above : List Definition) : Option Definition :=
  above.find? fun node => node.kind = .classSuite

theorem enclosingClass?_cons_of_eq (above : List Definition) (kind : node.kind = .classSuite) :
    enclosingClass? (node :: above) = some node :=
  List.find?_cons_of_pos (by simpa using kind)

theorem enclosingClass?_cons_of_ne (above : List Definition) (kind : node.kind ≠ .classSuite) :
    enclosingClass? (node :: above) = enclosingClass? above :=
  List.find?_cons_of_neg (by simpa using kind)

/-- Where a node stands in a forest, and below which nodes. -/
inductive Standing (file : String) : List Definition → Definition → Prop
  | namespaceSuite {node : Definition} (kind : node.kind = .namespaceSuite)
      (named : node.id = node.label ∧ node.inNamespace = some node.id)
      (occupied : node.children ≠ [])
      (within : ∀ child ∈ node.children,
        IsSuite file child ∧ child.inNamespace = node.inNamespace) : Standing file [] node
  | suite {above : List Definition} {node : Definition} (isSuite : IsSuite file node)
      (outside : above = [] → node.inNamespace = none) : Standing file above node
  | part {above : List Definition} {suite node : Definition}
      (encloses : enclosingClass? above = some suite) (part : IsPart suite node) :
      Standing file above node
  | dataSet {above : List Definition} {suite test node : Definition}
      (encloses : enclosingClass? (test :: above) = some suite) (shares : SharesClass suite test)
      (dataSet : IsDataSetOf test node) : Standing file (test :: above) node

/-- Where a node stands says where its children stand. -/
theorem Standing.children {above : List Definition} (standing : Standing file above node) :
    ∀ child ∈ node.children, Standing file (node :: above) child := by
  intro child among
  cases standing with
  | namespaceSuite _ _ _ within =>
      exact .suite (within child among).1 fun outermost => absurd outermost (List.cons_ne_nil _ _)
  | suite isSuite _ =>
      exact .part (enclosingClass?_cons_of_eq above isSuite.kind) (isSuite.parts child among)
  | part encloses part =>
      have skips : enclosingClass? (node :: above) = enclosingClass? above := by
        refine enclosingClass?_cons_of_ne above fun kind => ?_
        rcases part.kind with other | other <;> simp [kind] at other
      cases part with
      | test _ shares _ _ dataSets =>
          exact .dataSet (skips.trans encloses) shares (dataSets child among)
      | group _ _ _ _ parts => exact .part (skips.trans encloses) (parts child among)
  | dataSet _ _ dataSet =>
      rw [dataSet.children] at among
      cases among

/-- Every node of a forest that is put together has its place. -/
theorem Assembled.standing {forest : List Definition} (assembled : Assembled file forest) :
    ∀ lineage ∈ forestLineages [] forest, Standing file lineage.above lineage.node := by
  refine forall_forestLineages (fun root among => ?_) fun standing => standing.children
  have suites : ∀ suite ∈ root.members, IsSuite file suite := fun suite member =>
    assembled.suites suite (List.mem_flatMap.mpr ⟨root, among, member⟩)
  cases assembled.roots root among with
  | classSuite kind outside =>
      exact .suite (suites root (by simp [members, kind])) fun _ => outside
  | @namespaceSuite name span children occupied within =>
      refine .namespaceSuite rfl ⟨rfl, rfl⟩ occupied fun child member => ⟨?_, ?_⟩
      · exact suites child (by simpa [members, ofNamespace] using member)
      · exact (within child member).2

end PhpTestIndex.Definition
