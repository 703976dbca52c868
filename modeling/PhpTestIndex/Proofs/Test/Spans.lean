import PhpTestIndex.Proofs.Php.Order
import PhpTestIndex.Proofs.Test.Runs

/-! # How spans nest

Trees are laid out (`PhpTestIndex.Definition.LaidOut`) if they stand one after the other between two
offsets and so do the children of every node, data sets aside, which stand where their test does.
Grouping classes that are laid out gives a forest in which spans nest and follow each other
(`PhpTestIndex.Definition.nested_groupByNamespace`).
-/

namespace PhpTestIndex

/-- A stretch of a file lies inside another one. -/
def Span.Within (inner outer : Span) : Prop :=
  outer.start.offset ≤ inner.start.offset ∧ inner.stop.offset ≤ outer.stop.offset

/-- A stretch of a file lies between two offsets. -/
def Span.Between (low high : Nat) (span : Span) : Prop :=
  low ≤ span.start.offset ∧ span.start.offset ≤ span.stop.offset ∧ span.stop.offset ≤ high

/-- A stretch of a file ends before another one starts. -/
def Span.Precedes (first second : Span) : Prop :=
  first.stop.offset ≤ second.start.offset

namespace Definition

variable {file : String} {low mid high : Nat} {node : Definition}
  {forest first second classes : List Definition}

/-- The children of a node stand inside it and one after the other; data sets stand where the node
itself does, and a namespace goes from its first to its last class. -/
structure SpansNest (node : Definition) : Prop where
  within : ∀ child ∈ node.children, child.span.Within node.span
  apart : (node.children.filter fun child => child.kind ≠ .dataSet).Pairwise
    fun child child' => child.span.Precedes child'.span
  dataSets : ∀ child ∈ node.children, child.kind = .dataSet → child.span = node.span
  classes : node.SpansClasses

/-- The roots of a forest stand one after the other, and spans nest in all its nodes. -/
structure Nested (forest : List Definition) : Prop where
  roots : forest.Pairwise fun root root' => root.span.Precedes root'.span
  nodes : ∀ node ∈ forestNodes forest, node.SpansNest

/-- Some trees without data sets at their roots stand one after the other between two offsets, and
spans nest in all their nodes. -/
structure LaidOut (low high : Nat) (forest : List Definition) : Prop where
  le : low ≤ high
  bounds : ∀ node ∈ forestNodes forest, node.span.Between low high
  kinds : ∀ root ∈ forest, root.kind ≠ .dataSet
  nested : Nested forest

/-- The roots of a forest are among its nodes. -/
theorem mem_forestNodes_of_mem (among : node ∈ forest) : node ∈ forestNodes forest := by
  rw [forestNodes_eq_flatMap]
  refine List.mem_flatMap.mpr ⟨node, among, ?_⟩
  rw [nodes_eq]
  exact List.mem_cons_self

namespace LaidOut

/-- A root of a forest that is laid out between two bounds lies between them itself. -/
theorem bounds_root (laidOut : LaidOut low high forest) (among : node ∈ forest) :
    node.span.Between low high :=
  laidOut.bounds node (mem_forestNodes_of_mem among)

/-- Nothing can be laid out between any two bounds in order. -/
theorem nil (le : low ≤ high) : LaidOut low high [] where
  le := le
  bounds root among := by cases among
  kinds root among := by cases among
  nested := ⟨.nil, fun node among => by cases among⟩

/-- A forest that fits between two bounds fits between wider ones. -/
theorem mono {low' high' : Nat} (laidOut : LaidOut low high forest) (below : low' ≤ low)
    (above : high ≤ high') : LaidOut low' high' forest where
  le := below.trans (laidOut.le.trans above)
  bounds node among := by
    obtain ⟨after, forward, before⟩ := laidOut.bounds node among
    exact ⟨below.trans after, forward, before.trans above⟩
  kinds := laidOut.kinds
  nested := laidOut.nested

/-- Two forests that are laid out one behind the other are laid out as one, since all spans of the
first end where the second may begin. -/
theorem append (before : LaidOut low mid first) (after : LaidOut mid high second) :
    LaidOut low high (first ++ second) where
  le := before.le.trans after.le
  bounds := by
    have early := before.mono le_rfl after.le
    have late := after.mono before.le le_rfl
    rw [forestNodes_append]
    exact List.forall_mem_append.mpr ⟨early.bounds, late.bounds⟩
  kinds := List.forall_mem_append.mpr ⟨before.kinds, after.kinds⟩
  nested := by
    refine ⟨List.pairwise_append.mpr ⟨before.nested.roots, after.nested.roots, ?_⟩, ?_⟩
    · intro root among root' among'
      exact (before.bounds_root among).2.2.trans (after.bounds_root among').1
    · rw [forestNodes_append]
      exact List.forall_mem_append.mpr ⟨before.nested.nodes, after.nested.nodes⟩

/-- A node with children inside it is laid out if its children are. -/
theorem of_spansNest (kind : node.kind ≠ .dataSet) (starts : node.span.start.offset = low)
    (stops : node.span.stop.offset = high) (forward : low ≤ high) (nest : node.SpansNest)
    (inside : ∀ child ∈ forestNodes node.children, child.span.Between low high)
    (below : ∀ child ∈ forestNodes node.children, child.SpansNest) : LaidOut low high [node] where
  le := forward
  bounds := by
    rw [forestNodes_cons, forestNodes_nil, List.append_nil, nodes_eq]
    refine List.forall_mem_cons.mpr ⟨⟨starts.ge, ?_, stops.le⟩, inside⟩
    rw [starts, stops]
    exact forward
  kinds := List.forall_mem_singleton.mpr kind
  nested := by
    refine ⟨List.pairwise_singleton _ _, ?_⟩
    rw [forestNodes_cons, forestNodes_nil, List.append_nil, nodes_eq]
    exact List.forall_mem_cons.mpr ⟨nest, below⟩

/-- A node around trees that are laid out in it. -/
theorem around (kind : node.kind = .classSuite ∨ node.kind = .describe)
    (starts : node.span.start.offset = low) (stops : node.span.stop.offset = high)
    (inside : LaidOut low high node.children) : LaidOut low high [node] := by
  have noDataSet : node.kind ≠ .dataSet := by
    rcases kind with kind | kind <;> simp [kind]
  refine of_spansNest noDataSet starts stops inside.le ⟨?_, ?_, ?_, ?_⟩ inside.bounds
    inside.nested.nodes
  · intro child among
    obtain ⟨after, _, before⟩ := inside.bounds_root among
    exact ⟨starts.le.trans after, before.trans stops.ge⟩
  · exact inside.nested.roots.sublist List.filter_sublist
  · intro child among isDataSet
    exact absurd isDataSet (inside.kinds child among)
  · intro isNamespace
    rcases kind with other | other <;> simp [isNamespace] at other

/-- A test with data sets that stand where the test does. -/
theorem test (kind : node.kind = .method) (starts : node.span.start.offset = low)
    (stops : node.span.stop.offset = high) (forward : low ≤ high)
    (dataSets : ∀ child ∈ node.children,
      child.kind = .dataSet ∧ child.span = node.span ∧ child.children = []) :
    LaidOut low high [node] := by
  -- Data sets have no children, so the nodes below a test are its children.
  have leaves : ∀ below ∈ forestNodes node.children, below ∈ node.children := by
    intro below among
    rw [forestNodes_eq_flatMap] at among
    obtain ⟨child, present, inside⟩ := List.mem_flatMap.mp among
    rw [nodes_eq, (dataSets child present).2.2, forestNodes_nil, List.mem_singleton] at inside
    exact inside ▸ present
  refine of_spansNest (by simp [kind]) starts stops forward ⟨?_, ?_, ?_, ?_⟩ ?_ ?_
  · intro child among
    rw [(dataSets child among).2.1]
    exact ⟨le_rfl, le_rfl⟩
  · have none' : (node.children.filter fun child => child.kind ≠ .dataSet) = [] := by
      refine List.filter_eq_nil_iff.mpr fun child among => ?_
      simp [(dataSets child among).1]
    rw [none']
    exact .nil
  · intro child among _
    exact (dataSets child among).2.1
  · intro isNamespace
    simp [kind] at isNamespace
  · intro below among
    rw [(dataSets below (leaves below among)).2.1]
    refine ⟨starts.ge, ?_, stops.le⟩
    rw [starts, stops]
    exact forward
  · intro below among
    obtain ⟨isDataSet, _, childless⟩ := dataSets below (leaves below among)
    refine ⟨?_, ?_, ?_, ?_⟩
    · simp [childless]
    · simp [childless]
    · simp [childless]
    · intro isNamespace
      simp [isDataSet] at isNamespace

/-- What is made of nodes in order is laid out like them. -/
theorem flatMap {α : Type} {items : List α} {place : α → Php.Node} {make : α → List Definition}
    (inOrder : Php.InOrder low (items.map place) high)
    (each : ∀ item ∈ items, (place item).Ordered →
      LaidOut (place item).start.offset (place item).stop.offset (make item)) :
    LaidOut low high (items.flatMap make) := by
  induction items generalizing low with
  | nil => exact .nil inOrder.le
  | cons item rest ih =>
      obtain ⟨after, ordered, later⟩ := Php.inOrder_cons.mp inOrder
      obtain ⟨here, others⟩ := List.forall_mem_cons.mp each
      rw [List.flatMap_cons]
      exact ((here ordered).mono after le_rfl).append (ih later others)

end LaidOut

section Depths

/-- Setting depths moves no node, so children still lie within their parents in order. -/
theorem SpansNest.assignDepth (nest : node.SpansNest) (depth : Nat) :
    (node.assignDepth depth).SpansNest where
  within := by
    rw [assignDepth_children, assignDepth_span]
    refine List.forall_mem_map.mpr fun child among => ?_
    rw [assignDepth_span]
    exact nest.within child among
  apart := by
    rw [assignDepth_children, List.filter_map, List.pairwise_map]
    simpa [Function.comp_def] using nest.apart
  dataSets := by
    rw [assignDepth_children, assignDepth_span]
    refine List.forall_mem_map.mpr fun child among isDataSet => ?_
    rw [assignDepth_kind] at isDataSet
    rw [assignDepth_span]
    exact nest.dataSets child among isDataSet
  classes := nest.classes.assignDepth depth

/-- The nodes of a tree whose depths are set are its nodes with other depths. -/
theorem exists_of_mem_nodes_assignDepth {root : Definition} {depth : Nat}
    (among : node ∈ (root.assignDepth depth).nodes) :
    ∃ original ∈ root.nodes, ∃ other, node = original.assignDepth other := by
  induction root using induction_children generalizing depth with
  | step root ih =>
      rw [nodes_eq, assignDepth_children, forestNodes_eq_flatMap, List.flatMap_map] at among
      rw [nodes_eq, forestNodes_eq_flatMap]
      rcases List.mem_cons.mp among with rfl | below
      · exact ⟨root, List.mem_cons_self, depth, rfl⟩
      · obtain ⟨child, present, inside⟩ := List.mem_flatMap.mp below
        obtain ⟨original, inChild, other, equal⟩ := ih child present inside
        refine ⟨original, ?_, other, equal⟩
        exact List.mem_cons_of_mem root (List.mem_flatMap.mpr ⟨child, present, inChild⟩)

end Depths

/-- A root goes from the start of one of its classes to the end of another one. -/
theorem exists_members_of_spansClasses {root : Definition} (spans : root.SpansClasses) :
    ∃ first ∈ root.members, ∃ last ∈ root.members,
      root.span.start = first.span.start ∧ root.span.stop = last.span.stop := by
  by_cases kind : root.kind = .namespaceSuite
  · obtain ⟨first, last, starts, ends, span⟩ := spans kind
    rw [members, if_pos kind, span]
    exact ⟨first, List.mem_of_head? starts, last, List.mem_of_getLast? ends, rfl, rfl⟩
  · rw [members, if_neg kind]
    exact ⟨root, List.mem_singleton_self root, root, List.mem_singleton_self root, rfl, rfl⟩

/-- What stands below the roots of a grouped forest, or at a root that is a class, is what stands in
the classes, with other depths. -/
theorem exists_of_mem_members (kinds : ∀ suite ∈ classes, suite.kind = .classSuite)
    (below : node ∈ ((groupByNamespace file classes).flatMap members).flatMap nodes) :
    ∃ ground ∈ forestNodes classes, ∃ depth, node = ground.assignDepth depth := by
  rw [flatMap_members_groupByNamespace kinds] at below
  obtain ⟨suite, present, inside⟩ := List.mem_flatMap.mp below
  obtain ⟨original, isClass, rfl⟩ := List.mem_map.mp present
  obtain ⟨ground, inOriginal, depth, equal⟩ := exists_of_mem_nodes_assignDepth inside
  refine ⟨ground, ?_, depth, equal⟩
  rw [forestNodes_eq_flatMap]
  exact List.mem_flatMap.mpr ⟨original, isClass, inOriginal⟩

/-- **Grouping keeps spans nested.** Classes that stand one after the other are grouped into a forest
in which spans nest. -/
theorem nested_groupByNamespace (kinds : ∀ suite ∈ classes, suite.kind = .classSuite)
    (laidOut : LaidOut low high classes) : Nested (groupByNamespace file classes) := by
  have kept := @flatMap_members_groupByNamespace file classes kinds
  have spans := fun root among => @spansClasses_of_mem_groupByNamespace file root classes kinds among
  have isRoot := fun root among => @isRoot_of_mem_groupByNamespace file classes kinds root among
  -- In the order of the classes, each one of a root stands before each one of a later root.
  have apart : ((groupByNamespace file classes).flatMap members).Pairwise
      fun suite suite' => suite.span.Precedes suite'.span := by
    rw [kept, List.pairwise_map]
    simpa only [assignDepth_span] using laidOut.nested.roots
  obtain ⟨inRoot, between⟩ := List.pairwise_flatMap.mp apart
  have forward : ∀ suite ∈ (groupByNamespace file classes).flatMap members,
      suite.span.start.offset ≤ suite.span.stop.offset := by
    rw [kept]
    refine List.forall_mem_map.mpr fun suite among => ?_
    rw [assignDepth_span]
    exact (laidOut.bounds_root among).2.1
  constructor
  · refine between.imp_of_mem fun {root root'} among among' before => ?_
    obtain ⟨_, _, last, inLast, _, ends⟩ :=
      exists_members_of_spansClasses (spans root among)
    obtain ⟨first, inFirst, _, _, starts, _⟩ :=
      exists_members_of_spansClasses (spans root' among')
    rw [Span.Precedes, ends, starts]
    exact before last inLast first inFirst
  · intro node among
    rcases mem_forestNodes among with ⟨root, kind⟩ | below
    · have ofRoot : node.members = node.children := if_pos kind
      obtain ⟨first, last, starts, ends, span⟩ := spans node root kind
      have pairwise := ofRoot ▸ inRoot node root
      have forwardHere : ∀ child ∈ node.children,
          child.span.start.offset ≤ child.span.stop.offset := fun child present =>
        forward child (List.mem_flatMap.mpr ⟨node, root, ofRoot.symm ▸ present⟩)
      refine ⟨fun child present => ?_, pairwise.sublist List.filter_sublist, ?_, spans node root⟩
      · rw [span]
        exact bounds_of_pairwise pairwise forwardHere starts ends present
      · intro child present isDataSet
        cases isRoot node root with
        | classSuite other _ => simp [other] at kind
        | namespaceSuite _ _ _ within => simp [(within child present).1] at isDataSet
    · obtain ⟨ground, present, depth, rfl⟩ := exists_of_mem_members kinds below
      exact (laidOut.nested.nodes ground present).assignDepth depth

/-- Grouping keeps nodes between the offsets between which the classes stand. -/
theorem between_groupByNamespace (kinds : ∀ suite ∈ classes, suite.kind = .classSuite)
    (laidOut : LaidOut low high classes) :
    ∀ node ∈ forestNodes (groupByNamespace file classes), node.span.Between low high := by
  intro node among
  rcases mem_forestNodes among with ⟨root, kind⟩ | below
  · have nest := (@nested_groupByNamespace file _ _ _ kinds laidOut).nodes node among
    have ofRoot : node.members = node.children := if_pos kind
    have inside : ∀ child ∈ node.children, child.span.Between low high := by
      intro child present
      have member : child ∈ (groupByNamespace file classes).flatMap members :=
        List.mem_flatMap.mpr ⟨node, root, ofRoot.symm ▸ present⟩
      rw [flatMap_members_groupByNamespace kinds] at member
      obtain ⟨original, isClass, rfl⟩ := List.mem_map.mp member
      rw [assignDepth_span]
      exact laidOut.bounds_root isClass
    obtain ⟨first, last, starts, ends, span⟩ :=
      spansClasses_of_mem_groupByNamespace kinds root kind
    have isFirst := List.mem_of_head? starts
    have isLast := List.mem_of_getLast? ends
    have within := nest.within first isFirst
    refine ⟨?_, ?_, ?_⟩
    · rw [span]
      exact (inside first isFirst).1
    · exact within.1.trans ((inside first isFirst).2.1.trans within.2)
    · rw [span]
      exact (inside last isLast).2.2
  · obtain ⟨ground, present, depth, rfl⟩ := exists_of_mem_members kinds below
    rw [assignDepth_span]
    exact laidOut.bounds ground present

end Definition

end PhpTestIndex
