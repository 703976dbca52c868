import PhpTestIndex.Proofs.Test.Tree
import PhpTestIndex.Test.Grouping

/-! # Grouping keeps every class in its place

Grouping puts classes under nodes for their namespaces.  Taking the classes out of these nodes
again (`PhpTestIndex.Definition.members`) gives back the classes that were grouped, each once and
in order, with nothing changed but depths
(`PhpTestIndex.Definition.flatMap_members_groupByNamespace`), and a class stands under a node of
its own namespace or, without a namespace, at the root
(`PhpTestIndex.Definition.isRoot_of_mem_groupByNamespace`).
-/

namespace PhpTestIndex.Definition

/-- The classes that a root stands for: those under the node of a namespace, or the root itself. -/
def members (root : Definition) : List Definition :=
  if root.kind = .namespaceSuite then root.children else [root]

/-- The nodes of a root are its own node, if it is a namespace, and the nodes of its classes. -/
theorem nodes_eq_members (root : Definition) :
    root.nodes =
      (if root.kind = .namespaceSuite then [root] else []) ++ root.members.flatMap nodes := by
  unfold members
  split
  · rw [nodes_eq, forestNodes_eq_flatMap]
    rfl
  · exact (List.flatMap_singleton nodes root).symm

/-- A node of a forest is a root or stands below the classes of the forest. -/
theorem mem_forestNodes {forest : List Definition} {node : Definition}
    (member : node ∈ forestNodes forest) :
    (node ∈ forest ∧ node.kind = .namespaceSuite) ∨
      node ∈ (forest.flatMap members).flatMap nodes := by
  rw [forestNodes_eq_flatMap] at member
  obtain ⟨root, among, inside⟩ := List.mem_flatMap.mp member
  rw [nodes_eq_members] at inside
  rcases List.mem_append.mp inside with here | below
  · split at here
    · rename_i kind
      rw [List.mem_singleton.mp here]
      exact .inl ⟨among, kind⟩
    · cases here
  · obtain ⟨suite, ofRoot, inSuite⟩ := List.mem_flatMap.mp below
    exact .inr (List.mem_flatMap.mpr ⟨suite, List.mem_flatMap.mpr ⟨root, among, ofRoot⟩, inSuite⟩)

/-- The nodes of a forest that are no namespaces are those of its classes, if there are no
namespaces below classes. -/
theorem filter_forestNodes {forest : List Definition}
    (below : ∀ node ∈ (forest.flatMap members).flatMap nodes, node.kind ≠ .namespaceSuite) :
    ((forestNodes forest).filter fun node => node.kind ≠ .namespaceSuite) =
      (forest.flatMap members).flatMap nodes := by
  induction forest with
  | nil => rfl
  | cons root rest ih =>
      rw [List.flatMap_cons, List.flatMap_append] at below ⊢
      obtain ⟨inRoot, later⟩ := List.forall_mem_append.mp below
      rw [forestNodes_cons, nodes_eq_members, List.filter_append, List.filter_append, ih later]
      congr 1
      have kept : (root.members.flatMap nodes).filter (fun node => node.kind ≠ .namespaceSuite) =
          root.members.flatMap nodes :=
        List.filter_eq_self.mpr fun node member => by simpa using inRoot node member
      rw [kept]
      split
      · rename_i kind
        simp [kind]
      · rfl

/-- A root of a grouped forest: a class without a namespace, or the node of a namespace with the
classes of that namespace. -/
inductive IsRoot (file : String) : Definition → Prop
  | classSuite {definition : Definition} (kind : definition.kind = .classSuite)
      (outside : definition.inNamespace = none) : IsRoot file definition
  | namespaceSuite (name : String) (span : Span) {children : List Definition}
      (occupied : children ≠ [])
      (within : ∀ child ∈ children,
        child.kind = .classSuite ∧ child.inNamespace = some name) :
      IsRoot file { ofNamespace name file span with children := children }

/-- The depth of a class in a grouped forest. -/
def groupedDepth (definition : Definition) : Nat :=
  if definition.inNamespace.isSome then 1 else 0

/-- Adding a class to the roots leaves the classes before it as they are. -/
theorem flatMap_members_addToRoots (file : String) (roots : List Definition)
    {definition : Definition} (kind : definition.kind = .classSuite) :
    (addToRoots file roots definition).reverse.flatMap members =
      roots.reverse.flatMap members ++ [definition] := by
  have alone : members definition = [definition] := by
    simp only [members, kind, reduceCtorEq, ↓reduceIte]
  unfold addToRoots
  cases definition.inNamespace with
  | none => simp only [List.reverse_cons, List.flatMap_append, List.flatMap_singleton, alone]
  | some name =>
      cases roots with
      | nil => simp [members, ofNamespace]
      | cons root earlier =>
          by_cases same : root.isNamespace name
          · have kindEq : root.kind = .namespaceSuite := by
              simp only [isNamespace, Bool.and_eq_true, decide_eq_true_eq] at same
              exact same.1
            simp [same, members, kindEq]
          · simp [same, members, ofNamespace]

/-- Filing a class leaves a forest of suites without a namespace and of nodes for namespaces with
their classes, whether it joins the last node or starts one. -/
theorem isRoot_addToRoots {file : String} {roots : List Definition} {definition : Definition}
    (kind : definition.kind = .classSuite) (grouped : ∀ root ∈ roots, IsRoot file root) :
    ∀ root ∈ addToRoots file roots definition, IsRoot file root := by
  have alone (name : String) (named : definition.inNamespace = some name) :
      IsRoot file { ofNamespace name file definition.span with children := [definition] } :=
    .namespaceSuite name definition.span (by simp) (by simp [kind, named])
  unfold addToRoots
  cases named : definition.inNamespace with
  | none => exact List.forall_mem_cons.mpr ⟨.classSuite kind named, grouped⟩
  | some name =>
      cases roots with
      | nil => exact List.forall_mem_cons.mpr ⟨alone name named, by simp⟩
      | cons root earlier =>
          obtain ⟨first, others⟩ := List.forall_mem_cons.mp grouped
          by_cases same : root.isNamespace name
          · simp only [same, ↓reduceIte]
            refine List.forall_mem_cons.mpr ⟨?_, others⟩
            simp only [isNamespace, Bool.and_eq_true, decide_eq_true_eq] at same
            cases first with
            | classSuite rootKind outside =>
                rw [rootKind] at same
                exact absurd same.1 (by decide)
            | @namespaceSuite own span children occupied within =>
                have ownName : own = name := same.2
                subst ownName
                refine .namespaceSuite own ⟨span.start, definition.span.stop⟩ (by simp) ?_
                simp only [List.mem_append, List.mem_singleton]
                rintro child (member | rfl)
                · exact within child member
                · exact ⟨kind, named⟩
          · simp only [same]
            exact List.forall_mem_cons.mpr ⟨alone name named, grouped⟩

/-- What holds of the roots after some classes were added one after the other. -/
theorem foldl_addToRoots {file : String} (classes : List Definition)
    (kinds : ∀ definition ∈ classes, definition.kind = .classSuite) (roots : List Definition)
    (grouped : ∀ root ∈ roots, IsRoot file root) :
    (classes.foldl (addToRoots file) roots).reverse.flatMap members =
        roots.reverse.flatMap members ++ classes ∧
      ∀ root ∈ classes.foldl (addToRoots file) roots, IsRoot file root := by
  induction classes generalizing roots with
  | nil => exact ⟨by simp, grouped⟩
  | cons definition rest ih =>
      obtain ⟨kind, others⟩ := List.forall_mem_cons.mp kinds
      obtain ⟨kept, shaped⟩ :=
        ih others (addToRoots file roots definition) (isRoot_addToRoots kind grouped)
      refine ⟨?_, shaped⟩
      rw [List.foldl_cons, kept, flatMap_members_addToRoots file roots kind, List.append_assoc,
        List.singleton_append]

/-- A root is still a root after depths are set. -/
theorem isRoot_assignDepth {file : String} {root : Definition} (grouped : IsRoot file root) :
    IsRoot file (root.assignDepth 0) := by
  cases grouped with
  | classSuite kind outside => exact .classSuite (by simp [kind]) (by simp [outside])
  | @namespaceSuite name span children occupied within =>
      have shape : assignDepth 0 { ofNamespace name file span with children := children } =
          { ofNamespace name file span with
            children := children.map (Definition.assignDepth 1) } := by
        rw [assignDepth_eq]
        rfl
      rw [shape]
      refine .namespaceSuite name span (by simpa using occupied) ?_
      intro child member
      obtain ⟨original, present, rfl⟩ := List.mem_map.mp member
      simpa using within original present

/-- The depth of a class is set according to the root under which it stands. -/
theorem members_assignDepth {file : String} {root : Definition}
    (grouped : IsRoot file root) :
    (root.assignDepth 0).members =
      root.members.map fun suite => suite.assignDepth suite.groupedDepth := by
  cases grouped with
  | classSuite kind outside => simp [members, kind, groupedDepth, outside]
  | @namespaceSuite name span children occupied within =>
      simp only [members, assignDepth_kind, assignDepth_children, ofNamespace, ↓reduceIte]
      refine List.map_congr_left fun child member => ?_
      simp [groupedDepth, (within child member).2]

/-- Every root of grouped classes is a class without a namespace or the node of a namespace. -/
theorem isRoot_of_mem_groupByNamespace {file : String} {classes : List Definition}
    (kinds : ∀ definition ∈ classes, definition.kind = .classSuite) {root : Definition}
    (member : root ∈ groupByNamespace file classes) : IsRoot file root := by
  rw [groupByNamespace, assignForestDepth_eq_map] at member
  obtain ⟨ground, present, rfl⟩ := List.mem_map.mp member
  exact isRoot_assignDepth ((foldl_addToRoots classes kinds [] (by simp)).2 ground
    (List.mem_reverse.mp present))

/-- **Grouping moves nothing.** The classes under the roots are the classes that were grouped, each
once and in order; only depths are set. -/
theorem flatMap_members_groupByNamespace {file : String} {classes : List Definition}
    (kinds : ∀ definition ∈ classes, definition.kind = .classSuite) :
    (groupByNamespace file classes).flatMap members =
      classes.map fun suite => suite.assignDepth suite.groupedDepth := by
  obtain ⟨kept, shaped⟩ := @foldl_addToRoots file classes kinds [] (by simp)
  rw [groupByNamespace, assignForestDepth_eq_map, List.flatMap_map]
  calc
    ((classes.foldl (addToRoots file) []).reverse.flatMap fun root =>
        (root.assignDepth 0).members)
      = (classes.foldl (addToRoots file) []).reverse.flatMap fun root =>
          root.members.map fun suite => suite.assignDepth suite.groupedDepth :=
        List.flatMap_congr fun root member =>
          members_assignDepth (shaped root (List.mem_reverse.mp member))
    _ = classes.map fun suite => suite.assignDepth suite.groupedDepth := by
        rw [← List.map_flatMap, kept]
        rfl

end PhpTestIndex.Definition
