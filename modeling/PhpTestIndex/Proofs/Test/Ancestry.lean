import PhpTestIndex.Proofs.Test.Assembly

/-! # Names come from ancestry

What a node is called follows from the nodes above it
(`PhpTestIndex.Definition.Lineage.NamedByAncestry`), in every forest that is put together
(`PhpTestIndex.Definition.Assembled.namedByAncestry`). Labels and annotations have no part in it:
grouping gives the nodes of classes the same identities in the same order as soon as the classes
have (`PhpTestIndex.Definition.identities_groupByNamespace`).
-/

namespace PhpTestIndex.Definition

/-- The names and the identifiers of a node follow from the nodes above it. -/
def Lineage.NamedByAncestry (lineage : Lineage) : Prop :=
  let node := lineage.node
  match node.kind with
  | .namespaceSuite =>
    node.id = node.label ∧ node.inNamespace = some node.id ∧
      ∀ child ∈ node.children, child.inNamespace = node.inNamespace
  | .classSuite => node.IsNamed ∧ (lineage.above = [] → node.inNamespace = none)
  | .describe | .method =>
    node.IsNamed ∧ ∃ suite, enclosingClass? lineage.above = some suite ∧ SharesClass suite node
  | .dataSet =>
    (∃ suite, enclosingClass? lineage.above = some suite ∧ SharesClass suite node) ∧
      ∃ test, lineage.above.head? = some test ∧ node.id = test.id ++ " " ++ node.label ∧
        node.methodName = test.methodName

/-- Where a node stands says what it is called. -/
theorem Standing.namedByAncestry {file : String} {above : List Definition} {node : Definition}
    (standing : Standing file above node) : Lineage.NamedByAncestry ⟨above, node⟩ := by
  unfold Lineage.NamedByAncestry
  cases standing with
  | namespaceSuite kind named _ within =>
      simp only [kind]
      exact ⟨named.1, named.2, fun child among => (within child among).2⟩
  | suite isSuite outside =>
      simp only [isSuite.kind]
      exact ⟨isSuite.named, outside⟩
  | @part _ suite _ encloses part =>
      have inherits : ∃ suite, enclosingClass? above = some suite ∧ SharesClass suite node :=
        ⟨suite, encloses, part.shares⟩
      rcases part.kind with kind | kind
      · simp only [kind]
        exact ⟨part.named, inherits⟩
      · simp only [kind]
        exact ⟨part.named, inherits⟩
  | @dataSet _ suite test _ encloses shares dataSet =>
      simp only [dataSet.kind]
      exact ⟨⟨suite, encloses, shares.trans dataSet.toSharesClass⟩, test, rfl, dataSet.id,
        dataSet.methodName⟩

/-- The nodes of a forest that is put together are named by their ancestry. -/
theorem Assembled.namedByAncestry {file : String} {forest : List Definition}
    (assembled : Assembled file forest) :
    ∀ lineage ∈ forestLineages [] forest, lineage.NamedByAncestry := fun lineage among =>
  (assembled.standing lineage among).namedByAncestry

/-- What a node is called and where it belongs. -/
structure Identity where
  kind : TestKind
  id : String
  inNamespace : Option String
  className : Option String
  methodName : Option String
  qualifiedClass : Option String
  file : String
deriving DecidableEq

def identity (node : Definition) : Identity :=
  ⟨node.kind, node.id, node.inNamespace, node.className, node.methodName, node.qualifiedClass,
    node.file⟩

/-- The identity of a class, a group or a test with some names. -/
def Identity.ofNames (file : String) (kind : TestKind)
    (inNamespace className methodName : Option String) : Identity :=
  ⟨kind, (Identifier.unique inNamespace className methodName).getD "", inNamespace, className,
    methodName, some (Identifier.qualifiedClass inNamespace className), file⟩

/-- The identity of a named node is a function of its file, its kind and its three names alone. -/
theorem IsNamed.identity {node : Definition} (named : node.IsNamed) :
    node.identity =
      .ofNames node.file node.kind node.inNamespace node.className node.methodName := by
  rw [Identity.ofNames, named.id, ← named.qualifiedClass]
  rfl

/-- The identities of the nodes of a forest, in order. Data sets are left out: their identifiers
end with their labels. -/
def identities (forest : List Definition) : List Identity :=
  ((forestNodes forest).map identity).filter fun identity => identity.kind ≠ .dataSet

section Identities

variable {file : String} {roots roots' classes classes' : List Definition}
  {definition definition' : Definition}

/-- The identities of a forest are listed root by root. -/
theorem identities_eq_flatMap (forest : List Definition) :
    identities forest = forest.flatMap fun node => identities [node] := by
  simp only [identities, forestNodes_eq_flatMap, List.map_flatMap, List.filter_flatMap,
    List.flatMap_singleton]

theorem identities_append (first second : List Definition) :
    identities (first ++ second) = identities first ++ identities second := by
  simp only [identities, forestNodes_append, List.map_append, List.filter_append]

/-- A node that is no data set is listed before what is below it. -/
theorem identities_singleton (kind : definition.kind ≠ .dataSet) :
    identities [definition] = definition.identity :: identities definition.children := by
  unfold identities
  rw [forestNodes_cons, forestNodes_nil, List.append_nil, nodes_eq, List.map_cons,
    List.filter_cons_of_pos (by simp [identity, kind])]

/-- A data set has no identity of its own in the list, as its label is part of its identifier. -/
theorem identities_singleton_of_dataSet (kind : definition.kind = .dataSet) :
    identities [definition] = identities definition.children := by
  unfold identities
  rw [forestNodes_cons, forestNodes_nil, List.append_nil, nodes_eq, List.map_cons,
    List.filter_cons_of_neg (by simp [identity, kind])]

/-- The rows of a test add nothing to the identities. -/
theorem identities_dataSets {forest : List Definition}
    (dataSets : ∀ node ∈ forest, node.kind = .dataSet ∧ node.children = []) :
    identities forest = [] := by
  rw [identities_eq_flatMap, List.flatMap_eq_nil_iff]
  intro node among
  obtain ⟨kind, childless⟩ := dataSets node among
  rw [identities_singleton_of_dataSet kind, childless]
  rfl

/-- Setting depths changes no identity. -/
theorem identities_assignForestDepth (depth : Nat) (forest : List Definition) :
    identities (assignForestDepth depth forest) = identities forest := by
  have ofHead : identity ∘ head = identity := rfl
  unfold identities
  rw [← ofHead, ← List.map_map, ← List.map_map, forestNodes_assignForestDepth]

/-- The first of some roots is the node of a namespace. -/
def startsWithNamespace (roots : List Definition) (name : String) : Bool :=
  roots.head?.any fun root => root.isNamespace name

/-- What adding a class adds to the identities: those of the class, and before them that of its
namespace if the last root is another one. -/
theorem identities_addToRoots (file : String) (roots : List Definition) (definition : Definition) :
    identities (addToRoots file roots definition).reverse =
      identities roots.reverse ++ (match definition.inNamespace with
        | none => []
        | some name =>
          if startsWithNamespace roots name then [] else [(ofNamespace name file default).identity])
        ++ identities [definition] := by
  have alone (name : String) :
      identities [{ ofNamespace name file definition.span with children := [definition] }] =
        (ofNamespace name file default).identity :: identities [definition] :=
    identities_singleton (by simp [ofNamespace])
  unfold addToRoots startsWithNamespace
  cases definition.inNamespace with
  | none => rw [List.reverse_cons, identities_append, List.append_nil]
  | some name =>
      cases roots with
      | nil =>
          refine (alone name).trans ?_
          simp [identities]
      | cons root earlier =>
          by_cases same : root.isNamespace name
          · have kind : root.kind = .namespaceSuite := by
              simp only [isNamespace, Bool.and_eq_true, decide_eq_true_eq] at same
              exact same.1
            have extended :
                identities [{ root with
                    span := ⟨root.span.start, definition.span.stop⟩
                    children := root.children ++ [definition] }] =
                  identities [root] ++ identities [definition] := by
              rw [identities_singleton (by simp [kind]), identities_singleton (by simp [kind]),
                identities_append]
              rfl
            simp only [same, ↓reduceIte, List.head?_cons, Option.any_some, List.reverse_cons,
              identities_append, extended, List.append_nil, List.append_assoc]
          · simp only [same, Bool.false_eq_true, ↓reduceIte, List.head?_cons, Option.any_some]
            rw [List.reverse_cons, identities_append, alone, List.append_assoc]
            rfl

/-- Filing one class more decides which namespace the next class would join: the one of the class
that was filed last, and no other. -/
theorem startsWithNamespace_addToRoots (kind : definition.kind = .classSuite) (name : String) :
    startsWithNamespace (addToRoots file roots definition) name =
      decide (definition.inNamespace = some name) := by
  unfold addToRoots startsWithNamespace
  cases definition.inNamespace with
  | none => simp [isNamespace, kind]
  | some own =>
      cases roots with
      | nil => simp [isNamespace, ofNamespace]
      | cons root earlier =>
          by_cases same : root.isNamespace own
          · simp only [isNamespace, Bool.and_eq_true, decide_eq_true_eq] at same
            simp [isNamespace, same]
          · simp only [same, Bool.false_eq_true, ↓reduceIte]
            simp [isNamespace, ofNamespace]

/-- Classes with the same identities, added one after the other, give the same identities. -/
theorem identities_foldl (kinds : ∀ suite ∈ classes, suite.kind = .classSuite)
    (kinds' : ∀ suite ∈ classes', suite.kind = .classSuite)
    (same : classes.map (fun suite => identities [suite]) =
      classes'.map fun suite => identities [suite])
    (sameRoots : identities roots.reverse = identities roots'.reverse)
    (sameStart : startsWithNamespace roots = startsWithNamespace roots') :
    identities (classes.foldl (addToRoots file) roots).reverse =
      identities (classes'.foldl (addToRoots file) roots').reverse := by
  -- Beside the identities so far, only the namespace of the last root has to agree: it says whether
  -- the next class gets a node of its own.
  induction classes generalizing classes' roots roots' with
  | nil =>
      rw [List.map_nil] at same
      rw [List.map_eq_nil_iff.mp same.symm]
      exact sameRoots
  | cons suite rest ih =>
      obtain ⟨suite', rest', rfl, first, later⟩ := List.map_eq_cons_iff.mp same.symm
      obtain ⟨kind, others⟩ := List.forall_mem_cons.mp kinds
      obtain ⟨kind', others'⟩ := List.forall_mem_cons.mp kinds'
      dsimp only at first
      have inNamespace : suite'.inNamespace = suite.inNamespace := by
        rw [identities_singleton (by rw [kind']; decide),
          identities_singleton (by rw [kind]; decide)] at first
        exact congrArg Identity.inNamespace (List.cons.inj first).1
      rw [List.foldl_cons, List.foldl_cons]
      refine ih others others' later.symm ?_ (funext fun name => ?_)
      · rw [identities_addToRoots, identities_addToRoots, sameRoots, sameStart, first, inNamespace]
      · rw [startsWithNamespace_addToRoots kind, startsWithNamespace_addToRoots kind', inNamespace]

/-- Classes with the same identities are grouped into forests with the same identities. -/
theorem identities_groupByNamespace (kinds : ∀ suite ∈ classes, suite.kind = .classSuite)
    (kinds' : ∀ suite ∈ classes', suite.kind = .classSuite)
    (same : classes.map (fun suite => identities [suite]) =
      classes'.map fun suite => identities [suite]) :
    identities (groupByNamespace file classes) = identities (groupByNamespace file classes') := by
  rw [groupByNamespace, groupByNamespace, identities_assignForestDepth,
    identities_assignForestDepth]
  exact identities_foldl kinds kinds' same rfl rfl

end Identities

end PhpTestIndex.Definition
