import PhpTestIndex.Proofs.Test.Grouping
import PhpTestIndex.Proofs.Test.Identity
import PhpTestIndex.Proofs.Written

/-! # Nodes that say what is written

A node is faithful to a file if it shows no placeholder, neither in what it is called nor in what it
says, and if its values and the description of its test or group are written in the file
(`PhpTestIndex.Definition.IsFaithful`). What is put together from parts without the placeholder has
none: identifiers, names and labels join such parts with signs. A forest is faithful if its classes
and the names of their namespaces are (`PhpTestIndex.Definition.isFaithful_groupByNamespace`).
-/

namespace PhpTestIndex

/-- All texts that the marks of a test consist of. -/
def Annotations.values (annotations : Annotations) : List String :=
  annotations.dataProvider ++ annotations.depends ++ annotations.group ++ annotations.testdox ++
    annotations.testWith

theorem Php.isClean_of_mem_some {name : String} (clean : IsClean name) :
    ∀ other ∈ some name, IsClean other := by
  simpa using clean

namespace Identifier

variable {inNamespace className methodName : Option String}

/-- A part of a name that is present has no placeholder if the part that is given has none. -/
theorem isClean_of_present {part : Option String} {name : String}
    (clean : ∀ name ∈ part, Php.IsClean name) (found : present part = some name) :
    Php.IsClean name :=
  clean name (present_eq_some_iff.mp found).1

/-- The separator joins names without making a placeholder, so a qualified name is as clean as its
parts. -/
theorem isClean_qualifiedClass (cleanNamespace : ∀ name ∈ inNamespace, Php.IsClean name)
    (cleanClass : ∀ name ∈ className, Php.IsClean name) :
    Php.IsClean (qualifiedClass inNamespace className) := by
  unfold qualifiedClass
  split
  · exact Php.isClean_empty
  · rename_i found _
    exact isClean_of_present cleanNamespace found
  · rename_i found
    exact isClean_of_present cleanClass found
  · rename_i found found'
    exact (isClean_of_present cleanNamespace found).glue (by decide) (by decide)
      (isClean_of_present cleanClass found')

/-- An identifier shows the placeholder only if one of its parts does. -/
theorem isClean_unique (cleanNamespace : ∀ name ∈ inNamespace, Php.IsClean name)
    (cleanClass : ∀ name ∈ className, Php.IsClean name)
    (cleanMethod : ∀ name ∈ methodName, Php.IsClean name) :
    Php.IsClean ((unique inNamespace className methodName).getD "") := by
  have qualified := isClean_qualifiedClass cleanNamespace cleanClass
  rw [unique_getD]
  unfold memberPart
  split
  · rename_i found
    rw [← String.append_assoc]
    exact qualified.glue (by decide) (by decide) (isClean_of_present cleanMethod found)
  · rwa [String.append_empty]

end Identifier

namespace Definition

/-- A node shows no placeholder. -/
structure IsClean (node : Definition) : Prop where
  id : Php.IsClean node.id
  label : Php.IsClean node.label
  inNamespace : ∀ name ∈ node.inNamespace, Php.IsClean name
  className : ∀ name ∈ node.className, Php.IsClean name
  methodName : ∀ name ∈ node.methodName, Php.IsClean name
  qualifiedClass : ∀ name ∈ node.qualifiedClass, Php.IsClean name
  values : ∀ value ∈ node.annotations.values, Php.IsClean value

/-- What a node says is written in a file: its values, and the description that a group or a test is
labelled with, for some tests after the word that registers them. -/
structure IsWritten (text : List Char) (document : Php.Document) (node : Definition) : Prop where
  values : ∀ value ∈ node.annotations.values, Php.Written text document value
  group : node.kind = .describe → Php.Written text document node.label
  test : node.kind = .method → ∃ description, Php.Written text document description ∧
    node.label ∈ [description, "it " ++ description, "arch " ++ description]

/-- A node shows no placeholder, and what it says is written in a file. -/
structure IsFaithful (text : List Char) (document : Php.Document) (node : Definition) : Prop where
  clean : node.IsClean
  written : node.IsWritten text document

section Nodes

variable {text : List Char} {document : Php.Document} {name file : String} {span : Span}

/-- What a node says of itself decides whether it is faithful. -/
theorem IsFaithful.of_head {first second : Definition} (faithful : first.IsFaithful text document)
    (same : first.head = second.head) : second.IsFaithful text document := by
  obtain ⟨⟨id, label, inNamespace, className, methodName, qualifiedClass, values⟩,
    ⟨written, group, test⟩⟩ := faithful
  cases first
  cases second
  simp only [head, mk.injEq] at same
  obtain ⟨rfl, rfl, rfl, rfl, rfl, rfl, rfl, _, _, _, rfl, _⟩ := same
  exact ⟨⟨id, label, inNamespace, className, methodName, qualifiedClass, values⟩,
    ⟨written, group, test⟩⟩

/-- The node of a namespace. -/
theorem isFaithful_ofNamespace (clean : Php.IsClean name) :
    (ofNamespace name file span).IsFaithful text document where
  clean := {
    id := clean
    label := clean
    inNamespace := Php.isClean_of_mem_some clean
    className := by simp [ofNamespace]
    methodName := by simp [ofNamespace]
    qualifiedClass := by simp [ofNamespace]
    values := by simp [ofNamespace, Annotations.values, Annotations.none] }
  written := {
    values := by simp [ofNamespace, Annotations.values, Annotations.none]
    group := by simp [ofNamespace]
    test := by simp [ofNamespace] }

/-- The node of a class, with whatever label and annotations. -/
theorem isClean_ofClass {inNamespace : Option String}
    (cleanNamespace : ∀ name ∈ inNamespace, Php.IsClean name) (clean : Php.IsClean name)
    {label : String} (cleanLabel : Php.IsClean label) {annotations : Annotations}
    (values : ∀ value ∈ annotations.values, Php.IsClean value) (children : List Definition) :
    IsClean { ofClass inNamespace name file span with
      label := label, annotations := annotations, children := children } where
  id := Identifier.isClean_unique cleanNamespace (Php.isClean_of_mem_some clean) (by simp)
  label := cleanLabel
  inNamespace _ found := Identifier.isClean_of_present cleanNamespace found
  className := Php.isClean_of_mem_some clean
  methodName := by simp [ofClass]
  qualifiedClass := Php.isClean_of_mem_some
    (Identifier.isClean_qualifiedClass cleanNamespace (Php.isClean_of_mem_some clean))
  values := values

/-- A node in a class, with whatever label and annotations. -/
theorem isClean_member {parent : Definition} (ofParent : parent.IsClean) (kind : TestKind)
    (clean : Php.IsClean name) {label : String} (cleanLabel : Php.IsClean label)
    {annotations : Annotations} (values : ∀ value ∈ annotations.values, Php.IsClean value)
    (children : List Definition) :
    IsClean { parent.member kind name span with
      label := label, annotations := annotations, children := children } where
  id := Identifier.isClean_unique ofParent.inNamespace ofParent.className
    (Php.isClean_of_mem_some clean)
  label := cleanLabel
  inNamespace := ofParent.inNamespace
  className := ofParent.className
  methodName := Php.isClean_of_mem_some clean
  qualifiedClass := ofParent.qualifiedClass
  values := values

/-- A data set of a test. -/
theorem isFaithful_labelledDataSet {test : Definition} (ofTest : test.IsClean) {label : String}
    (cleanLabel : Php.IsClean label) :
    (test.labelledDataSet label).IsFaithful text document where
  clean := {
    id := ofTest.id.glue (by decide) (by decide) cleanLabel
    label := cleanLabel
    inNamespace := ofTest.inNamespace
    className := ofTest.className
    methodName := ofTest.methodName
    qualifiedClass := ofTest.qualifiedClass
    values := by simp [labelledDataSet, Annotations.values, Annotations.none] }
  written := {
    values := by simp [labelledDataSet, Annotations.values, Annotations.none]
    group := by simp [labelledDataSet]
    test := by simp [labelledDataSet] }

/-- The rows of a clean test are faithful if their labels are clean: they say nothing else of their
own. -/
theorem isFaithful_dataSets {test : Definition} (ofTest : test.IsClean) {forest : List Definition}
    (dataSets : ∀ node ∈ forest, ∃ label, Php.IsClean label ∧ node = test.labelledDataSet label) :
    ∀ node ∈ forestNodes forest, node.IsFaithful text document := by
  intro node among
  rw [forestNodes_eq_flatMap] at among
  obtain ⟨dataSet, present, inDataSet⟩ := List.mem_flatMap.mp among
  obtain ⟨label, clean, rfl⟩ := dataSets dataSet present
  -- A data set has no children.
  rw [nodes_eq] at inDataSet
  rw [List.mem_singleton.mp inDataSet]
  exact isFaithful_labelledDataSet ofTest clean

end Nodes

section Trees

variable {text : List Char} {document : Php.Document} {file : String}

/-- The nodes of a tree after depths were set say of themselves what they said before. -/
theorem exists_head_eq_of_mem_assignDepth {root node : Definition} {depth : Nat}
    (among : node ∈ (root.assignDepth depth).nodes) :
    ∃ original ∈ root.nodes, original.head = node.head := by
  have heads := nodes_assignDepth depth root
  have member : node.head ∈ (root.assignDepth depth).nodes.map head := List.mem_map_of_mem among
  rw [heads] at member
  exact List.mem_map.mp member

/-- **Grouping is faithful.** Classes that are faithful are grouped into a forest that is. -/
theorem isFaithful_groupByNamespace {classes : List Definition}
    (kinds : ∀ suite ∈ classes, suite.kind = .classSuite)
    (faithful : ∀ suite ∈ classes, ∀ node ∈ suite.nodes, node.IsFaithful text document) :
    ∀ node ∈ forestNodes (groupByNamespace file classes), node.IsFaithful text document := by
  have classNodes : ∀ node ∈ ((groupByNamespace file classes).flatMap members).flatMap nodes,
      node.IsFaithful text document := by
    intro node among
    rw [flatMap_members_groupByNamespace kinds, List.flatMap_map] at among
    obtain ⟨suite, present, inside⟩ := List.mem_flatMap.mp among
    obtain ⟨original, inSuite, same⟩ := exists_head_eq_of_mem_assignDepth inside
    exact (faithful suite present original inSuite).of_head same
  intro node among
  rcases mem_forestNodes among with ⟨isRoot, isNamespace⟩ | inClass
  · -- The node of a namespace is called as its first class says.
    cases isRoot_of_mem_groupByNamespace kinds isRoot with
    | classSuite kind _ =>
        rw [kind] at isNamespace
        cases isNamespace
    | @namespaceSuite name span children occupied within =>
        obtain ⟨child, present⟩ := List.exists_mem_of_ne_nil children occupied
        have inForest :
            child ∈ ((groupByNamespace file classes).flatMap members).flatMap nodes := by
          refine List.mem_flatMap.mpr ⟨child, List.mem_flatMap.mpr ⟨_, isRoot, ?_⟩, ?_⟩
          · simpa [members, ofNamespace] using present
          · rw [nodes_eq]
            exact List.mem_cons_self
        have named := (classNodes child inForest).clean.inNamespace name (within child present).2
        have alone : (ofNamespace name file span).IsFaithful text document :=
          isFaithful_ofNamespace named
        exact alone.of_head rfl
  · exact classNodes node inClass

end Trees

end Definition

end PhpTestIndex
