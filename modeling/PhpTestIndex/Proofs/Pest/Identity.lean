import PhpTestIndex.Proofs.Pest.Assembly
import PhpTestIndex.Proofs.Pest.Wording

/-! # Identifiers of tests registered by calls

Every group, test and data set of a file has the names of the suite, and its identifier says after
the name of the class where it stands: `PhpTestIndex.Pest.placeOf` reads its place off the labels of
the nodes above it, and the wording of this place is what the identifier says
(`PhpTestIndex.Pest.Belongs`). So two nodes have one identifier exactly if their places are worded
alike (`PhpTestIndex.Pest.pairwise_sharesId`).
-/

namespace PhpTestIndex.Pest

open Definition (Lineage)

/-- The descriptions of the groups among the nodes above another one, the outermost first. -/
def groupsAbove (above : List Definition) : List String :=
  ((above.filter fun node => node.kind = .describe).map Definition.label).reverse

/-- The place of a node in its suite: the groups above it and its label, and for a data set the label
of its test. -/
def placeOf (lineage : Lineage) : Place :=
  let groups := groupsAbove lineage.above
  match lineage.node.kind with
  | .describe => .group groups lineage.node.label
  | .method => .test groups lineage.node.label
  | .dataSet =>
    .dataSet groups ((lineage.above.head?.map Definition.label).getD "") lineage.node.label
  | _ => .suite

theorem groupsAbove_cons_of_eq {node : Definition} (isGroup : node.kind = .describe)
    (above : List Definition) : groupsAbove (node :: above) = groupsAbove above ++ [node.label] := by
  simp [groupsAbove, isGroup]

theorem groupsAbove_cons_of_ne {node : Definition} (noGroup : node.kind ≠ .describe)
    (above : List Definition) : groupsAbove (node :: above) = groupsAbove above := by
  simp [groupsAbove, noGroup]

/-- A node stands in the tree of a suite below other nodes. -/
inductive StandsBelow (suite : Definition) : List Definition → Definition → Prop
  | suite {above : List Definition} (outside : groupsAbove above = []) :
    StandsBelow suite above suite
  | part {above : List Definition} {node : Definition} (part : Definition.IsPart suite node)
    (described : IsDescribed (groupsAbove above) node) : StandsBelow suite above node
  | dataSet {above : List Definition} {test node : Definition} (isTest : test.kind = .method)
    (part : Definition.IsPart suite test) (described : IsDescribed (groupsAbove above) test)
    (among : node ∈ test.children) : StandsBelow suite (test :: above) node

/-- The data sets of a test. -/
theorem isDataSetOf_of_mem {suite test node : Definition} (isTest : test.kind = .method)
    (part : Definition.IsPart suite test) (among : node ∈ test.children) :
    Definition.IsDataSetOf test node := by
  cases part with
  | test _ _ _ _ dataSets => exact dataSets node among
  | group isGroup => simp [isTest] at isGroup

section Suites

variable {file : String} {suite : Definition} (isSuite : Definition.IsSuite file suite)
  (described : ∀ child ∈ suite.children, IsDescribed [] child)

include isSuite described

/-- Where a node stands says where its children stand. -/
theorem StandsBelow.children {above : List Definition} {node : Definition}
    (stands : StandsBelow suite above node) :
    ∀ child ∈ node.children, StandsBelow suite (node :: above) child := by
  intro child among
  cases stands with
  | suite outside =>
      refine .part (isSuite.parts child among) ?_
      rw [groupsAbove_cons_of_ne (by simp [isSuite.kind]), outside]
      exact described child among
  | part part describedHere =>
      -- Below a test there are its rows; below a group, what its description is put in front of.
      cases describedHere with
      | test isTest name rows => exact .dataSet isTest part (.test isTest name rows) among
      | group isGroup name parts =>
          refine .part ?_ ?_
          · cases part with
            | test isTest => simp [isGroup] at isTest
            | group _ _ _ _ inside => exact inside child among
          · rw [groupsAbove_cons_of_eq isGroup]
            exact parts child among
  | dataSet isTest part _ here =>
      rw [(isDataSetOf_of_mem isTest part here).children] at among
      cases among

end Suites

/-- A node has the names of a suite, and after them its identifier says where the node stands. -/
structure Belongs (suite : Definition) (lineage : Lineage) : Prop where
  kind : lineage.node.kind ≠ .namespaceSuite
  className : lineage.node.className = suite.className
  qualifiedClass : lineage.node.qualifiedClass = suite.qualifiedClass
  id : lineage.node.id =
    Identifier.qualifiedClass suite.inNamespace suite.className ++ lineage.node.tail
  tail : lineage.node.tail = (placeOf lineage).text suite.className
  labelled : (placeOf lineage).IsLabelled

section Wordings

variable {suite node : Definition}

/-- What is named after a class says after the name of the class what it is called itself. -/
theorem id_eq_of_isNamed (named : node.IsNamed) (shares : Definition.SharesClass suite node)
    (kind : node.kind ≠ .dataSet) :
    node.id = Identifier.qualifiedClass suite.inNamespace suite.className ++ node.tail := by
  have id : node.id = (Identifier.unique node.inNamespace node.className node.methodName).getD "" := by
    rw [named.id]
    rfl
  rw [id, Identifier.unique_getD, Definition.tail, if_neg kind, String.append_empty,
    shares.inNamespace, shares.className]

/-- After the name of its class, the identifier of a test or a group says its own name and no more.
-/
theorem tail_of_name {name : String} (called : node.methodName = some name)
    (shares : Definition.SharesClass suite node) (kind : node.kind ≠ .dataSet) :
    node.tail = Identifier.memberPart suite.className (some name) := by
  rw [Definition.tail, if_neg kind, String.append_empty, called, shares.className]

/-- A test or a group belongs to its suite at the place that the groups above it and its label give.
-/
theorem belongs_part {above : List Definition} (part : Definition.IsPart suite node)
    (described : IsDescribed (groupsAbove above) node) : Belongs suite ⟨above, node⟩ := by
  have shares := part.shares
  cases described with
  | test isTest name rows =>
      have kind : node.kind ≠ .dataSet := by simp [isTest]
      have place : placeOf ⟨above, node⟩ = .test (groupsAbove above) node.label := by
        simp [placeOf, isTest]
      refine ⟨by simp [isTest], shares.className, shares.qualifiedClass,
        id_eq_of_isNamed part.named shares kind, ?_, by simp [place, Place.IsLabelled]⟩
      rw [tail_of_name name shares kind, place]
      exact String.append_empty.symm
  | group isGroup name parts =>
      have kind : node.kind ≠ .dataSet := by simp [isGroup]
      have place : placeOf ⟨above, node⟩ = .group (groupsAbove above) node.label := by
        simp [placeOf, isGroup]
      refine ⟨by simp [isGroup], shares.className, shares.qualifiedClass,
        id_eq_of_isNamed part.named shares kind, ?_, by simp [place, Place.IsLabelled]⟩
      rw [tail_of_name name shares kind, place]
      exact String.append_empty.symm

/-- The data set of a test belongs to the suite at the place of the test and its own label. -/
theorem belongs_dataSet {above : List Definition} {test : Definition} (isTest : test.kind = .method)
    (part : Definition.IsPart suite test) (described : IsDescribed (groupsAbove above) test)
    (among : node ∈ test.children) : Belongs suite ⟨test :: above, node⟩ := by
  have dataSet := isDataSetOf_of_mem isTest part among
  have ofTest := belongs_part part described
  have sameGroups : groupsAbove (test :: above) = groupsAbove above :=
    groupsAbove_cons_of_ne (by simp [isTest]) above
  have place : placeOf ⟨test :: above, node⟩ =
      .dataSet (groupsAbove above) test.label node.label := by
    simp [placeOf, dataSet.kind, sameGroups]
  have placeOfTest : placeOf ⟨above, test⟩ = .test (groupsAbove above) test.label := by
    simp [placeOf, isTest]
  have tail : node.tail = test.tail ++ (" " ++ node.label) := by
    rw [Definition.tail, Definition.tail, if_pos dataSet.kind, if_neg (by simp [isTest]),
      String.append_empty, dataSet.className, dataSet.methodName]
  refine ⟨by simp [dataSet.kind], dataSet.className.trans ofTest.className,
    dataSet.qualifiedClass.trans ofTest.qualifiedClass, ?_, ?_, ?_⟩
  · rw [dataSet.id, Identifier.dataSet, ofTest.id, tail]
    simp only [String.append_assoc]
  · rw [tail, ofTest.tail, place, placeOfTest]
    simp only [Place.text, Place.name, Place.data, String.append_empty]
  · rw [place]
    cases described with
    | test _ _ rows => exact rows node among
    | group isGroup => simp [isTest] at isGroup

/-- An empty name of a method is left out of the identifier. -/
theorem memberPart_empty (className : Option String) :
    Identifier.memberPart className (some "") = "" := by
  have absent : Identifier.present (some "") = none := rfl
  rw [Identifier.memberPart, absent]
  cases Identifier.present className <;> rfl

/-- The suite itself stands at the place of the suite. -/
theorem belongs_suite {file : String} {above : List Definition}
    (isSuite : Definition.IsSuite file suite) (unnamed : suite.methodName = none) :
    Belongs suite ⟨above, suite⟩ := by
  have place : placeOf ⟨above, suite⟩ = .suite := by simp [placeOf, isSuite.kind]
  refine ⟨by simp [isSuite.kind], rfl, rfl,
    id_eq_of_isNamed isSuite.named ⟨rfl, rfl, rfl, rfl⟩ (by simp [isSuite.kind]), ?_,
    by simp [place, Place.IsLabelled]⟩
  rw [place, Definition.tail, if_neg (by simp [isSuite.kind]), unnamed, Identifier.memberPart_none,
    Place.text, Place.name, memberPart_empty]
  rfl

/-- Every node of a suite belongs to it, by the cases of what may stand where. -/
theorem StandsBelow.belongs {file : String} {above : List Definition}
    (isSuite : Definition.IsSuite file suite) (unnamed : suite.methodName = none)
    (stands : StandsBelow suite above node) : Belongs suite ⟨above, node⟩ := by
  cases stands with
  | suite outside => exact belongs_suite isSuite unnamed
  | part part described => exact belongs_part part described
  | dataSet isTest part described among => exact belongs_dataSet isTest part described among

/-- An identifier says nothing of data exactly if the node is no data set. -/
theorem data_placeOf_eq_empty_iff (lineage : Lineage) :
    (placeOf lineage).data = "" ↔ lineage.node.kind ≠ .dataSet := by
  unfold placeOf
  split <;> simp_all [Place.data]

/-- A class without a name says nothing of its groups and tests. -/
theorem Belongs.isBare_iff {lineage : Lineage} (belongs : Belongs suite lineage)
    (nameless : suite.className = some "") :
    lineage.node.IsBare ↔ lineage.node.tail = "" := by
  rw [belongs.tail, nameless, Place.text_nameless, data_placeOf_eq_empty_iff]
  have className := belongs.className.trans nameless
  refine ⟨fun isBare => ?_, fun kind => .inr ⟨kind, className⟩⟩
  rcases isBare with isClass | ⟨kind, -⟩
  · simp [isClass]
  · exact kind

/-- A node that names nothing but its class has nothing after it in its identifier. -/
theorem Belongs.tail_of_isBare {lineage : Lineage} (belongs : Belongs suite lineage)
    (isBare : lineage.node.IsBare) : lineage.node.tail = "" := by
  rcases isBare with isClass | ⟨kind, noName⟩
  · have place : placeOf lineage = .suite := by simp [placeOf, isClass]
    rw [belongs.tail, place, Place.text, Place.name, memberPart_empty]
    rfl
  · exact (belongs.isBare_iff (belongs.className.symm.trans noName)).mp (.inr ⟨kind, noName⟩)

end Wordings

/-- Only a class without a name is called like the namespace that it is in. -/
theorem eq_empty_of_qualifiedClass {inNamespace className rest : String}
    (occupied : inNamespace ≠ "")
    (same : inNamespace =
      Identifier.qualifiedClass (some inNamespace) (some className) ++ rest) :
    className = "" ∧ rest = "" := by
  have present : Identifier.present (some inNamespace) = some inNamespace :=
    Identifier.present_eq_some_iff.mpr ⟨rfl, occupied⟩
  by_cases named : className = ""
  · have absent : Identifier.present (some "") = none := rfl
    rw [named, Identifier.qualifiedClass, present, absent] at same
    exact ⟨named, String.append_eq_left_iff.mp same.symm⟩
  · have present' := Identifier.present_eq_some_iff.mpr ⟨rfl, named⟩
    rw [Identifier.qualifiedClass, present, present'] at same
    have lengths := congrArg String.length same
    have slash : "\\".length = 1 := by decide
    simp only [String.length_append] at lengths
    omega

/-- A single suite in a namespace becomes the only child of the node of that namespace. -/
theorem groupByNamespace_singleton {file name : String} {suite : Definition}
    (inNamespace : suite.inNamespace = some name) :
    Definition.groupByNamespace file [suite] =
      [{ Definition.ofNamespace name file suite.span with
        children := [suite.assignDepth 1] }] := by
  simp only [Definition.groupByNamespace, List.foldl_cons, List.foldl_nil, Definition.addToRoots,
    inNamespace, List.reverse_singleton, Definition.assignForestDepth_eq_map, List.map_cons,
    List.map_nil, Definition.assignDepth_eq, Definition.ofNamespace]

/-- A list of nodes with those above them begins with the node of a namespace, and what comes after
it belongs to a suite in this namespace. -/
structure IsFiled (name className : String) (suite above : Definition) (below : List Lineage) :
    Prop where
  occupied : name ≠ ""
  kind : above.kind = .namespaceSuite
  id : above.id = name
  isNamespace : above.inNamespace = some name
  inNamespace : suite.inNamespace = some name
  className : suite.className = some className
  qualifiedClass :
    suite.qualifiedClass = some (Identifier.qualifiedClass suite.inNamespace suite.className)
  belongs : ∀ lineage ∈ below, Belongs suite lineage

/-- The forest of a file is the node of a namespace, and what is below it belongs to one suite. -/
theorem exists_isFiled_of_read {reader : Reader} {directory : String} {document : Php.Document}
    {file : String} {forest : List Definition}
    (found : (reader.read directory document file).1 = some forest) :
    ∃ name className suite above below,
      Definition.forestLineages [] forest = ⟨[], above⟩ :: below ∧
        IsFiled name className suite above below := by
  have occupied := syntheticClass_namespace_ne_empty directory reader.root file
  obtain ⟨ground, rfl, isSuite, calledAfter, described, -⟩ := exists_suite_of_read found
  obtain ⟨inNamespace, className, unnamed⟩ := calledAfter
  generalize (syntheticClass directory reader.root file).1 = name at inNamespace occupied
  generalize (syntheticClass directory reader.root file).2 = ownName at className
  have isSuite' := isSuite.assignDepth 1
  have describedBelow : ∀ child ∈ (ground.assignDepth 1).children, IsDescribed [] child := by
    rw [Definition.assignDepth_children]
    exact List.forall_mem_map.mpr fun child among => (described child among).assignDepth _
  let above := { Definition.ofNamespace name file ground.span with
    children := [ground.assignDepth 1] }
  refine ⟨name, ownName, ground.assignDepth 1, above,
    Definition.lineages [above] (ground.assignDepth 1), ?_, occupied, rfl, rfl, rfl,
    by simpa using inNamespace, by simpa using className, isSuite'.named.qualifiedClass, ?_⟩
  · rw [groupByNamespace_singleton inNamespace, Definition.forestLineages_eq_flatMap,
      List.flatMap_singleton, Definition.lineages_eq, Definition.forestLineages_eq_flatMap,
      List.flatMap_singleton]
  · intro lineage among
    have stands := Definition.forall_lineages (motive := StandsBelow (ground.assignDepth 1))
      (StandsBelow.children isSuite' describedBelow) (ground.assignDepth 1) [above] (.suite rfl)
      lineage among
    exact stands.belongs isSuite' (by simpa using unnamed)

/-- **Identifiers of tests registered by calls.** Two nodes have one identifier exactly if their
places are worded alike, or one is the node of the namespace and the other names nothing but a
suite without a name. -/
theorem pairwise_sharesId {reader : Reader} {directory : String} {document : Php.Document}
    {file : String} {forest : List Definition}
    (found : (reader.read directory document file).1 = some forest)
    {coincide : Lineage → Lineage → Prop}
    (alike : ∀ first second, coincide first second ↔
      Coincide first.node.className (placeOf first) (placeOf second)) :
    (Definition.forestLineages [] forest).Pairwise fun first second =>
      (first.node.id = second.node.id ↔
        Definition.SharesId (coincide first second) first.node second.node) := by
  obtain ⟨name, className, suite, above, below, lineages, filed⟩ := exists_isFiled_of_read found
  -- The one node for a namespace stands at the top, and all others belong to the suite.
  have belongs {lineage : Lineage} (among : lineage ∈ (⟨[], above⟩ : Lineage) :: below)
      (noNamespace : lineage.node.kind ≠ .namespaceSuite) : Belongs suite lineage := by
    rcases List.mem_cons.mp among with rfl | here
    · exact absurd filed.kind noNamespace
    · exact filed.belongs lineage here
  have isAbove {lineage : Lineage} (among : lineage ∈ (⟨[], above⟩ : Lineage) :: below)
      (isNamespace : lineage.node.kind = .namespaceSuite) : lineage.node = above := by
    rcases List.mem_cons.mp among with rfl | here
    · rfl
    · exact absurd isNamespace (filed.belongs lineage here).kind
  rw [lineages]
  refine Definition.pairwise_sharesId (fun lineage among => ⟨fun isNamespace => ?_, fun other => ?_,
    fun other => (belongs among other).tail_of_isBare⟩) ?_ ?_
  · rw [isAbove among isNamespace, filed.isNamespace, filed.id]
  · have ofSuite := belongs among other
    exact ⟨_, ofSuite.qualifiedClass.trans filed.qualifiedClass, ofSuite.id⟩
  · intro outer among lineage among' isNamespace noNamespace equal
    have ofSuite := belongs among' noNamespace
    rw [isAbove among isNamespace, filed.id, ofSuite.id, filed.inNamespace, filed.className] at equal
    obtain ⟨rfl, bare⟩ := eq_empty_of_qualifiedClass filed.occupied equal
    exact (ofSuite.isBare_iff filed.className).mpr bare
  · refine List.pairwise_of_forall_mem_list fun first among second among' noNamespace noNamespace' => ?_
    have ofSuite := belongs among noNamespace
    have ofSuite' := belongs among' noNamespace'
    rw [ofSuite.id, ofSuite'.id, String.append_right_inj, ofSuite.tail, ofSuite'.tail, alike,
      ofSuite.className, filed.className]
    exact text_eq_iff_coincide ofSuite.labelled ofSuite'.labelled

end PhpTestIndex.Pest
