import PhpTestIndex.Proofs.Php.Documents
import PhpTestIndex.Proofs.PhpUnit.Identity

/-! # Identifiers as keys

The identifier of a class, a method or a data set tells what the node is: its kind, its namespace,
its class, its method and its row (`PhpTestIndex.PhpUnit.names_eq_of_id_eq`). This holds across
files, whatever is declared there and however often, as long as the names of classes and methods
have neither separators nor blanks; of the names of namespaces nothing is asked.
-/

namespace PhpTestIndex.PhpUnit

/-- What a node of the forest of a file stands for. -/
inductive Reported (document : Php.Document) (node : Definition) : Prop
  | namespaceSuite (kind : node.kind = .namespaceSuite)
      (classes : ∀ child ∈ node.children, child.kind = .classSuite)
  | suite {suite : Declared} (declared : suite ∈ suites document)
      (stands : IsSuiteNode document suite node)
  | test {suite : Declared} {method : Php.Placed} (declared : suite ∈ suites document)
      (isTest : method ∈ suite.testMethods document)
      (stands : IsTestNode document suite method node)
  | dataSet {suite : Declared} {method : Php.Placed} {test : Definition} {index : Nat}
      (declared : suite ∈ suites document) (isTest : method ∈ suite.testMethods document)
      (above : IsTestNode document suite method test) (stands : IsDataSetNode suite test index node)

section Reported

variable {document : Php.Document} {suite : Declared} {node : Definition}

/-- The nodes of a suite are its own, those of its tests and those of their data sets. -/
theorem reported_of_mem_nodes {head : Definition} (declared : suite ∈ suites document)
    (stands : IsSuiteNode document suite head) (member : node ∈ head.nodes) :
    Reported document node := by
  rw [Definition.nodes_eq, Definition.forestNodes_eq_flatMap] at member
  rcases List.mem_cons.mp member with rfl | below
  · exact .suite declared stands
  · obtain ⟨test, among, inTest⟩ := List.mem_flatMap.mp below
    have tests := (List.forall₂_and_left _ _).mpr ⟨fun method isTest => isTest, stands.tests⟩
    obtain ⟨method, _, isTest, testStands⟩ := exists_left_of_mem_right tests among
    rw [Definition.nodes_eq, Definition.forestNodes_eq_flatMap,
      flatMap_nodes_dataSets testStands] at inTest
    rcases List.mem_cons.mp inTest with rfl | inRows
    · exact .test declared isTest testStands
    · obtain ⟨index, _, rowStands⟩ := exists_left_of_mem_right testStands.dataSets inRows
      exact .dataSet declared isTest testStands rowStands

/-- Every node of a forest stands for something in its file. -/
theorem reported_of_mem_forestNodes {file : String} {forest : List Definition}
    (found : forest? document file = some forest)
    (member : node ∈ Definition.forestNodes forest) : Reported document node := by
  obtain ⟨stand, grouped⟩ := roots_of_forest? found
  rcases Definition.mem_forestNodes member with ⟨isRoot, kind⟩ | below
  · cases grouped node isRoot with
    | classSuite other _ =>
        rw [other] at kind
        cases kind
    | namespaceSuite name span occupied within =>
        exact .namespaceSuite rfl fun child among => (within child among).1
  · obtain ⟨head, among, inside⟩ := List.mem_flatMap.mp below
    have inFile := (List.forall₂_and_left _ _).mpr ⟨fun suite declared => declared, stand⟩
    obtain ⟨suite, _, declared, stands⟩ := exists_left_of_mem_right inFile among
    exact reported_of_mem_nodes declared stands inside

end Reported

/-- The kind of the node at a place. -/
def Place.kind : Place → TestKind
  | suite => .classSuite
  | test _ => .method
  | dataSet _ _ => .dataSet

/-- What an identifier says of a place after the name of the method. -/
def Place.suffix : Place → String
  | suite => ""
  | test _ => ""
  | dataSet _ index => " " ++ Identifier.dataSetLabel index

/-- The names and the identifier of a node are those of a node at a place. -/
structure Describes (place : Place) (node : Definition) : Prop where
  kind : node.kind = place.kind
  inNamespace : Identifier.present node.inNamespace = node.inNamespace
  className : node.className.isSome
  methodName : node.methodName = place.method?
  id : node.id =
    (Identifier.unique node.inNamespace node.className node.methodName).getD "" ++ place.suffix

/-- The names of the class and the method of a node have neither separators nor blanks. -/
structure HasNames (node : Definition) : Prop where
  className : ∀ name ∈ node.className, Identifier.IsName name.toList
  methodName : ∀ name ∈ node.methodName, Identifier.IsName name.toList

instance (chars : List Char) : Decidable (Identifier.IsName chars) :=
  decidable_of_iff (chars.isEmpty = false ∧ chars.all Identifier.isNamePart = true)
    ⟨fun ⟨nonempty, parts⟩ =>
      ⟨List.isEmpty_eq_false_iff.mp nonempty, List.all_eq_true.mp parts⟩,
      fun ⟨nonempty, parts⟩ =>
        ⟨List.isEmpty_eq_false_iff.mpr nonempty, List.all_eq_true.mpr parts⟩⟩

instance (node : Definition) : Decidable (HasNames node) :=
  decidable_of_iff
    ((∀ name ∈ node.className, Identifier.IsName name.toList) ∧
      ∀ name ∈ node.methodName, Identifier.IsName name.toList)
    ⟨fun ⟨className, methodName⟩ => ⟨className, methodName⟩,
      fun ⟨className, methodName⟩ => ⟨className, methodName⟩⟩

section Places

variable {document : Php.Document} {suite : Declared} {method : Php.Placed} {node : Definition}

/-- The node of a suite says that it stands at the place of the suite. -/
theorem describes_suite (declared : suite ∈ suites document)
    (stands : IsSuiteNode document suite node) : Describes .suite node where
  kind := stands.kind
  inNamespace := by
    rw [stands.inNamespace]
    exact present_of_mem_declaredClasses (List.mem_filter.mp declared).1
  className := by rw [stands.className]; rfl
  methodName := stands.methodName
  id := by rw [stands.id]; exact String.append_empty.symm

/-- The node of a test says its method. -/
theorem describes_test (declared : suite ∈ suites document)
    (isTest : method ∈ suite.testMethods document)
    (stands : IsTestNode document suite method node) :
    Describes (.test (methodName document method)) node where
  kind := stands.kind
  inNamespace := by
    rw [stands.inNamespace]
    exact present_of_mem_declaredClasses (List.mem_filter.mp declared).1
  className := by rw [stands.className]; rfl
  methodName := by
    obtain ⟨name, named, _⟩ := (mem_testMethods isTest).1.isTest
    rw [stands.methodName, methodName_of_child? named, Option.mem_def.mp named]
    rfl
  id := by rw [stands.id]; exact String.append_empty.symm

/-- The node of a data set says its method and its number. -/
theorem describes_dataSet {test : Definition} {index : Nat} (declared : suite ∈ suites document)
    (isTest : method ∈ suite.testMethods document) (above : IsTestNode document suite method test)
    (stands : IsDataSetNode suite test index node) :
    Describes (.dataSet (methodName document method) index) node where
  kind := stands.kind
  inNamespace := by
    rw [stands.inNamespace]
    exact present_of_mem_declaredClasses (List.mem_filter.mp declared).1
  className := by rw [stands.className]; rfl
  methodName := by rw [stands.methodName, (describes_test declared isTest above).methodName]; rfl
  id := by
    rw [stands.id, stands.label, Identifier.dataSet, above.id, above.inNamespace, above.className,
      ← stands.inNamespace, ← stands.className, ← stands.methodName, String.append_assoc]
    rfl

/-- A node below the namespaces of a forest is described by a place. -/
theorem exists_describes (reported : Reported document node) (kind : node.kind ≠ .namespaceSuite) :
    ∃ place, Describes place node := by
  cases reported with
  | namespaceSuite other _ => exact absurd other kind
  | suite declared stands => exact ⟨_, describes_suite declared stands⟩
  | test declared isTest stands => exact ⟨_, describes_test declared isTest stands⟩
  | dataSet declared isTest above stands =>
      exact ⟨_, describes_dataSet declared isTest above stands⟩

/-- The place of a data set has its position below its test as index. -/
theorem exists_describes_of_getElem? {parent : Definition} {index : Nat}
    (reported : Reported document parent) (stands : parent.children[index]? = some node)
    (kind : node.kind = .dataSet) : ∃ method, Describes (.dataSet method index) node := by
  have member : node ∈ parent.children := List.mem_of_getElem? stands
  cases reported with
  | namespaceSuite _ classes => simp [classes node member] at kind
  | suite declared suiteStands =>
      obtain ⟨method, _, testStands⟩ := exists_left_of_mem_right suiteStands.tests member
      simp [testStands.kind] at kind
  | @test suite method declared isTest testStands =>
      obtain ⟨bound, rfl⟩ := List.getElem?_eq_some_iff.mp stands
      have inRange : index < (List.range
          (Markers.ofDeclaration document method).annotations.testWith.length).length := by
        rwa [testStands.dataSets.length_eq]
      have rowStands := testStands.dataSets.get inRange bound
      rw [List.get_eq_getElem, List.getElem_range, List.get_eq_getElem] at rowStands
      exact ⟨_, describes_dataSet declared isTest testStands rowStands⟩
  | dataSet _ _ _ rowStands => simp [rowStands.children] at member

end Places

section Injectivity

variable {place place' : Place} {node node' : Definition}

/-- The identifier of a node is the name of its class and the text of its place. -/
theorem Describes.id_eq (describes : Describes place node) (names : HasNames node) :
    node.id = Identifier.qualifiedClass node.inNamespace node.className ++ place.text := by
  obtain ⟨className, ofClass⟩ := Option.isSome_iff_exists.mp describes.className
  have occupied := (names.className className ofClass).ne_empty
  have member (name : String) (known : node.methodName = some name) :
      Identifier.memberPart node.className node.methodName = "::" ++ name := by
    rw [ofClass, known]
    exact Identifier.memberPart_some occupied (names.methodName name known).ne_empty
  rw [describes.id, Identifier.unique_getD, String.append_assoc]
  congr 1
  have known := describes.methodName
  cases place with
  | suite => rw [known]; exact congrArg (· ++ "") (Identifier.memberPart_none _)
  | test method => rw [member method known]; exact String.append_empty
  | dataSet method index => rw [member method known]; rfl

/-- The names of a class and the place in it can be told from an identifier. -/
theorem Describes.eq_of_id_eq (describes : Describes place node)
    (describes' : Describes place' node') (names : HasNames node) (names' : HasNames node')
    (equal : node.id = node'.id) :
    node.inNamespace = node'.inNamespace ∧ node.className = node'.className ∧ place = place' := by
  obtain ⟨className, ofClass⟩ := Option.isSome_iff_exists.mp describes.className
  obtain ⟨className', ofClass'⟩ := Option.isSome_iff_exists.mp describes'.className
  have named : ∀ method ∈ place.method?, Identifier.IsName method.toList :=
    describes.methodName ▸ names.methodName
  have named' : ∀ method ∈ place'.method?, Identifier.IsName method.toList :=
    describes'.methodName ▸ names'.methodName
  rw [describes.id_eq names, describes'.id_eq names', ofClass, ofClass'] at equal
  obtain ⟨namespaces, classes, texts⟩ := Identifier.qualifiedClass_append_inj
    describes.inNamespace describes'.inNamespace (names.className className ofClass)
    (names'.className className' ofClass') (Place.no_separator_text named)
    (Place.no_separator_text named') (Place.head?_text _) (Place.head?_text _)
    (by simpa using congrArg String.toList equal)
  exact ⟨namespaces, by rw [ofClass, ofClass', classes],
    Place.text_injective named named' texts⟩

end Injectivity

/-- **Identifiers are keys.** Two nodes of any forests, of one file or of two, that are classes,
methods or data sets and have one identifier have the same kind, namespace, class and method; if
they are data sets, they stand at the same position below their tests. -/
theorem names_eq_of_id_eq {document document' : Php.Document} {file file' : String}
    {forest forest' : List Definition} (found : forest? document file = some forest)
    (found' : forest? document' file' = some forest') {node node' : Definition}
    (member : node ∈ Definition.forestNodes forest)
    (member' : node' ∈ Definition.forestNodes forest')
    (kind : node.kind ≠ .namespaceSuite) (kind' : node'.kind ≠ .namespaceSuite)
    (names : HasNames node) (names' : HasNames node') (equal : node.id = node'.id) :
    node.kind = node'.kind ∧ node.inNamespace = node'.inNamespace ∧
      node.className = node'.className ∧ node.methodName = node'.methodName ∧
      (node.kind = .dataSet →
        ∀ parent ∈ Definition.forestNodes forest, ∀ parent' ∈ Definition.forestNodes forest',
          ∀ index index' : Nat, parent.children[index]? = some node →
            parent'.children[index']? = some node' → index = index') := by
  obtain ⟨place, describes⟩ := exists_describes (reported_of_mem_forestNodes found member) kind
  obtain ⟨place', describes'⟩ :=
    exists_describes (reported_of_mem_forestNodes found' member') kind'
  obtain ⟨namespaces, classes, rfl⟩ := describes.eq_of_id_eq describes' names names' equal
  have kinds : node.kind = node'.kind := describes.kind.trans describes'.kind.symm
  refine ⟨kinds, namespaces, classes, describes.methodName.trans describes'.methodName.symm, ?_⟩
  intro isDataSet parent above parent' above' index index' stands stands'
  obtain ⟨_, row⟩ :=
    exists_describes_of_getElem? (reported_of_mem_forestNodes found above) stands isDataSet
  obtain ⟨_, row'⟩ := exists_describes_of_getElem? (reported_of_mem_forestNodes found' above')
    stands' (kinds ▸ isDataSet)
  obtain ⟨_, _, places⟩ := row.eq_of_id_eq row' names names' equal
  exact (Place.dataSet.inj places).2

/-- A test with two data sets. -/
def twoRows : List Char :=
  "<?php class ATest\x7b/** @testWith [1]\n[2] */function testA()\x7b\x7d\x7d".toList

/-- Another file with a test that is called alike. -/
def otherRows : List Char :=
  ("<?php class ATest\x7b/** @testWith [3]\n[4] */function testA()\x7b\x7d" ++
    "function testB()\x7b\x7d\x7d").toList

/-- Rows of one number in two files with equal names have equal identifiers, and so stand at equal
places. -/
theorem rows_names_eq :
    ∃ document document' forest forest', ∃ node ∈ Definition.forestNodes forest,
      ∃ node' ∈ Definition.forestNodes forest',
        Php.Document.read twoRows = .ok document ∧ Php.Document.read otherRows = .ok document' ∧
        forest? document "a.php" = some forest ∧ forest? document' "b.php" = some forest' ∧
        node.kind = .dataSet ∧ node'.kind = .dataSet ∧ HasNames node ∧ HasNames node' ∧
        node.id = node'.id ∧ node.kind = node'.kind ∧ node.inNamespace = node'.inNamespace ∧
        node.className = node'.className ∧ node.methodName = node'.methodName ∧
        (node.kind = .dataSet →
          ∀ parent ∈ Definition.forestNodes forest, ∀ parent' ∈ Definition.forestNodes forest',
            ∀ index index' : Nat, parent.children[index]? = some node →
              parent'.children[index']? = some node' → index = index') := by
  let isRow (node : Definition) : Prop :=
    node.kind = .dataSet ∧ HasNames node ∧ node.id = "ATest::testA with data set #1"
  obtain ⟨document, document', parsed, parsed',
      ⟨forest, found, node, member, kind, names, id⟩,
      forest', found', node', member', kind', names', id'⟩ :=
    @Php.exists_documents_of_check twoRows otherRows
      (fun document document' =>
        (∃ forest ∈ forest? document "a.php", ∃ node ∈ Definition.forestNodes forest, isRow node) ∧
          ∃ forest ∈ forest? document' "b.php", ∃ node ∈ Definition.forestNodes forest, isRow node)
      _ (by decide +kernel)
  have equal : node.id = node'.id := id.trans id'.symm
  exact ⟨document, document', forest, forest', node, member, node', member', parsed, parsed', found,
    found', kind, kind', names, names', equal,
    names_eq_of_id_eq found found' member member' (by simp [kind]) (by simp [kind']) names names'
      equal⟩

end PhpTestIndex.PhpUnit
