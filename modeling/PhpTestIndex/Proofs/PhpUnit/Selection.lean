import PhpTestIndex.Proofs.Correspondence
import PhpTestIndex.Proofs.PhpUnit.Declared
import PhpTestIndex.Proofs.Test.Grouping

/-! # Which classes and methods are reported

A method is a test under the rule `PhpTestIndex.PhpUnit.IsTestMethod`, and a declared class is a
suite under the rule `PhpTestIndex.PhpUnit.Declared.IsSuite`; both only look at the declaration,
and the second also at the parents of the classes of the file. The class nodes of the forest of a
file are exactly its suites, each once and in source order, and the children of a class node are
exactly its test methods, each once and in source order, with one data set for each row
(`PhpTestIndex.PhpUnit.forest?_describes_suites`). A file without suites has no forest.
-/

namespace PhpTestIndex.PhpUnit

/-- The method of a class is a test: it is public, neither abstract nor static, and a test by its
name or by its markers. -/
structure IsTestMethod (document : Php.Document) (method : Php.Placed) : Prop where
  isMethod : method.node.kind = .methodDeclaration
  isPublic : ∀ modifier ∈ (method.node.childrenOf .visibilityModifier).head?,
    document.string modifier = "public"
  notAbstract : ∀ child ∈ method.node.children, child.kind ≠ .abstractModifier
  notStatic : ∀ child ∈ method.node.children, child.kind ≠ .staticModifier
  isTest : ∃ name ∈ method.node.child? .name,
    "test".toList <+: (document.string name).toList ∨
      (Markers.ofDeclaration document method).isTest

instance (document : Php.Document) : DecidablePred (IsTestMethod document) := fun method =>
  decidable_of_iff
    (method.node.kind = .methodDeclaration ∧
      (∀ modifier ∈ (method.node.childrenOf .visibilityModifier).head?,
        document.string modifier = "public") ∧
      (∀ child ∈ method.node.children, child.kind ≠ .abstractModifier) ∧
      (∀ child ∈ method.node.children, child.kind ≠ .staticModifier) ∧
      ∃ name ∈ method.node.child? .name,
        "test".toList <+: (document.string name).toList ∨
          (Markers.ofDeclaration document method).isTest)
    ⟨fun ⟨isMethod, isPublic, notAbstract, notStatic, isTest⟩ =>
      ⟨isMethod, isPublic, notAbstract, notStatic, isTest⟩,
      fun ⟨isMethod, isPublic, notAbstract, notStatic, isTest⟩ =>
        ⟨isMethod, isPublic, notAbstract, notStatic, isTest⟩⟩

/-- The test methods that stand directly in a class, in source order. -/
def Declared.testMethods (document : Php.Document) (declared : Declared) : List Php.Placed :=
  match declared.declaration.node.child? .body with
  | none => []
  | some body => body.placedChildren.filter fun method => IsTestMethod document method

/-- The class is a suite: it is not abstract, it is a test case by its name, by descent or by its
markers, and it has a test method. -/
structure Declared.IsSuite (document : Php.Document) (hierarchy : Hierarchy) (declared : Declared) :
    Prop where
  notAbstract : ∀ child ∈ declared.declaration.node.children, child.kind ≠ .abstractModifier
  isTestCase : "Test".toList <:+ declared.name.toList ∨
    hierarchy.extendsTestCase declared.qualifiedName ∨
    (Markers.ofDeclaration document declared.declaration).isTestCase
  hasTest : declared.testMethods document ≠ []

instance (document : Php.Document) (hierarchy : Hierarchy) :
    DecidablePred (Declared.IsSuite document hierarchy) := fun declared =>
  decidable_of_iff
    ((∀ child ∈ declared.declaration.node.children, child.kind ≠ .abstractModifier) ∧
      ("Test".toList <:+ declared.name.toList ∨
        hierarchy.extendsTestCase declared.qualifiedName ∨
        (Markers.ofDeclaration document declared.declaration).isTestCase) ∧
      declared.testMethods document ≠ [])
    ⟨fun ⟨notAbstract, isTestCase, hasTest⟩ => ⟨notAbstract, isTestCase, hasTest⟩,
      fun ⟨notAbstract, isTestCase, hasTest⟩ => ⟨notAbstract, isTestCase, hasTest⟩⟩

/-- The suites that a file declares, in source order. -/
def suites (document : Php.Document) : List Declared :=
  let hierarchy := (Survey.ofDocument document .start).hierarchy document
  (declaredClasses document).filter fun declared => declared.IsSuite document hierarchy

/-- A node belongs to a class. -/
structure IsOfClass (suite : Declared) (node : Definition) : Prop where
  className : node.className = some suite.name
  inNamespace : node.inNamespace = suite.inNamespace
  qualifiedClass : node.qualifiedClass = some suite.qualifiedName

/-- A node stands for the data set with an index of the test that `test` stands for. -/
structure IsDataSetNode (suite : Declared) (test : Definition) (index : Nat) (node : Definition) :
    Prop extends IsOfClass suite node where
  kind : node.kind = .dataSet
  id : node.id = Identifier.dataSet test.id node.label
  label : node.label = Identifier.dataSetLabel index
  methodName : node.methodName = test.methodName
  children : node.children = []

/-- A node stands for a test method, with one data set for each row. -/
structure IsTestNode (document : Php.Document) (suite : Declared) (method : Php.Placed)
    (node : Definition) : Prop extends IsOfClass suite node where
  kind : node.kind = .method
  id : node.id = (Identifier.unique node.inNamespace node.className node.methodName).getD ""
  methodName : node.methodName = (method.node.child? .name).map document.string
  span : node.span = method.node.span
  annotations : node.annotations = (Markers.ofDeclaration document method).annotations
  dataSets : List.Forall₂ (IsDataSetNode suite node)
    (List.range (Markers.ofDeclaration document method).annotations.testWith.length) node.children

/-- A node stands for a suite, with one child for each test method. -/
structure IsSuiteNode (document : Php.Document) (suite : Declared) (node : Definition) : Prop
    extends IsOfClass suite node where
  kind : node.kind = .classSuite
  id : node.id = (Identifier.unique node.inNamespace node.className node.methodName).getD ""
  methodName : node.methodName = none
  span : node.span = suite.declaration.node.span
  tests : List.Forall₂ (IsTestNode document suite) (suite.testMethods document) node.children

/-- The nodes of classes in a forest, read depth first. -/
def classNodes (forest : List Definition) : List Definition :=
  (Definition.forestNodes forest).filter fun node => node.kind = .classSuite

theorem has_eq_false_iff (node : Php.Node) (kind : Php.Kind) :
    node.has kind = false ↔ ∀ child ∈ node.children, child.kind ≠ kind := by
  simp [Php.Node.has]

/-- A method is public unless its first modifier of visibility says something else. -/
theorem isPublic_iff (document : Php.Document) (method : Php.Node) :
    isPublic document method = true ↔
      ∀ modifier ∈ (method.childrenOf .visibilityModifier).head?,
        document.string modifier = "public" := by
  unfold isPublic
  cases (method.childrenOf .visibilityModifier).head? with
  | none => simp
  | some modifier => simp

/-- The node made of a method that is a test stands for it. -/
theorem exists_method?_of_isTestMethod {document : Php.Document} {suite : Declared}
    {parent : Definition} (ofClass : IsOfClass suite parent) {method : Php.Placed}
    (isTest : IsTestMethod document method) :
    ∃ node, method? document parent method = some node ∧
      IsTestNode document suite method node := by
  obtain ⟨nameNode, named, marked⟩ := isTest.isTest
  have nameEq : method.node.child? .name = some nameNode := named
  have allowed : (!isPublic document method.node || method.node.has .abstractModifier ||
      method.node.has .staticModifier) = false := by
    simp [(isPublic_iff document method.node).mpr isTest.isPublic,
      (has_eq_false_iff _ _).mpr isTest.notAbstract, (has_eq_false_iff _ _).mpr isTest.notStatic]
  have recognized : ("test".toList.isPrefixOf (document.string nameNode).toList ||
      (Markers.ofDeclaration document method).isTest) = true := by
    simpa only [Bool.or_eq_true, List.isPrefixOf_iff_prefix] using marked
  unfold method?
  simp only [allowed, nameEq, recognized, Bool.false_eq_true, ↓reduceIte]
  obtain ⟨className, inNamespace, qualifiedClass⟩ := ofClass
  refine ⟨_, rfl, ⟨className, inNamespace, qualifiedClass⟩, rfl, rfl, by rw [nameEq]; rfl, rfl, rfl,
    ?_⟩
  rw [List.forall₂_map_right_iff]
  exact List.forall₂_same.mpr fun index _ =>
    ⟨⟨className, inNamespace, qualifiedClass⟩, rfl, rfl, rfl, rfl, rfl⟩

/-- A method that is no test gives no node. -/
theorem method?_eq_none_of_not_isTestMethod {document : Php.Document} {method : Php.Placed}
    (suite : Definition) (isMethod : method.node.kind = .methodDeclaration)
    (isNoTest : ¬ IsTestMethod document method) : method? document suite method = none := by
  simp only [method?]
  split
  · rfl
  · rename_i allowed
    simp only [Bool.or_eq_true, Bool.not_eq_true', not_or, Bool.not_eq_false,
      Bool.not_eq_true, has_eq_false_iff, isPublic_iff] at allowed
    obtain ⟨⟨isPublic, notAbstract⟩, notStatic⟩ := allowed
    split
    · rfl
    · rename_i nameNode named
      rw [if_neg]
      intro recognized
      refine isNoTest ⟨isMethod, isPublic, notAbstract, notStatic, nameNode, named, ?_⟩
      simpa only [Bool.or_eq_true, List.isPrefixOf_iff_prefix] using recognized

/-- The tests among some members are found among the methods. -/
theorem filter_isTestMethod (document : Php.Document) (members : List Php.Placed) :
    (members.filter fun method => IsTestMethod document method) =
      (members.filter fun member => member.node.kind = .methodDeclaration).filter
        fun method => IsTestMethod document method := by
  rw [List.filter_filter]
  refine List.filter_congr fun method _ => ?_
  by_cases isTest : IsTestMethod document method
  · simp [isTest, isTest.isMethod]
  · simp [isTest]

/-- The nodes made of the methods of a class stand for its test methods. -/
theorem forall₂_methods (document : Php.Document) {suite : Declared} {parent : Definition}
    (ofClass : IsOfClass suite parent) (body : Php.Node) :
    List.Forall₂ (IsTestNode document suite)
      (body.placedChildren.filter fun method => IsTestMethod document method)
      (methods document parent body) := by
  rw [filter_isTestMethod]
  refine forall₂_filter_filterMap (fun method _ => exists_method?_of_isTestMethod ofClass)
    fun method member => method?_eq_none_of_not_isTestMethod parent ?_
  simpa using (List.mem_filter.mp member).2

theorem qualifies_iff (hierarchy : Hierarchy) (candidate : Candidate) (markers : Markers) :
    qualifies hierarchy candidate markers = true ↔
      "Test".toList <:+ candidate.name.toList ∨
        hierarchy.extendsTestCase candidate.qualifiedName ∨ markers.isTestCase := by
  simp only [qualifies, Bool.or_eq_true, List.isSuffixOf_iff_suffix, or_assoc]

/-- A candidate has a body that is read exactly if it is a test case, not abstract, and has a
body. -/
theorem suiteBody?_eq_some_iff {document : Php.Document} {hierarchy : Hierarchy}
    {candidate : Candidate} {body : Php.Node} :
    suiteBody? document hierarchy candidate = some body ↔
      (∀ child ∈ candidate.declaration.node.children, child.kind ≠ .abstractModifier) ∧
      ("Test".toList <:+ candidate.name.toList ∨
        hierarchy.extendsTestCase candidate.qualifiedName ∨
        (Markers.ofDeclaration document candidate.declaration).isTestCase) ∧
      candidate.declaration.node.child? .body = some body := by
  rw [← has_eq_false_iff, ← qualifies_iff, ← and_assoc]
  simp only [suiteBody?]
  split
  · rename_i closed
    simp only [Bool.or_eq_true, Bool.not_eq_true'] at closed
    rcases closed with abstract' | unqualified
    · simp [abstract']
    · simp [unqualified]
  · rename_i open'
    simp only [Bool.or_eq_true, Bool.not_eq_true', not_or, Bool.not_eq_true,
      Bool.not_eq_false] at open'
    simp [open']

/-- What a candidate is read as by a reader that stands at the start of a file. -/
def suite? (document : Php.Document) (hierarchy : Hierarchy) (file : String)
    (candidate : Candidate) : Option Definition :=
  (readSuite document hierarchy file candidate .start).1

/-- What a candidate is read as does not depend on where the reader stands. -/
theorem readSuite_fst (document : Php.Document) (hierarchy : Hierarchy) (file : String)
    (candidate : Candidate) (context : Context) :
    (readSuite document hierarchy file candidate context).1 =
      suite? document hierarchy file candidate := by
  unfold suite? readSuite
  cases suiteBody? document hierarchy candidate with
  | none => rfl
  | some body =>
      dsimp only
      cases methods document (suiteHead document file candidate) body with
      | nil => rfl
      | cons first rest => rfl

/-- The suites of a file are made candidate by candidate, in order, and the context does not matter.
-/
theorem readSuites_fst (document : Php.Document) (hierarchy : Hierarchy) (file : String)
    (candidates : List Candidate) (context : Context) :
    (readSuites document hierarchy file candidates context).1 =
      candidates.filterMap (suite? document hierarchy file) := by
  induction candidates generalizing context with
  | nil => rfl
  | cons candidate rest ih =>
      rw [readSuites]
      dsimp only
      rw [ih, readSuite_fst]
      cases made : suite? document hierarchy file candidate with
      | none => rw [List.filterMap_cons_none made]; rfl
      | some suite => rw [List.filterMap_cons_some made]; rfl

theorem isOfClass_suiteHead (document : Php.Document) (file : String) {candidate : Candidate}
    (present : Identifier.present candidate.inNamespace = candidate.inNamespace) :
    IsOfClass candidate.declared (suiteHead document file candidate) :=
  ⟨rfl, present, rfl⟩

/-- The test methods of a class are looked for in its body alone. -/
theorem testMethods_declared (document : Php.Document) {candidate : Candidate} {body : Php.Node}
    (found : candidate.declaration.node.child? .body = some body) :
    candidate.declared.testMethods document =
      body.placedChildren.filter fun method => IsTestMethod document method := by
  unfold Declared.testMethods
  rw [show candidate.declared.declaration = candidate.declaration from rfl, found]

/-- The node read of a candidate that is a suite stands for it. -/
theorem exists_suite?_of_isSuite {document : Php.Document} {hierarchy : Hierarchy}
    {candidate : Candidate} (file : String)
    (present : Identifier.present candidate.inNamespace = candidate.inNamespace)
    (isSuite : candidate.declared.IsSuite document hierarchy) :
    ∃ node, suite? document hierarchy file candidate = some node ∧
      IsSuiteNode document candidate.declared node := by
  obtain ⟨notAbstract, isTestCase, hasTest⟩ := isSuite
  cases found : candidate.declaration.node.child? .body with
  | none =>
      refine absurd ?_ hasTest
      unfold Declared.testMethods
      rw [show candidate.declared.declaration = candidate.declaration from rfl, found]
  | some body =>
      have ofClass := isOfClass_suiteHead document file present
      have tests := forall₂_methods document ofClass body
      rw [← testMethods_declared document found] at tests
      have read : suiteBody? document hierarchy candidate = some body :=
        suiteBody?_eq_some_iff.mpr ⟨notAbstract, isTestCase, found⟩
      simp only [suite?, readSuite, read]
      cases made : methods document (suiteHead document file candidate) body with
      | nil =>
          rw [made] at tests
          exact absurd (List.forall₂_nil_right_iff.mp tests) hasTest
      | cons first rest =>
          rw [made] at tests
          refine ⟨_, rfl, ⟨rfl, present, rfl⟩, rfl, ?_, rfl, rfl, tests⟩
          change _ = (Identifier.unique (Identifier.present candidate.inNamespace) _ _).getD ""
          rw [present]
          rfl

/-- A class that is no suite gives no node: it is abstract, no test case or without tests. -/
theorem suite?_eq_none_of_not_isSuite {document : Php.Document} {hierarchy : Hierarchy}
    {candidate : Candidate} (file : String)
    (present : Identifier.present candidate.inNamespace = candidate.inNamespace)
    (noSuite : ¬ candidate.declared.IsSuite document hierarchy) :
    suite? document hierarchy file candidate = none := by
  unfold suite? readSuite
  cases read : suiteBody? document hierarchy candidate with
  | none => rfl
  | some body =>
      obtain ⟨notAbstract, isTestCase, found⟩ := suiteBody?_eq_some_iff.mp read
      have tests := forall₂_methods document (isOfClass_suiteHead document file present) body
      rw [← testMethods_declared document found] at tests
      cases made : methods document (suiteHead document file candidate) body with
      | nil => simp only [made]
      | cons first rest =>
          refine absurd ⟨notAbstract, isTestCase, fun none' => ?_⟩ noSuite
          rw [made, none'] at tests
          cases tests

/-- The names of a class do not depend on depths. -/
theorem IsOfClass.assignDepth {suite : Declared} {node : Definition}
    (ofClass : IsOfClass suite node) (depth : Nat) : IsOfClass suite (node.assignDepth depth) where
  className := by rw [Definition.assignDepth_className, ofClass.className]
  inNamespace := by rw [Definition.assignDepth_inNamespace, ofClass.inNamespace]
  qualifiedClass := by rw [Definition.assignDepth_qualifiedClass, ofClass.qualifiedClass]

/-- A data set stays one whatever depths are given. -/
theorem IsDataSetNode.assignDepth {suite : Declared} {test : Definition} {index : Nat}
    {node : Definition} (stands : IsDataSetNode suite test index node) (testDepth depth : Nat) :
    IsDataSetNode suite (test.assignDepth testDepth) index (node.assignDepth depth) where
  toIsOfClass := stands.toIsOfClass.assignDepth depth
  kind := by simp [stands.kind]
  id := by simp [stands.id]
  label := by simp [stands.label]
  methodName := by simp [stands.methodName]
  children := by simp [stands.children]

/-- A test stays one with all its data sets whatever depth is given. -/
theorem IsTestNode.assignDepth {document : Php.Document} {suite : Declared} {method : Php.Placed}
    {node : Definition} (stands : IsTestNode document suite method node) (depth : Nat) :
    IsTestNode document suite method (node.assignDepth depth) where
  toIsOfClass := stands.toIsOfClass.assignDepth depth
  kind := by simp [stands.kind]
  id := by simp [stands.id]
  methodName := by simp [stands.methodName]
  span := by simp [stands.span]
  annotations := by simp [stands.annotations]
  dataSets := by
    rw [Definition.assignDepth_children, List.forall₂_map_right_iff]
    exact stands.dataSets.imp fun _ _ dataSet => dataSet.assignDepth depth (depth + 1)

/-- Setting depths keeps what a node of a suite stands for. -/
theorem IsSuiteNode.assignDepth {document : Php.Document} {suite : Declared} {node : Definition}
    (stands : IsSuiteNode document suite node) (depth : Nat) :
    IsSuiteNode document suite (node.assignDepth depth) where
  toIsOfClass := stands.toIsOfClass.assignDepth depth
  kind := by simp [stands.kind]
  id := by simp [stands.id]
  methodName := by simp [stands.methodName]
  span := by simp [stands.span]
  tests := by
    rw [Definition.assignDepth_children, List.forall₂_map_right_iff]
    exact stands.tests.imp fun _ _ test => test.assignDepth (depth + 1)

@[simp] theorem classNodes_nil : classNodes [] = [] := rfl

/-- The classes of a forest are the root, if it is one, those below it and those of the other trees.
-/
@[simp] theorem classNodes_cons (definition : Definition) (rest : List Definition) :
    classNodes (definition :: rest) =
      (if definition.kind = .classSuite then [definition] else []) ++
        classNodes definition.children ++ classNodes rest := by
  unfold classNodes
  rw [Definition.forestNodes_cons, Definition.nodes_eq, List.filter_append, List.filter_cons]
  split <;> simp_all

/-- No classes stand among tests and their data sets. -/
theorem classNodes_tests {document : Php.Document} {suite : Declared}
    {methods : List Php.Placed} {tests : List Definition}
    (stand : List.Forall₂ (IsTestNode document suite) methods tests) :
    classNodes tests = [] := by
  have dataSets : ∀ {test : Definition} {indices : List Nat} {nodes : List Definition},
      List.Forall₂ (IsDataSetNode suite test) indices nodes → classNodes nodes = [] := by
    intro test indices nodes standing
    induction standing with
    | nil => rfl
    | cons first _ ih => simp [first.kind, first.children, ih]
  induction stand with
  | nil => rfl
  | cons first _ ih => simp [first.kind, dataSets first.dataSets, ih]

/-- Among suites, the suites are all the classes. -/
theorem classNodes_suites {document : Php.Document} {suites : List Declared}
    {nodes : List Definition} (stand : List.Forall₂ (IsSuiteNode document) suites nodes) :
    classNodes nodes = nodes := by
  induction stand with
  | nil => rfl
  | cons first _ ih => simp [first.kind, classNodes_tests first.tests, ih]

/-- The classes of two forests follow one another. -/
theorem classNodes_append (first second : List Definition) :
    classNodes (first ++ second) = classNodes first ++ classNodes second := by
  unfold classNodes
  rw [Definition.forestNodes_append, List.filter_append]

/-- The classes in a grouped forest are those under its roots. -/
theorem classNodes_of_isRoot {file : String} {forest : List Definition}
    (grouped : ∀ root ∈ forest, Definition.IsRoot file root) :
    classNodes forest = classNodes (forest.flatMap Definition.members) := by
  induction forest with
  | nil => rfl
  | cons root rest ih =>
      obtain ⟨first, others⟩ := List.forall_mem_cons.mp grouped
      rw [List.flatMap_cons, classNodes_append, classNodes_cons, ih others]
      congr 1
      cases first with
      | classSuite kind outside => simp [Definition.members, kind]
      | namespaceSuite name span occupied within =>
          simp [Definition.members, Definition.ofNamespace]

/-- A candidate has no empty namespace, since a context does not keep one. -/
theorem present_of_mem_candidates {document : Php.Document} {context : Context}
    {candidate : Candidate}
    (member : candidate ∈ (Survey.ofDocument document context.restart).candidates) :
    Identifier.present candidate.inNamespace = candidate.inNamespace := by
  have declared : candidate.declared ∈ declaredClasses document := by
    rw [← Survey.declared_ofDocument document context]
    exact List.mem_map_of_mem member
  exact present_of_mem_declaredClasses declared

/-- The nodes read of the candidates of a file stand for the suites of the file. -/
theorem forall₂_readSuites (document : Php.Document) (file : String) (context : Context) :
    List.Forall₂ (IsSuiteNode document) (suites document)
      (readSuites document ((Survey.ofDocument document .start).hierarchy document) file
        (Survey.ofDocument document .start).candidates context).1 := by
  rw [readSuites_fst, suites, ← Survey.declared_ofDocument document .start, List.filter_map,
    List.forall₂_map_left_iff]
  exact forall₂_filter_filterMap
    (fun candidate member isSuite =>
      exists_suite?_of_isSuite file (present_of_mem_candidates member) isSuite)
    fun candidate member noSuite =>
      suite?_eq_none_of_not_isSuite file (present_of_mem_candidates member) noSuite

/-- The forest of a file is made of the nodes that stand for its suites. -/
theorem exists_forest?_eq (document : Php.Document) (file : String) :
    ∃ classes, List.Forall₂ (IsSuiteNode document) (suites document) classes ∧
      (classes = [] ∧ forest? document file = none ∨
        classes ≠ [] ∧
          forest? document file = some (Definition.groupByNamespace file classes)) := by
  have stand := forall₂_readSuites document file (Survey.ofDocument document .start).context
  refine ⟨_, stand, ?_⟩
  unfold forest? read
  cases made : (readSuites document ((Survey.ofDocument document .start).hierarchy document) file
      (Survey.ofDocument document .start).candidates
      (Survey.ofDocument document .start).context).1 with
  | nil => exact .inl ⟨rfl, by simp [made, Context.restart]⟩
  | cons first rest => exact .inr ⟨by simp, by simp [made, Context.restart]⟩

/-- The nodes that stand for suites are classes. -/
theorem kind_of_forall₂ {document : Php.Document} {suites : List Declared}
    {classes : List Definition} (stand : List.Forall₂ (IsSuiteNode document) suites classes) :
    ∀ node ∈ classes, node.kind = .classSuite := by
  intro node member
  obtain ⟨suite, _, stands⟩ := exists_left_of_mem_right stand member
  exact stands.kind

/-- A file has a forest exactly if it declares a suite, and the classes under the roots of the
forest stand for its suites. -/
theorem forest?_cases (document : Php.Document) (file : String) :
    (forest? document file = none ∧ suites document = []) ∨
      ∃ forest, forest? document file = some forest ∧ suites document ≠ [] ∧
        List.Forall₂ (IsSuiteNode document) (suites document)
          (forest.flatMap Definition.members) ∧
        ∀ root ∈ forest, Definition.IsRoot file root := by
  obtain ⟨classes, stand, ⟨rfl, absent⟩ | ⟨occupied, found⟩⟩ := exists_forest?_eq document file
  · exact .inl ⟨absent, List.forall₂_nil_right_iff.mp stand⟩
  · have kinds := kind_of_forall₂ stand
    refine .inr ⟨_, found, fun none' => ?_, ?_,
      fun root member => Definition.isRoot_of_mem_groupByNamespace kinds member⟩
    · rw [none'] at stand
      exact occupied (List.forall₂_nil_left_iff.mp stand)
    · rw [Definition.flatMap_members_groupByNamespace kinds, List.forall₂_map_right_iff]
      exact stand.imp fun _ node stands => stands.assignDepth node.groupedDepth

/-- The classes under the roots of a forest stand for the suites of its file. -/
theorem roots_of_forest? {document : Php.Document} {file : String} {forest : List Definition}
    (found : forest? document file = some forest) :
    List.Forall₂ (IsSuiteNode document) (suites document) (forest.flatMap Definition.members) ∧
      ∀ root ∈ forest, Definition.IsRoot file root := by
  rcases forest?_cases document file with ⟨absent, _⟩ | ⟨forest', found', _, stand, grouped⟩
  · rw [absent] at found
    cases found
  · obtain rfl : forest' = forest := Option.some.inj (found'.symm.trans found)
    exact ⟨stand, grouped⟩

/-- **Exactly the suites are reported.** A file has a forest exactly if it declares a suite. The
class nodes of the forest, read depth first, stand for the suites of the file one by one in source
order, and the children of each stand for its test methods one by one in source order, with one
data set for each row. Every class stands under a root: the node of its own namespace, or itself if
it has none, and taken root by root these are the class nodes again. -/
theorem forest?_describes_suites (document : Php.Document) (file : String) :
    match forest? document file with
    | none => suites document = []
    | some forest =>
      suites document ≠ [] ∧
      List.Forall₂ (IsSuiteNode document) (suites document) (classNodes forest) ∧
      forest.flatMap Definition.members = classNodes forest ∧
      ∀ root ∈ forest, Definition.IsRoot file root := by
  rcases forest?_cases document file with
    ⟨absent, empty⟩ | ⟨forest, found, occupied, stand, grouped⟩
  · rw [absent]
    exact empty
  · have classes : forest.flatMap Definition.members = classNodes forest := by
      rw [classNodes_of_isRoot grouped, classNodes_suites stand]
    rw [found]
    exact ⟨occupied, classes ▸ stand, classes, grouped⟩

end PhpTestIndex.PhpUnit
