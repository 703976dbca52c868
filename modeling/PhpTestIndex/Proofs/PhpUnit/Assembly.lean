import PhpTestIndex.Proofs.PhpUnit.Identity
import PhpTestIndex.Proofs.Test.Ancestry

/-! # Forests of tests in classes

The forest of a file with tests in classes is put together from its suites
(`PhpTestIndex.PhpUnit.assembled_of_forest?`), and what its nodes are called is said by the names
that the file declares alone (`PhpTestIndex.PhpUnit.identities_of_suiteNames_eq`).
-/

namespace PhpTestIndex.PhpUnit

variable {document : Php.Document} {file : String}

/-- What is made of a method: a test with the name of the method, with a label and annotations that
its markers give it, and with data sets that are counted. -/
theorem exists_eq_of_method? {parent node : Definition} {method : Php.Placed}
    (made : method? document parent method = some node) :
    ∃ nameNode ∈ method.node.child? .name,
      let name := document.string nameNode
      let annotations := (Markers.ofDeclaration document method).annotations
      let test := { parent.member .method name method.node.span with
        label := labelOf annotations name
        annotations := annotations }
      node = { test with
        children := (List.range annotations.testWith.length).map test.dataSet } := by
  simp only [method?] at made
  split at made
  · cases made
  · split at made
    · cases made
    · rename_i nameNode named
      split at made
      · exact ⟨nameNode, named, (Option.some.inj made).symm⟩
      · cases made

/-- What a candidate is read as: a class with what is made of the methods in its body. -/
theorem exists_eq_of_suite? {hierarchy : Hierarchy} {candidate : Candidate} {node : Definition}
    (read : suite? document hierarchy file candidate = some node) :
    ∃ body ∈ candidate.declaration.node.child? .body,
      let suite := suiteHead document file candidate
      methods document suite body ≠ [] ∧
        node = { suite with children := methods document suite body } := by
  unfold suite? readSuite at read
  split at read
  · cases read
  · rename_i body opened
    dsimp only at read
    split at read
    · cases read
    · rename_i tests occupied
      exact ⟨body, (suiteBody?_eq_some_iff.mp opened).2.2, occupied, (Option.some.inj read).symm⟩

/-- What is made of a method is a test of the class. -/
theorem isPart_of_method? {suite parent node : Definition} {method : Php.Placed}
    (named : parent.IsNamed) (shares : Definition.SharesClass suite parent)
    (made : method? document parent method = some node) : Definition.IsPart suite node := by
  obtain ⟨nameNode, _, rfl⟩ := exists_eq_of_method? made
  have member := Definition.isNamed_member named .method (document.string nameNode)
    method.node.span
  refine .test rfl ⟨shares.inNamespace, shares.className, shares.qualifiedClass, shares.file⟩
    ⟨member.id, member.qualifiedClass⟩ (by simp) ?_
  exact List.forall_mem_map.mpr fun index _ => Definition.isDataSetOf_labelledDataSet _ _

/-- What a candidate is read as is a class with tests. -/
theorem isSuite_of_suite? {hierarchy : Hierarchy} {candidate : Candidate} {node : Definition}
    (named : candidate.name ≠ "") (read : suite? document hierarchy file candidate = some node) :
    Definition.IsSuite file node := by
  have known : Identifier.unique candidate.inNamespace (some candidate.name) none =
      some (Identifier.qualifiedClass candidate.inNamespace (some candidate.name)) := by
    rw [Identifier.unique, Identifier.present_eq_some_iff.mpr ⟨rfl, named⟩]
    rfl
  have head : (suiteHead document file candidate).IsNamed := by
    have plain := Definition.isNamed_ofClass known file candidate.declaration.node.span
    exact ⟨plain.id, plain.qualifiedClass⟩
  obtain ⟨body, _, occupied, rfl⟩ := exists_eq_of_suite? read
  refine ⟨rfl, ⟨head.id, head.qualifiedClass⟩, rfl, occupied, fun child among => ?_⟩
  obtain ⟨method, _, made⟩ := List.mem_filterMap.mp among
  exact isPart_of_method? head ⟨rfl, rfl, rfl, rfl⟩ made

section Forests

variable {forest : List Definition}

/-- The forest of a file groups what its candidates are read as. -/
theorem exists_suites_of_forest? (found : forest? document file = some forest) :
    ∃ classes, classes ≠ [] ∧ forest = Definition.groupByNamespace file classes ∧
      classes = (Survey.ofDocument document .start).candidates.filterMap
        (suite? document ((Survey.ofDocument document .start).hierarchy document) file) ∧
      List.Forall₂ (IsSuiteNode document) (suites document) classes := by
  have stand := forall₂_readSuites document file (Survey.ofDocument document .start).context
  unfold forest? read at found
  dsimp only at found
  split at found
  · cases found
  · rename_i occupied
    exact ⟨_, occupied, (Option.some.inj found).symm, readSuites_fst .., stand⟩

/-- What the candidates of a file are read as are classes with tests. -/
theorem isSuite_of_mem_filterMap (words : Words document) {node : Definition}
    (among : node ∈ (Survey.ofDocument document .start).candidates.filterMap
      (suite? document ((Survey.ofDocument document .start).hierarchy document) file)) :
    Definition.IsSuite file node := by
  obtain ⟨candidate, present, read⟩ := List.mem_filterMap.mp among
  refine isSuite_of_suite? (fun nameless => ?_) read
  -- A candidate that is read as a class is a suite, and suites are named by words.
  have outside := @present_of_mem_candidates document .start candidate present
  have member : candidate.declared ∈ suites document := by
    refine List.mem_filter.mpr ⟨?_, decide_eq_true ?_⟩
    · rw [← Survey.declared_ofDocument document .start]
      exact List.mem_map_of_mem present
    · by_contra noSuite
      rw [suite?_eq_none_of_not_isSuite file outside noSuite] at read
      cases read
  refine (words.className _ member).nonempty ?_
  rw [show candidate.declared.name = candidate.name from rfl, nameless]
  rfl

/-- A file gives no forest if and only if none of its classes is a suite. -/
theorem forest?_eq_none_iff (document : Php.Document) (file : String) :
    forest? document file = none ↔ suites document = [] := by
  rcases forest?_cases document file with ⟨absent, empty⟩ | ⟨forest, found, occupied, _⟩
  · simp only [absent, empty]
  · simp only [found, occupied, reduceCtorEq]

/-- The forest of a file is put together from its suites. -/
theorem assembled_of_forest? (words : Words document)
    (found : forest? document file = some forest) : Definition.Assembled file forest := by
  obtain ⟨classes, occupied, rfl, rfl, _⟩ := exists_suites_of_forest? found
  exact Definition.assembled_groupByNamespace occupied fun node => isSuite_of_mem_filterMap words

end Forests

/-- What a suite is called, and what its tests are called. -/
structure SuiteNames where
  inNamespace : Option String
  name : String
  tests : List (Option String)
deriving DecidableEq

def Declared.names (document : Php.Document) (suite : Declared) : SuiteNames :=
  ⟨suite.inNamespace, suite.name,
    (suite.testMethods document).map fun method => (method.node.child? .name).map document.string⟩

/-- The names of the suites of a file and of their tests, in source order. -/
def suiteNames (document : Php.Document) : List SuiteNames :=
  (suites document).map (Declared.names document)

/-- The identities of a suite and its tests. -/
def SuiteNames.identities (file : String) (names : SuiteNames) : List Definition.Identity :=
  .ofNames file .classSuite names.inNamespace (some names.name) none ::
    names.tests.map fun test =>
      .ofNames file .method names.inNamespace (some names.name) test

section Names

variable {suite : Declared} {node : Definition}

/-- A test is identified by its class, its namespace and its own name; its rows add nothing. -/
theorem identities_test {method : Php.Placed} {test : Definition}
    (part : Definition.IsPart node test) (stands : IsTestNode document suite method test) :
    Definition.identities [test] =
      [.ofNames node.file .method suite.inNamespace (some suite.name)
        ((method.node.child? .name).map document.string)] := by
  have below : Definition.identities test.children = [] := by
    refine Definition.identities_dataSets fun child among => ?_
    obtain ⟨_, _, dataSet⟩ := exists_left_of_mem_right stands.dataSets among
    exact ⟨dataSet.kind, dataSet.children⟩
  rw [Definition.identities_singleton (by simp [stands.kind]), below, part.named.identity,
    stands.kind, stands.inNamespace, stands.className, stands.methodName, part.shares.file]

/-- The tests of a suite are identified in the order of their methods. -/
theorem identities_tests {methods : List Php.Placed} {tests : List Definition}
    (parts : ∀ test ∈ tests, Definition.IsPart node test)
    (stand : List.Forall₂ (IsTestNode document suite) methods tests) :
    Definition.identities tests = methods.map fun method =>
      .ofNames node.file .method suite.inNamespace (some suite.name)
        ((method.node.child? .name).map document.string) := by
  induction stand with
  | nil => rfl
  | @cons method test methods tests first _ ih =>
      obtain ⟨part, others⟩ := List.forall_mem_cons.mp parts
      rw [← List.singleton_append, Definition.identities_append, identities_test part first,
        ih others]
      rfl

/-- The identities below the node of a suite are those of its names. -/
theorem identities_suite (isSuite : Definition.IsSuite file node)
    (stands : IsSuiteNode document suite node) :
    Definition.identities [node] = (suite.names document).identities file := by
  rw [Definition.identities_singleton (by simp [stands.kind]), isSuite.named.identity,
    identities_tests isSuite.parts stands.tests, stands.kind, stands.inNamespace, stands.className,
    stands.methodName, isSuite.file, SuiteNames.identities, Declared.names, List.map_map]
  rfl

/-- Each suite is identified with its tests, from the names in the file alone. -/
theorem identities_suites {suites : List Declared} {classes : List Definition}
    (isSuite : ∀ node ∈ classes, Definition.IsSuite file node)
    (stand : List.Forall₂ (IsSuiteNode document) suites classes) :
    classes.map (fun node => Definition.identities [node]) =
      suites.map fun suite => (suite.names document).identities file := by
  induction stand with
  | nil => rfl
  | cons first _ ih =>
      obtain ⟨here, others⟩ := List.forall_mem_cons.mp isSuite
      rw [List.map_cons, List.map_cons, identities_suite here first, ih others]

/-- **Only names count.** Files that declare the same names, with whatever labels and annotations,
give the same identities in the same order. -/
theorem identities_of_suiteNames_eq {document' : Php.Document} {forest forest' : List Definition}
    (words : Words document) (words' : Words document')
    (found : forest? document file = some forest) (found' : forest? document' file = some forest')
    (same : suiteNames document = suiteNames document') :
    Definition.identities forest = Definition.identities forest' := by
  obtain ⟨classes, _, rfl, read, stand⟩ := exists_suites_of_forest? found
  obtain ⟨classes', _, rfl, read', stand'⟩ := exists_suites_of_forest? found'
  have isSuite : ∀ node ∈ classes, Definition.IsSuite file node := by
    rw [read]
    exact fun node => isSuite_of_mem_filterMap words
  have isSuite' : ∀ node ∈ classes', Definition.IsSuite file node := by
    rw [read']
    exact fun node => isSuite_of_mem_filterMap words'
  refine Definition.identities_groupByNamespace (kind_of_forall₂ stand) (kind_of_forall₂ stand') ?_
  have identities := congrArg (List.map (SuiteNames.identities file)) same
  rw [suiteNames, suiteNames, List.map_map, List.map_map] at identities
  rw [identities_suites isSuite stand, identities_suites isSuite' stand']
  exact identities

end Names

end PhpTestIndex.PhpUnit
