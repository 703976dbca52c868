import PhpTestIndex.Proofs.Pest.Selection
import PhpTestIndex.Proofs.Test.Ancestry

/-! # Forests of tests registered by calls

The forest of a file that registers tests is put together from one suite
(`PhpTestIndex.Pest.assembled_of_read`), however deep its groups are nested, and what its nodes are
called is said by the place of the file and by the words and descriptions of the calls alone
(`PhpTestIndex.Pest.identities_of_callNames_eq`).
-/

namespace PhpTestIndex.Pest

section Parts

variable {document : Php.Document} {suite parent : Definition}

/-- The test that a call makes is a part of the suite that its parent is a part of. -/
theorem isPart_testDefinition (named : parent.IsNamed)
    (shares : Definition.SharesClass suite parent) (context : Context) (call : Call) :
    Definition.IsPart suite (testDefinition document context parent call) := by
  have test := Definition.isNamed_member named .method
    (testName call.function call.description context.describePath) call.node.span
  refine .test rfl ⟨shares.inNamespace, shares.className, shares.qualifiedClass, shares.file⟩
    ⟨test.id, test.qualifiedClass⟩ (List.length_map _) ?_
  exact List.forall_mem_map.mpr fun row _ => Definition.isDataSetOf_labelledDataSet _ _

/-- A group is identified by the names of its suite and the way of descriptions to it. -/
theorem isNamed_groupHead (named : parent.IsNamed) (context : Context) (call : Call) :
    (groupHead document context parent call).IsNamed := by
  have group := Definition.isNamed_member named .describe
    (groupName (context.describePath ++ [call.description])) call.node.span
  exact ⟨group.id, group.qualifiedClass⟩

mutual

/-- What a registration defines is a test or a group of the class. -/
theorem isPart_of_define {parent : Definition} (named : parent.IsNamed)
    (shares : Definition.SharesClass suite parent) :
    ∀ (registration : Registration) (context : Context),
      ∀ node ∈ (define document parent registration context).1, Definition.IsPart suite node
  | ⟨call, inner⟩, context => by
    intro node made
    by_cases isGroup : call.function = describeFunction
    · have group : (groupHead document context parent call).IsNamed :=
        isNamed_groupHead named context call
      have sharesGroup : Definition.SharesClass suite (groupHead document context parent call) :=
        ⟨shares.inNamespace, shares.className, shares.qualifiedClass, shares.file⟩
      have parts := isPart_of_defineAll group sharesGroup inner
        (context.enter (.describe call.description))
      rw [define_of_eq isGroup] at made
      split at made
      · cases made
      · rename_i tests occupied
        obtain rfl := Option.some.inj made
        exact .group rfl
          ⟨sharesGroup.inNamespace, sharesGroup.className, sharesGroup.qualifiedClass,
            sharesGroup.file⟩
          ⟨group.id, group.qualifiedClass⟩ occupied parts
    · rw [define_of_ne isGroup] at made
      obtain rfl := Option.some.inj made
      exact isPart_testDefinition named shares context call

/-- What some registrations define are tests and groups of the class. -/
theorem isPart_of_defineAll {parent : Definition} (named : parent.IsNamed)
    (shares : Definition.SharesClass suite parent) :
    ∀ (registrations : List Registration) (context : Context),
      ∀ node ∈ (defineAll document parent registrations context).1, Definition.IsPart suite node
  | [], context => by simp [defineAll]
  | registration :: rest, context => by
    intro node among
    rw [defineAll] at among
    dsimp only at among
    rcases List.mem_append.mp among with here | later
    · exact isPart_of_define named shares registration context node (Option.mem_toList.mp here)
    · exact isPart_of_defineAll named shares rest _ node later

end

end Parts

section Descriptions

/-- What a test or a group and the nodes below it are called is put together from the labels of the
groups around them, and data sets are labelled after their rows. -/
inductive IsDescribed : List String → Definition → Prop
  | test {groups : List String} {node : Definition} (kind : node.kind = .method)
    (name : node.methodName = some (namePrefix groups ++ node.label))
    (rows : ∀ child ∈ node.children, ∃ row, child.label = Identifier.rowLabel row) :
    IsDescribed groups node
  | group {groups : List String} {node : Definition} (kind : node.kind = .describe)
    (name : node.methodName = some (namePrefix groups ++ ("`" ++ node.label ++ "`")))
    (parts : ∀ child ∈ node.children, IsDescribed (groups ++ [node.label]) child) :
    IsDescribed groups node

/-- A test is called by its description after those of the groups that are open. -/
theorem isDescribed_testDefinition (document : Php.Document) (context : Context)
    (parent : Definition) (call : Call) :
    IsDescribed context.describePath (testDefinition document context parent call) := by
  refine .test rfl (congrArg some (testName_eq ..)) ?_
  exact List.forall_mem_map.mpr fun row _ => ⟨row, rfl⟩

/-- A group is called by its way of descriptions, and what is in it goes on from there. -/
theorem isDescribed_group (document : Php.Document) (context : Context) (parent : Definition)
    (call : Call) {tests : List Definition}
    (inside : ∀ node ∈ tests, IsDescribed (context.describePath ++ [call.description]) node) :
    IsDescribed context.describePath
      { groupHead document context parent call with children := tests } :=
  .group rfl (congrArg some (groupName_append_singleton ..)) inside

mutual

/-- What a registration defines is named after the groups that are open. -/
theorem isDescribed_of_define (document : Php.Document) (parent : Definition) :
    ∀ (registration : Registration) (context : Context),
      ∀ node ∈ (define document parent registration context).1,
        IsDescribed context.describePath node
  | ⟨call, inner⟩, context => by
    intro node made
    by_cases isGroup : call.function = describeFunction
    · have inside := isDescribed_of_defineAll document (groupHead document context parent call) inner
        (context.enter (.describe call.description))
      rw [Context.describePath_enter_describe] at inside
      rw [define_of_eq isGroup] at made
      split at made
      · cases made
      · obtain rfl := Option.some.inj made
        exact isDescribed_group document context parent call inside
    · rw [define_of_ne isGroup] at made
      obtain rfl := Option.some.inj made
      exact isDescribed_testDefinition document context parent call

/-- What some registrations define is named after the groups that are open. -/
theorem isDescribed_of_defineAll (document : Php.Document) (parent : Definition) :
    ∀ (registrations : List Registration) (context : Context),
      ∀ node ∈ (defineAll document parent registrations context).1,
        IsDescribed context.describePath node
  | [], context => by simp [defineAll]
  | registration :: rest, context => by
    intro node among
    rw [defineAll] at among
    dsimp only at among
    rcases List.mem_append.mp among with here | later
    · exact isDescribed_of_define document parent registration context node
        (Option.mem_toList.mp here)
    · rw [define_snd] at later
      exact isDescribed_of_defineAll document parent rest context node later

end

/-- How a node is called does not depend on depths, by induction on how groups are nested. -/
theorem IsDescribed.assignDepth {groups : List String} {node : Definition}
    (described : IsDescribed groups node) (depth : Nat) :
    IsDescribed groups (node.assignDepth depth) := by
  induction described generalizing depth with
  | @test groups node kind name rows =>
      refine .test (by simpa using kind) (by simpa using name) ?_
      rw [Definition.assignDepth_children]
      exact List.forall_mem_map.mpr fun child among => by simpa using rows child among
  | @group groups node kind name _ ih =>
      refine .group (by simpa using kind) (by simpa using name) ?_
      rw [Definition.assignDepth_children, Definition.assignDepth_label]
      exact List.forall_mem_map.mpr fun child among => ih child among (depth + 1)

end Descriptions

section Forests

variable {reader : Reader} {directory file : String} {document : Php.Document}
  {forest : List Definition}

/-- A class in a namespace that is not empty always has an identifier. -/
theorem exists_unique_eq_some {name : String} (named : name ≠ "") (className : String) :
    ∃ id, Identifier.unique (some name) (some className) none = some id := by
  unfold Identifier.unique
  split
  · exact ⟨name, Identifier.present_eq_some_iff.mpr ⟨rfl, named⟩⟩
  · exact ⟨_, rfl⟩

/-- A file has no forest exactly if it reaches no test. -/
theorem read_eq_none_iff (reader : Reader) (directory : String) (document : Php.Document)
    (file : String) :
    (reader.read directory document file).1 = none ↔
      ∀ call ∈ reachedCalls document, ¬ call.IsTest := by
  have empty := (reports_ofStatements document document.root).empty
    (suiteHead directory reader.root file document) .start
  rw [Context.describePath_start] at empty
  rw [read_fst]
  change _ ↔ ∀ call ∈ reachedAmong document [] document.root, ¬ call.IsTest
  rw [← empty]
  split
  · rename_i none'
    simp only [none']
  · rename_i occupied
    simp only [reduceCtorEq, false_iff]
    exact occupied

/-- A suite is called after the place of its file. -/
structure IsCalledAfter (directory root file : String) (suite : Definition) : Prop where
  inNamespace : suite.inNamespace = some (syntheticClass directory root file).1
  className : suite.className = some (syntheticClass directory root file).2
  methodName : suite.methodName = none

/-- The forest of a file groups one suite, in which the calls of the file that appear stand. -/
theorem exists_suite_of_read (found : (reader.read directory document file).1 = some forest) :
    ∃ suite, forest = Definition.groupByNamespace file [suite] ∧ Definition.IsSuite file suite ∧
      IsCalledAfter directory reader.root file suite ∧
      (∀ child ∈ suite.children, IsDescribed [] child) ∧
      List.Forall₂ (Stands document)
        ((reachedCalls document).filter fun call => call.Appears document)
        (shownAmong [] suite.children) := by
  have described := isDescribed_of_defineAll document
    (suiteHead directory reader.root file document)
    (Registration.ofStatements document document.root) .start
  have stand := (reports_ofStatements document document.root).stand
    (suiteHead directory reader.root file document) .start
  have named := syntheticClass_namespace_ne_empty directory reader.root file
  rw [Context.describePath_start] at stand described
  rw [read_fst] at found
  rw [suiteHead_eq] at found stand described
  generalize isName : (syntheticClass directory reader.root file).1 = name
    at found stand named described
  generalize isClass : (syntheticClass directory reader.root file).2 = className
    at found stand described
  let head := Definition.ofClass (some name) className file document.root.span
  have present : Identifier.present (some name) = some name :=
    Identifier.present_eq_some_iff.mpr ⟨rfl, named⟩
  obtain ⟨id, known⟩ := exists_unique_eq_some named className
  have isNamed : head.IsNamed := Definition.isNamed_ofClass known file document.root.span
  split at found
  · cases found
  · rename_i _ occupied
    refine ⟨_, (Option.some.inj found).symm, ⟨rfl, ⟨isNamed.id, isNamed.qualifiedClass⟩, rfl,
      occupied, ?_⟩, ⟨present.trans (congrArg some isName.symm), congrArg some isClass.symm, rfl⟩,
      described, stand⟩
    refine isPart_of_defineAll isNamed ?_ _ .start
    exact ⟨rfl, rfl, rfl, rfl⟩

/-- The forest of a file is put together from its suite. -/
theorem assembled_of_read (found : (reader.read directory document file).1 = some forest) :
    Definition.Assembled file forest := by
  obtain ⟨suite, rfl, isSuite, _⟩ := exists_suite_of_read found
  exact Definition.assembled_groupByNamespace (List.cons_ne_nil suite [])
    (List.forall_mem_singleton.mpr isSuite)

end Forests

/-- What a call is called: the groups around it, its word and its description. -/
structure CallName where
  groups : List String
  function : String
  description : String
deriving DecidableEq

def Reached.callName (reached : Reached) : CallName :=
  ⟨reached.groups, reached.call.function, reached.call.description⟩

/-- The names of the calls of a file that appear among its tests, in source order. -/
def callNames (document : Php.Document) : List CallName :=
  ((reachedCalls document).filter fun call => call.Appears document).map Reached.callName

/-- The identity of the suite of a file. -/
def suiteIdentity (directory root file : String) : Definition.Identity :=
  .ofNames file .classSuite (some (syntheticClass directory root file).1)
    (some (syntheticClass directory root file).2) none

/-- The identity of a call in a suite. -/
def CallName.identity (suite : Definition.Identity) (name : CallName) : Definition.Identity :=
  let ownName :=
    if name.function = describeFunction then "`" ++ name.description ++ "`"
    else testLabel name.function name.description
  .ofNames suite.file (if name.function = describeFunction then .describe else .method)
    suite.inNamespace suite.className (some (namePrefix name.groups ++ ownName))

section Names

variable {reader : Reader} {directory file : String} {document document' : Php.Document}
  {forest forest' : List Definition}

/-- The tests and groups of a tree have its identities, data sets aside. -/
theorem identities_singleton_eq_shown (groups : List String) (node : Definition) :
    Definition.identities [node] = (shown groups node).map fun shown => shown.node.identity := by
  induction node using Definition.induction_children generalizing groups with
  | step node ih =>
      have below (groups : List String) : Definition.identities node.children =
          (shownAmong groups node.children).map fun shown => shown.node.identity := by
        rw [shownAmong_eq_flatMap, List.map_flatMap, Definition.identities_eq_flatMap]
        exact List.flatMap_congr fun child among => ih child among groups
      rw [shown_eq, List.map_append, ← below]
      by_cases kind : node.kind = .dataSet
      · rw [if_pos kind, Definition.identities_singleton_of_dataSet kind]
        rfl
      · rw [Definition.identities_singleton kind, if_neg kind]
        rfl

/-- The identities of a forest are those of the tests and groups that are shown, with data sets left
out. -/
theorem identities_eq_shownAmong (groups : List String) (forest : List Definition) :
    Definition.identities forest =
      (shownAmong groups forest).map fun shown => shown.node.identity := by
  rw [shownAmong_eq_flatMap, List.map_flatMap, Definition.identities_eq_flatMap]
  exact List.flatMap_congr fun node _ => identities_singleton_eq_shown groups node

/-- What is shown below a node is one of the nodes of its tree. -/
theorem mem_nodes_of_mem_shown {groups : List String} {node : Definition} {below : Shown}
    (among : below ∈ shown groups node) : below.node ∈ node.nodes := by
  induction node using Definition.induction_children generalizing groups with
  | step node ih =>
      rw [shown_eq, shownAmong_eq_flatMap] at among
      rw [Definition.nodes_eq, Definition.forestNodes_eq_flatMap]
      rcases List.mem_append.mp among with here | inside
      · split at here
        · cases here
        · rw [List.mem_singleton.mp here]
          exact List.mem_cons_self
      · obtain ⟨child, present, inChild⟩ := List.mem_flatMap.mp inside
        exact List.mem_cons_of_mem node (List.mem_flatMap.mpr ⟨child, present, ih child present inChild⟩)

/-- What stands for a call in a suite has the identity of the call. -/
theorem identity_of_stands {suite : Definition} {reached : Reached} {shown : Shown}
    (shares : Definition.SharesClass suite shown.node) (named : shown.node.IsNamed)
    (stands : Stands document reached shown) :
    shown.node.identity = reached.callName.identity suite.identity := by
  rw [named.identity, stands.kind, stands.name, stands.groups, shares.inNamespace,
    shares.className, shares.file]
  rfl

/-- If nodes stand for reached calls, one for each, their identities are read off the names of the
calls and the suite alone. -/
theorem map_identity_of_stand {suite : Definition} {reached : List Reached} {shown : List Shown}
    (stand : List.Forall₂ (Stands document) reached shown)
    (inherit : ∀ below ∈ shown, below.node.kind ≠ .dataSet →
      Definition.SharesClass suite below.node ∧ below.node.IsNamed) :
    shown.map (fun below => below.node.identity) =
      (reached.map Reached.callName).map (CallName.identity suite.identity) := by
  induction stand with
  | nil => rfl
  | @cons call below calls shown first _ ih =>
      obtain ⟨inherits, others⟩ := List.forall_mem_cons.mp inherit
      have kind : below.node.kind ≠ .dataSet := by
        rw [first.kind]
        split <;> decide
      obtain ⟨shares, named⟩ := inherits kind
      rw [List.map_cons, List.map_cons, List.map_cons, identity_of_stands shares named first,
        ih others]

/-- The identities of a suite and what stands in it are those of its calls. -/
theorem identities_suite {root : String} {suite : Definition}
    (isSuite : Definition.IsSuite file suite)
    (calledAfter : IsCalledAfter directory root file suite)
    (stand : List.Forall₂ (Stands document)
      ((reachedCalls document).filter fun call => call.Appears document)
      (shownAmong [] suite.children)) :
    Definition.identities [suite] = suiteIdentity directory root file ::
      (callNames document).map (CallName.identity (suiteIdentity directory root file)) := by
  have identity : suite.identity = suiteIdentity directory root file := by
    rw [isSuite.named.identity, isSuite.kind, isSuite.file, calledAfter.inNamespace,
      calledAfter.className, calledAfter.methodName]
    rfl
  have inherit : ∀ below ∈ shownAmong [] suite.children, below.node.kind ≠ .dataSet →
      Definition.SharesClass suite below.node ∧ below.node.IsNamed := by
    intro below among other
    rw [shownAmong_eq_flatMap] at among
    obtain ⟨child, present, inside⟩ := List.mem_flatMap.mp among
    exact (isSuite.parts child present).inherits _ (mem_nodes_of_mem_shown inside) other
  rw [Definition.identities_singleton (by simp [isSuite.kind]), identities_eq_shownAmong [],
    map_identity_of_stand stand inherit, identity]
  rfl

/-- **Only names count.** Files at one place that register calls of the same names, with whatever
data and annotations, give the same identities in the same order. -/
theorem identities_of_callNames_eq
    (found : (reader.read directory document file).1 = some forest)
    (found' : (reader.read directory document' file).1 = some forest')
    (same : callNames document = callNames document') :
    Definition.identities forest = Definition.identities forest' := by
  obtain ⟨suite, rfl, isSuite, calledAfter, _, stand⟩ := exists_suite_of_read found
  obtain ⟨suite', rfl, isSuite', calledAfter', _, stand'⟩ := exists_suite_of_read found'
  refine Definition.identities_groupByNamespace (List.forall_mem_singleton.mpr isSuite.kind)
    (List.forall_mem_singleton.mpr isSuite'.kind) ?_
  rw [List.map_singleton, List.map_singleton, identities_suite isSuite calledAfter stand,
    identities_suite isSuite' calledAfter' stand', same]

end Names

end PhpTestIndex.Pest
