import PhpTestIndex.Pest.Dialect
import PhpTestIndex.Proofs.Correspondence
import PhpTestIndex.Proofs.Pest.Reached
import PhpTestIndex.Proofs.Test.Tree

/-! # Which calls are reported, and under which names

The definitions of the tests and groups below the suite of a file, read depth first, stand for the
calls that the file reaches and that appear, one by one and in source order. The name of each is
put together from the labels of the groups above it in the definition tree, although the reader
takes it from the scopes that are open: reading a registration leaves the open scopes as they were
(`PhpTestIndex.Pest.define_snd`), also where a group without tests is left out.
-/

namespace PhpTestIndex.Pest

/-- A test or a group of a definition tree with the labels of the groups above it, the outermost
first. -/
structure Shown where
  groups : List String
  node : Definition

mutual

/-- The tests and groups of a tree, each before those below it; data sets are passed over. -/
def shown (groups : List String) : Definition → List Shown
  | ⟨kind, id, label, inNamespace, className, methodName, qualifiedClass, file, span, depth,
      annotations, children⟩ =>
    let below := shownAmong (if kind = .describe then groups ++ [label] else groups) children
    if kind = .dataSet then below
    else
      ⟨groups, ⟨kind, id, label, inNamespace, className, methodName, qualifiedClass, file, span,
        depth, annotations, children⟩⟩ :: below

/-- The tests and groups of some trees, one tree after the other. -/
def shownAmong (groups : List String) : List Definition → List Shown
  | [] => []
  | definition :: rest => shown groups definition ++ shownAmong groups rest

end

/-- What the groups around a test or a group put before its name. -/
def namePrefix (groups : List String) : String :=
  String.join (groups.map fun group => "`" ++ group ++ "` → ")

/-- What a call is called apart from the groups around it. -/
def Call.ownName (call : Call) : String :=
  if call.function = describeFunction then "`" ++ call.description ++ "`"
  else testLabel call.function call.description

/-- A node of a definition tree stands for a call: it stands below the groups around the call, and
it says of the test or the group what the call says. -/
structure Stands (document : Php.Document) (reached : Reached) (shown : Shown) : Prop where
  groups : shown.groups = reached.groups
  kind : shown.node.kind =
    if reached.call.function = describeFunction then .describe else .method
  name : shown.node.methodName = some (namePrefix shown.groups ++ reached.call.ownName)
  label : shown.node.label =
    if reached.call.function = describeFunction then reached.call.description
    else testLabel reached.call.function reached.call.description
  span : shown.node.span = reached.call.node.span
  annotations : shown.node.annotations = reached.call.annotations document

section Names

/-- Inside groups, a name starts with the way of descriptions and an arrow. -/
theorem namePrefix_of_ne_nil {groups : List String} (occupied : groups ≠ []) :
    namePrefix groups = groupName groups ++ separator := by
  induction groups with
  | nil => exact absurd rfl occupied
  | cons group rest ih =>
      by_cases last : rest = []
      · simp [last, namePrefix, groupName, separator, Text.join, String.append_assoc]
      · have unfolded : namePrefix (group :: rest) = "`" ++ group ++ "` → " ++ namePrefix rest := by
          simp [namePrefix]
        rw [unfolded, ih last, groupName, groupName, Text.join, Text.join, List.map_cons,
          String.intercalate_cons_of_ne_nil (by simpa using last)]
        simp [separator, String.append_assoc]

/-- A group in groups is called by its own description after theirs. -/
theorem groupName_append_singleton (groups : List String) (description : String) :
    groupName (groups ++ [description]) = namePrefix groups ++ ("`" ++ description ++ "`") := by
  by_cases outermost : groups = []
  · simp [outermost, namePrefix, groupName, Text.join]
  · rw [namePrefix_of_ne_nil outermost, groupName, groupName, Text.join, Text.join,
      List.map_append, String.intercalate_append_of_ne_nil (by simpa using outermost) (by simp)]
    rfl

/-- A test in groups is called by its own label after their descriptions. -/
theorem testName_eq (function description : String) (groups : List String) :
    testName function description groups =
      namePrefix groups ++ testLabel function description := by
  by_cases outermost : groups = []
  · simp [outermost, namePrefix, testName]
  · rw [namePrefix_of_ne_nil outermost, testName, if_neg (by simpa using outermost)]

end Names

section Shown

/-- A node is shown unless it is a data set, and what is below it is shown with one group more if it
is a group. -/
theorem shown_eq (groups : List String) (node : Definition) :
    shown groups node =
      (if node.kind = .dataSet then [] else [⟨groups, node⟩]) ++
        shownAmong (if node.kind = .describe then groups ++ [node.label] else groups)
          node.children := by
  cases node
  rw [shown]
  split <;> rfl

/-- What is shown among some nodes is shown for each of them, in order. -/
theorem shownAmong_eq_flatMap (groups : List String) (forest : List Definition) :
    shownAmong groups forest = forest.flatMap (shown groups) := by
  induction forest with
  | nil => rfl
  | cons definition rest ih => rw [shownAmong, ih, List.flatMap_cons]

theorem shownAmong_singleton (groups : List String) (node : Definition) :
    shownAmong groups [node] = shown groups node := by
  rw [shownAmong_eq_flatMap, List.flatMap_singleton]

theorem shownAmong_append (groups : List String) (first second : List Definition) :
    shownAmong groups (first ++ second) = shownAmong groups first ++ shownAmong groups second := by
  simp only [shownAmong_eq_flatMap, List.flatMap_append]

/-- The place of a node in its tree and the nodes below it aside. -/
def Shown.head (shown : Shown) : Shown :=
  ⟨shown.groups, shown.node.head⟩

/-- What a node stands for does not depend on its place in the tree and on the nodes below it. -/
theorem stands_head_iff {document : Php.Document} {reached : Reached} {shown : Shown} :
    Stands document reached shown.head ↔ Stands document reached shown :=
  ⟨fun ⟨groups, kind, name, label, span, annotations⟩ =>
      ⟨groups, kind, name, label, span, annotations⟩,
    fun ⟨groups, kind, name, label, span, annotations⟩ =>
      ⟨groups, kind, name, label, span, annotations⟩⟩

/-- Depths change nothing of what is shown, apart from the depths. -/
theorem map_head_shown_assignDepth (depth : Nat) (groups : List String) (node : Definition) :
    (shown groups (node.assignDepth depth)).map Shown.head =
      (shown groups node).map Shown.head := by
  induction node using Definition.induction_children generalizing depth groups with
  | step node ih =>
      rw [shown_eq, shown_eq, List.map_append, List.map_append, Definition.assignDepth_kind,
        Definition.assignDepth_label, Definition.assignDepth_children, shownAmong_eq_flatMap,
        shownAmong_eq_flatMap, List.flatMap_map, List.map_flatMap, List.map_flatMap]
      congr 1
      · rw [Definition.assignDepth_eq]
        split <;> rfl
      · exact List.flatMap_congr fun child member => ih child member (depth + 1) _

/-- Setting depths keeps what the tests and groups of some trees stand for. -/
theorem forall₂_stands_map_assignDepth {document : Php.Document} {reached : List Reached}
    {groups : List String} {forest : List Definition}
    (stand : List.Forall₂ (Stands document) reached (shownAmong groups forest)) (depth : Nat) :
    List.Forall₂ (Stands document) reached
      (shownAmong groups (forest.map (Definition.assignDepth depth))) := by
  have sameHeads : (shownAmong groups (forest.map (Definition.assignDepth depth))).map Shown.head =
      (shownAmong groups forest).map Shown.head := by
    rw [shownAmong_eq_flatMap, shownAmong_eq_flatMap, List.flatMap_map, List.map_flatMap,
      List.map_flatMap]
    exact List.flatMap_congr fun node _ => map_head_shown_assignDepth depth groups node
  have heads : List.Forall₂ (Stands document) reached
      ((shownAmong groups forest).map Shown.head) :=
    List.forall₂_map_right_iff.mpr (stand.imp fun _ _ => stands_head_iff.mpr)
  rw [← sameHeads, List.forall₂_map_right_iff] at heads
  exact heads.imp fun _ _ => stands_head_iff.mp

end Shown

section Scopes

mutual

/-- **Scopes are balanced.** A reader stands after a registration where it stood before, also if the
registration is a group that is left out. -/
theorem define_snd (document : Php.Document) (parent : Definition) :
    ∀ (registration : Registration) (context : Context),
      (define document parent registration context).2 = context
  | ⟨call, inner⟩, context => by
    rw [define]
    split
    · dsimp only
      -- A group is left from where its tests were read, whether there were any or not.
      split <;> rw [defineAll_snd, Context.exit_enter_describe]
    · rfl

/-- Defining tests leaves the context as it was, since each group is left again after it was
entered. -/
theorem defineAll_snd (document : Php.Document) (parent : Definition) :
    ∀ (registrations : List Registration) (context : Context),
      (defineAll document parent registrations context).2 = context
  | [], context => rfl
  | registration :: rest, context => by
    rw [defineAll]
    dsimp only
    rw [defineAll_snd document parent rest, define_snd document parent registration]

end

/-- The definitions of some registrations are those of the single ones, each read in the same
scopes. -/
theorem defineAll_fst (document : Php.Document) (parent : Definition)
    (registrations : List Registration) (context : Context) :
    (defineAll document parent registrations context).1 =
      registrations.flatMap fun registration =>
        (define document parent registration context).1.toList := by
  induction registrations with
  | nil => rfl
  | cons registration rest ih =>
      rw [defineAll]
      dsimp only
      rw [define_snd, ih, List.flatMap_cons]

end Scopes

section Definitions

variable {document : Php.Document} {parent : Definition} {call : Call} {inner : List Registration}
  {context : Context}

theorem defineAll_singleton (registration : Registration) :
    (defineAll document parent [registration] context).1 =
      (define document parent registration context).1.toList := by
  rw [defineAll_fst, List.flatMap_singleton]

theorem define_of_ne (isTest : call.function ≠ describeFunction) :
    (define document parent ⟨call, inner⟩ context).1 =
      some (testDefinition document context parent call) := by
  rw [define, if_neg isTest]

/-- A call that opens a group gives the group with what is defined inside it, and nothing if that is
empty. -/
theorem define_of_eq (isGroup : call.function = describeFunction) :
    (define document parent ⟨call, inner⟩ context).1 =
      match (defineAll document (groupHead document context parent call) inner
        (context.enter (.describe call.description))).1 with
      | [] => none
      | tests => some { groupHead document context parent call with children := tests } := by
  rw [define, if_pos isGroup]
  dsimp only
  split <;> simp_all

/-- Data sets are not shown. -/
theorem shownAmong_dataSets (groups : List String) (test : Definition) (rows : List String) :
    shownAmong groups (rows.map fun row => test.labelledDataSet (Identifier.rowLabel row)) =
      [] := by
  rw [shownAmong_eq_flatMap, List.flatMap_map, List.flatMap_eq_nil_iff]
  intro row _
  rw [shown_eq]
  rfl

/-- A test shows itself alone. -/
theorem shown_testDefinition (groups : List String) :
    shown groups (testDefinition document context parent call) =
      [⟨groups, testDefinition document context parent call⟩] := by
  rw [shown_eq]
  change [_] ++ shownAmong groups _ = _
  rw [testDefinition, shownAmong_dataSets, List.append_nil]

/-- The test stands for the call that it is made of. -/
theorem stands_testDefinition (isTest : call.function ≠ describeFunction) :
    Stands document ⟨context.describePath, call⟩
      ⟨context.describePath, testDefinition document context parent call⟩ where
  groups := rfl
  kind := (if_neg isTest).symm
  name := by
    rw [Call.ownName, if_neg isTest, ← testName_eq]
    rfl
  label := (if_neg isTest).symm
  span := rfl
  annotations := rfl

/-- A group shows itself, and then what is in it below its description. -/
theorem shown_group (groups : List String) (tests : List Definition) :
    shown groups { groupHead document context parent call with children := tests } =
      ⟨groups, { groupHead document context parent call with children := tests }⟩ ::
        shownAmong (groups ++ [call.description]) tests := by
  rw [shown_eq]
  rfl

/-- The group stands for the call that opens it. -/
theorem stands_group (isGroup : call.function = describeFunction) (tests : List Definition) :
    Stands document ⟨context.describePath, call⟩
      ⟨context.describePath,
        { groupHead document context parent call with children := tests }⟩ where
  groups := rfl
  kind := (if_pos isGroup).symm
  name := by
    rw [Call.ownName, if_pos isGroup, ← groupName_append_singleton]
    rfl
  label := (if_pos isGroup).symm
  span := rfl
  annotations := rfl

end Definitions

/-- Reading some registrations reports the calls that appear: in whatever scopes a reader stands,
the tests and groups that it makes stand for them, and it makes none only if no test is reached. -/
structure Reports (document : Php.Document) (registrations : List Registration)
    (reached : List String → List Reached) : Prop where
  stand : ∀ parent context,
    List.Forall₂ (Stands document)
      ((reached context.describePath).filter fun call => call.Appears document)
      (shownAmong context.describePath (defineAll document parent registrations context).1)
  empty : ∀ parent context,
    (defineAll document parent registrations context).1 = [] ↔
      ∀ call ∈ reached context.describePath, ¬ call.IsTest

namespace Reports

variable {document : Php.Document}

theorem nil : Reports document [] fun _ => [] where
  stand _ _ := List.Forall₂.nil
  empty _ _ := by simp [defineAll]

/-- Registrations one after the other report what each of them reaches. -/
theorem append {first second : List Registration}
    {reachedFirst reachedSecond : List String → List Reached}
    (before : Reports document first reachedFirst) (after : Reports document second reachedSecond) :
    Reports document (first ++ second) fun groups =>
      reachedFirst groups ++ reachedSecond groups where
  stand parent context := by
    rw [defineAll_fst, List.flatMap_append, List.filter_append, shownAmong_append,
      ← defineAll_fst, ← defineAll_fst]
    exact List.rel_append (before.stand parent context) (after.stand parent context)
  empty parent context := by
    rw [defineAll_fst, List.flatMap_append, List.append_eq_nil_iff, ← defineAll_fst,
      ← defineAll_fst, before.empty, after.empty, List.forall_mem_append]

/-- If the registrations of each of some nodes report what it reaches, all of them together do. -/
theorem flatMap {registrations : Php.Node → List Registration}
    {reached : List String → Php.Node → List Reached} {nodes : List Php.Node}
    (each : ∀ node ∈ nodes,
      Reports document (registrations node) fun groups => reached groups node) :
    Reports document (nodes.flatMap registrations) fun groups =>
      nodes.flatMap (reached groups) := by
  induction nodes with
  | nil => exact nil
  | cons node rest ih =>
      obtain ⟨first, others⟩ := List.forall_mem_cons.mp each
      simpa only [List.flatMap_cons] using first.append (ih others)

/-- A call that opens no group reports itself. -/
theorem test {call : Call} {inner : List Registration}
    (isTest : call.function ≠ describeFunction) :
    Reports document [⟨call, inner⟩] fun groups => [⟨groups, call⟩] where
  stand parent context := by
    have appears : Reached.Appears document ⟨context.describePath, call⟩ := .inl isTest
    have below : shownAmong context.describePath
        (defineAll document parent [⟨call, inner⟩] context).1 =
        [⟨context.describePath, testDefinition document context parent call⟩] := by
      rw [defineAll_singleton, define_of_ne isTest, Option.toList_some, shownAmong_singleton,
        shown_testDefinition]
    rw [below, List.filter_cons_of_pos (by simpa using appears)]
    exact List.Forall₂.cons (stands_testDefinition isTest) List.Forall₂.nil
  empty parent context := by
    rw [defineAll_singleton, define_of_ne isTest]
    simp [Reached.IsTest, isTest]

/-- A group is reported if its closure reaches a test. -/
theorem group {call : Call} {inner : List Registration} (isGroup : call.function = describeFunction)
    (inside : Reports document inner fun groups => reachedWithin document groups call) :
    Reports document [⟨call, inner⟩] fun groups =>
      ⟨groups, call⟩ :: reachedWithin document (groups ++ [call.description]) call where
  stand parent context := by
    have stand := inside.stand (groupHead document context parent call)
      (context.enter (.describe call.description))
    have empty := inside.empty (groupHead document context parent call)
      (context.enter (.describe call.description))
    rw [Context.describePath_enter_describe] at stand empty
    rw [defineAll_singleton, define_of_eq isGroup]
    cases tests : (defineAll document (groupHead document context parent call) inner
        (context.enter (.describe call.description))).1 with
    | nil =>
        have absent : ¬ Reached.Appears document ⟨context.describePath, call⟩ := by
          rintro (isTest | ⟨test, member, isTest⟩)
          · exact isTest isGroup
          · exact empty.mp tests test member isTest
        rw [tests] at stand
        rw [List.filter_cons_of_neg (by simpa using absent)]
        exact stand
    | cons first rest =>
        have appears : Reached.Appears document ⟨context.describePath, call⟩ := by
          by_contra absent
          refine List.cons_ne_nil first rest (tests.symm.trans (empty.mpr ?_))
          exact fun test member isTest => absent (.inr ⟨test, member, isTest⟩)
        rw [tests] at stand
        rw [List.filter_cons_of_pos (by simpa using appears), Option.toList_some,
          shownAmong_singleton, shown_group]
        exact List.Forall₂.cons (stands_group isGroup (first :: rest)) stand
  empty parent context := by
    have empty := inside.empty (groupHead document context parent call)
      (context.enter (.describe call.description))
    rw [Context.describePath_enter_describe] at empty
    rw [defineAll_singleton, define_of_eq isGroup, List.forall_mem_cons, ← empty]
    cases tests : (defineAll document (groupHead document context parent call) inner
        (context.enter (.describe call.description))).1 with
    | nil => simp [Reached.IsTest, isGroup]
    | cons first rest => simp

end Reports

mutual

/-- Reading the statements in a node reports the calls that they reach. -/
theorem reports_ofStatements (document : Php.Document) (container : Php.Node) :
    Reports document (Registration.ofStatements document container)
      fun groups => reachedAmong document groups container := by
  simp only [Registration.ofStatements_eq, reachedAmong_eq]
  refine Reports.flatMap fun statement member => ?_
  have := sizeOf_lt_of_mem_namedChildren member
  exact reports_ofStatement document statement
termination_by sizeOf container

/-- The registrations of a statement report the calls that are reached in it. -/
theorem reports_ofStatement (document : Php.Document) (statement : Php.Node) :
    Reports document (Registration.ofStatement document statement)
      fun groups => reachedIn document groups statement := by
  simp only [Registration.ofStatement_eq, reachedIn_eq]
  by_cases isExpression : statement.kind = .expressionStatement
  · simp only [isExpression, ↓reduceIte]
    cases first : statement.namedChildren.head? with
    | none => exact Reports.nil
    | some expression =>
        have := sizeOf_lt_of_mem_namedChildren (List.mem_of_head? first)
        exact reports_ofExpression document expression
  · simp only [isExpression, ↓reduceIte]
    by_cases isNamespace : statement.kind = .namespaceDefinition
    · simp only [isNamespace, ↓reduceIte]
      cases found : statement.child? .body with
      | none => exact Reports.nil
      | some body =>
          have := sizeOf_lt_of_mem_children (mem_children_of_child? found)
          exact reports_ofStatements document body
    · simp only [isNamespace, ↓reduceIte]
      exact Reports.nil
termination_by sizeOf statement

/-- Reading an expression reports the call that it is and the calls that this call reaches. -/
theorem reports_ofExpression (document : Php.Document) (expression : Php.Node) :
    Reports document (Registration.ofExpression document expression)
      fun groups => reachedFrom document groups expression := by
  simp only [Registration.ofExpression_eq, reachedFrom_eq]
  cases made : Call.ofExpression? document expression with
  | none => exact Reports.nil
  | some call =>
      by_cases isGroup : call.function = describeFunction
      · refine Reports.group isGroup ?_
        simp only [Registration.inside, reachedWithin]
        cases found : call.body? with
        | none => exact Reports.nil
        | some body =>
            have := sizeOf_lt_of_body made found
            by_cases braced : body.kind = .compoundStatement
            · simp only [braced, ↓reduceIte]
              exact reports_ofStatements document body
            · simp only [braced, ↓reduceIte]
              exact reports_ofExpression document body
      · simp only [reachedWithin_of_ne isGroup]
        exact Reports.test isGroup
termination_by sizeOf expression

end

/-- The calls that a file reaches, in source order. -/
def reachedCalls (document : Php.Document) : List Reached :=
  reachedAmong document [] document.root

/-- The suite of a file has a namespace. -/
theorem syntheticClass_namespace_ne_empty (directory root file : String) :
    (syntheticClass directory root file).1 ≠ "" := by
  unfold syntheticClass
  dsimp only
  generalize List.dropLast _ = outer
  unfold Text.join suiteNamespace
  cases outer with
  | nil => decide
  | cons segment rest =>
      rw [String.intercalate_cons_cons]
      intro empty
      simpa using congrArg String.toList empty

/-- The suite of a file of calls is a class that is named after the file. -/
theorem suiteHead_eq (directory root file : String) (document : Php.Document) :
    suiteHead directory root file document =
      Definition.ofClass (some (syntheticClass directory root file).1)
        (syntheticClass directory root file).2 file document.root.span := by
  unfold suiteHead
  rcases syntheticClass directory root file with ⟨inNamespace, className⟩
  rfl

/-- Grouping the one suite of a file puts it below a node for its namespace. -/
theorem groupByNamespace_suite {inNamespace : String} (named : inNamespace ≠ "")
    (className file : String) (span : Span) (tests : List Definition) :
    let suite := Definition.ofClass (some inNamespace) className file span
    Definition.groupByNamespace file [{ suite with children := tests }] =
      [{ Definition.ofNamespace inNamespace file span with
        children := [{ suite with
          depth := 1
          children := tests.map (Definition.assignDepth 2) }] }] := by
  have within : Identifier.present (some inNamespace) = some inNamespace := by
    simp [Identifier.present, Option.filter, named]
  simp only [Definition.groupByNamespace, List.foldl_cons, List.foldl_nil, Definition.addToRoots,
    Definition.ofClass, within, List.reverse_singleton, Definition.assignForestDepth_eq_map,
    List.map_cons, List.map_nil, Definition.assignDepth_eq, Definition.ofNamespace]

/-- What is read of a file does not depend on where the reader stood before. -/
theorem read_fst (reader : Reader) (directory : String) (document : Php.Document) (file : String) :
    (reader.read directory document file).1 =
      match (defineAll document (suiteHead directory reader.root file document)
        (Registration.ofStatements document document.root) .start).1 with
      | [] => none
      | tests => some (Definition.groupByNamespace file
          [{ suiteHead directory reader.root file document with children := tests }]) := by
  simp only [Reader.read, Context.restart]
  cases (defineAll document (suiteHead directory reader.root file document)
      (Registration.ofStatements document document.root) .start).1 with
  | nil => rfl
  | cons first rest => rfl

/-- **Exactly the tests and the groups with tests are reported.** A file has a forest exactly if it
reaches a test, wherever the reader of the file stood before. The forest is then the node of a
namespace with one suite below it, and the tests and groups below the suite, read depth first,
stand one by one and in source order for the calls that appear; each is named after the groups
above it. -/
theorem read_describes_calls (reader : Reader) (directory : String) (document : Php.Document)
    (file : String) :
    match (reader.read directory document file).1 with
    | none => ∀ call ∈ reachedCalls document, ¬ call.IsTest
    | some forest =>
      (∃ call ∈ reachedCalls document, call.IsTest) ∧
      ∃ above suite, forest = [above] ∧ above.kind = .namespaceSuite ∧ above.children = [suite] ∧
        suite.kind = .classSuite ∧
        List.Forall₂ (Stands document)
          ((reachedCalls document).filter fun call => call.Appears document)
          (shownAmong [] suite.children) := by
  obtain ⟨stand, empty⟩ := reports_ofStatements document document.root
  have stand := stand (suiteHead directory reader.root file document) .start
  have empty := empty (suiteHead directory reader.root file document) .start
  rw [Context.describePath_start] at stand empty
  rw [read_fst]
  cases tests : (defineAll document (suiteHead directory reader.root file document)
      (Registration.ofStatements document document.root) .start).1 with
  | nil => exact empty.mp tests
  | cons first rest =>
      rw [tests] at stand
      refine ⟨?_, ?_⟩
      · by_contra absent
        refine List.cons_ne_nil first rest (tests.symm.trans (empty.mpr ?_))
        exact fun call member isTest => absent ⟨call, member, isTest⟩
      · have named := syntheticClass_namespace_ne_empty directory reader.root file
        rw [suiteHead_eq, groupByNamespace_suite named]
        refine ⟨_, _, rfl, rfl, rfl, rfl, ?_⟩
        exact forall₂_stands_map_assignDepth stand 2

end PhpTestIndex.Pest
