import PhpTestIndex.Proofs.Pest.Selection
import PhpTestIndex.Proofs.Php.Documents

/-! # Fluent chains

Calls and other members are hung on the call that registers a test, one step after the other
(`PhpTestIndex.Pest.Fluent`). A statement of such an expression reports exactly one test if every
step is a method call, and the marks of the test are what these calls contribute, in order. It
reports nothing if some step reaches a member without calling it, as `->not` does
(`PhpTestIndex.Pest.reports_one_test_iff_calls`).

What a chain contributes is said call name by call name (`PhpTestIndex.Pest.MarkedBy`); one more
call adds to it what `Call.annotate` adds to the annotations.
-/

namespace PhpTestIndex.Pest

/-- A step of a fluent chain. -/
inductive Step
  /-- A method that is called. -/
  | call (link : Link)
  /-- A member that is reached by a property or by `?->`. -/
  | access

namespace Step

def link? : Step → Option Link
  | call link => some link
  | access => none

/-- The method that is called. -/
def name? (step : Step) : Option String :=
  step.link?.map Link.name

/-- A chain goes through a property if and only if one of its steps calls no method. -/
theorem access_mem_iff (steps : List Step) : access ∈ steps ↔ none ∈ steps.map name? := by
  constructor
  · intro member
    exact List.mem_map.mpr ⟨access, member, rfl⟩
  · intro member
    obtain ⟨step, among, unnamed⟩ := List.mem_map.mp member
    cases step with
    | call link => cases unnamed
    | access => exact among

end Step

section Syntax

variable (document : Php.Document)

/-- The values that a call is given. -/
def givenValues (call : Php.Node) : List Php.Node :=
  ((call.child? .arguments).map Php.argumentValues).getD []

/-- Some sign of a node is an arrow. -/
def hasArrow (node : Php.Node) : Bool :=
  (node.childrenOf .token).any fun sign =>
    document.text sign = "->".toList || document.text sign = "?->".toList

/-- What the last step of an expression is hung on, and the step. -/
def lastStep? (expression : Php.Node) : Option (Php.Node × Step) :=
  if expression.kind = .memberCall then
    (expression.child? .target).bind fun target => (expression.child? .name).map fun name =>
      (target, .call ⟨document.string name, givenValues expression⟩)
  else if expression.kind = .expression && hasArrow document expression then
    expression.children.head?.map fun target => (target, .access)
  else none

/-- An expression is a base with some steps hung on it, the first one closest to it. -/
inductive Fluent (base : Php.Node) : Php.Node → List Step → Prop
  | base : Fluent base base []
  | step {target expression : Php.Node} {steps : List Step} {last : Step}
      (hung : Fluent base target steps)
      (found : lastStep? document expression = some (target, last)) :
      Fluent base expression (steps ++ [last])

/-- What a step is hung on is smaller than the whole expression, so steps can be taken off one by
one. -/
theorem sizeOf_lt_of_lastStep? {expression target : Php.Node} {last : Step}
    (found : lastStep? document expression = some (target, last)) :
    sizeOf target < sizeOf expression := by
  unfold lastStep? at found
  split at found
  · obtain ⟨target, onTarget, found⟩ := Option.bind_eq_some_iff.mp found
    obtain ⟨name, _, found⟩ := Option.map_eq_some_iff.mp found
    cases found
    exact sizeOf_lt_of_mem_children (mem_children_of_child? onTarget)
  · split at found
    · obtain ⟨target, first, found⟩ := Option.map_eq_some_iff.mp found
      cases found
      exact sizeOf_lt_of_mem_children (List.mem_of_head? first)
    · cases found

/-- Take the steps off an expression: the base, and the steps in order. -/
def unwind (expression : Php.Node) : Php.Node × List Step :=
  match found : lastStep? document expression with
  | none => (expression, [])
  | some (target, last) =>
    have := sizeOf_lt_of_lastStep? document found
    ((unwind target).1, (unwind target).2 ++ [last])
termination_by sizeOf expression

/-- Taking the steps off an expression gives a base and the steps that lead from it back to the
expression. -/
theorem fluent_unwind (expression : Php.Node) :
    Fluent document (unwind document expression).1 expression
      (unwind document expression).2 := by
  fun_induction unwind document expression with
  | case1 expression _ => exact .base
  | case2 expression target last found _ hung => exact .step hung found

/-- A node calls a function with a string as the first value. -/
def Registers (base : Php.Node) (function description : String) : Prop :=
  base.kind = .functionCall ∧
    (base.child? .callee).map (fun callee =>
      String.ofList (Php.shortName (document.text callee))) = some function ∧
    (base.child? .arguments).isSome ∧
    (givenValues base).head?.bind document.stringValue? = some description

instance (base : Php.Node) (function description : String) :
    Decidable (Registers document base function description) :=
  inferInstanceAs (Decidable (_ ∧ _ ∧ _ ∧ _))

/-- The second value of a call is a function without a name. -/
def hasClosure (base : Php.Node) : Bool :=
  ((givenValues base)[1]?.filter isClosure).isSome

end Syntax

/-! ### What a chain contributes -/

/-- The values that the calls of one name are given. -/
def handedTo (name : String) (links : List Link) : List Php.Node :=
  (links.filter fun link => link.name = name).flatMap Link.values

/-- What the calls of one name are given in a chain is given in its parts. -/
theorem handedTo_append (name : String) (first second : List Link) :
    handedTo name (first ++ second) = handedTo name first ++ handedTo name second := by
  rw [handedTo, List.filter_append, List.flatMap_append]
  rfl

/-- The rows of a value that is an array. -/
def rowsOf (document : Php.Document) (value : Php.Node) : List String :=
  if value.kind = .arrayLiteral then Call.rows document value else []

/-- The data set that a value names. -/
def namedDataSet? (document : Php.Document) (value : Php.Node) : Option String :=
  if value.kind = .arrayLiteral then none else document.stringValue? value

/-- The marks of a test are what the calls of its chain contribute, in order; the test may be still
to be written apart from its chain. -/
structure MarkedBy (document : Php.Document) (isTodo : Bool) (links : List Link)
    (annotations : Annotations) : Prop where
  testWith : annotations.testWith = (handedTo "with" links).flatMap (rowsOf document)
  dataProvider :
    annotations.dataProvider = (handedTo "with" links).filterMap (namedDataSet? document)
  group : annotations.group = (handedTo "group" links).filterMap document.stringValue?
  depends : annotations.depends = (handedTo "depends" links).filterMap document.stringValue?
  testdox : annotations.testdox = []
  skipped : annotations.skipped = true ↔ ∃ link ∈ links, link.name = "skip"
  incomplete :
    annotations.incomplete = true ↔ isTodo = true ∨ ∃ link ∈ links, link.name = "todo"

section Annotate

variable (document : Php.Document) (annotations : Annotations) (link : Link)

/-- A call of `with` adds the rows of the arrays that it is given. -/
theorem testWith_annotate :
    (Call.annotate document annotations link).testWith =
      annotations.testWith ++ (handedTo "with" [link]).flatMap (rowsOf document) := by
  unfold Call.annotate
  split
  case h_1 called =>
    simp only [handedTo, called, decide_true, List.filter_cons_of_pos, List.filter_nil,
      List.flatMap_singleton]
    rfl
  all_goals simp_all [handedTo]

/-- A call of `with` adds the named data sets that it is given. -/
theorem dataProvider_annotate :
    (Call.annotate document annotations link).dataProvider =
      annotations.dataProvider ++
        (handedTo "with" [link]).filterMap (namedDataSet? document) := by
  unfold Call.annotate
  split
  case h_1 called =>
    simp only [handedTo, called, decide_true, List.filter_cons_of_pos, List.filter_nil,
      List.flatMap_singleton]
    rfl
  all_goals simp_all [handedTo]

/-- A call of `group` adds the groups that it names. -/
theorem group_annotate :
    (Call.annotate document annotations link).group =
      annotations.group ++ (handedTo "group" [link]).filterMap document.stringValue? := by
  unfold Call.annotate
  split <;> simp_all [handedTo]

/-- A call of `depends` adds the tests that it names. -/
theorem depends_annotate :
    (Call.annotate document annotations link).depends =
      annotations.depends ++ (handedTo "depends" [link]).filterMap document.stringValue? := by
  unfold Call.annotate
  split <;> simp_all [handedTo]

/-- No call of a chain describes the test otherwise. -/
theorem testdox_annotate :
    (Call.annotate document annotations link).testdox = annotations.testdox := by
  unfold Call.annotate
  split <;> rfl

/-- A call of `skip` skips the test, and no call takes that back. -/
theorem skipped_annotate :
    (Call.annotate document annotations link).skipped = true ↔
      annotations.skipped = true ∨ link.name = "skip" := by
  unfold Call.annotate
  split <;> simp_all

/-- A call of `todo` says that the test is still to be written, and no call takes that back. -/
theorem incomplete_annotate :
    (Call.annotate document annotations link).incomplete = true ↔
      annotations.incomplete = true ∨ link.name = "todo" := by
  unfold Call.annotate
  split <;> simp_all

end Annotate

namespace MarkedBy

variable {document : Php.Document} {isTodo : Bool} {links : List Link} {annotations : Annotations}

theorem nil : MarkedBy document isTodo [] { Annotations.none with incomplete := isTodo } := by
  constructor <;> simp [handedTo, Annotations.none]

/-- One more call at the end of the chain. -/
theorem annotate (marked : MarkedBy document isTodo links annotations) (link : Link) :
    MarkedBy document isTodo (links ++ [link]) (Call.annotate document annotations link) where
  testWith := by
    rw [handedTo_append, List.flatMap_append, ← marked.testWith]
    exact testWith_annotate document annotations link
  dataProvider := by
    rw [handedTo_append, List.filterMap_append, ← marked.dataProvider]
    exact dataProvider_annotate document annotations link
  group := by
    rw [handedTo_append, List.filterMap_append, ← marked.group]
    exact group_annotate document annotations link
  depends := by
    rw [handedTo_append, List.filterMap_append, ← marked.depends]
    exact depends_annotate document annotations link
  testdox := (testdox_annotate document annotations link).trans marked.testdox
  skipped := by
    rw [skipped_annotate, marked.skipped]
    simp only [List.mem_append, List.mem_singleton, or_and_right, exists_or, exists_eq_left]
  incomplete := by
    rw [incomplete_annotate, marked.incomplete, or_assoc]
    simp only [List.mem_append, List.mem_singleton, or_and_right, exists_or, exists_eq_left]

/-- The calls of a whole chain, the first one first. -/
theorem foldl (marked : MarkedBy document isTodo links annotations) (later : List Link) :
    MarkedBy document isTodo (links ++ later)
      (later.foldl (Call.annotate document) annotations) := by
  induction later generalizing links annotations with
  | nil => simpa using marked
  | cons link rest ih => simpa using ih (marked.annotate link)

end MarkedBy

/-! ### What a chain is taken apart into -/

section Unchain

variable {document : Php.Document} {base expression : Php.Node} {steps : List Step}

/-- An expression that is no call of a method is the base, whatever was taken off it. -/
theorem unchain_of_ne (other : expression.kind ≠ .memberCall) (chain : List Link) :
    unchain document expression chain = some (expression, chain) := by
  rw [unchain, if_neg other]

/-- Unchaining takes off the last call and puts it in front of those that were taken off before. -/
theorem unchain_of_call {target : Php.Node} {link : Link}
    (found : lastStep? document expression = some (target, .call link)) (chain : List Link) :
    unchain document expression chain = unchain document target (link :: chain) := by
  unfold lastStep? at found
  split at found
  · rename_i isCall
    obtain ⟨target, onTarget, found⟩ := Option.bind_eq_some_iff.mp found
    obtain ⟨name, named, found⟩ := Option.map_eq_some_iff.mp found
    cases found
    rw [unchain, if_pos isCall]
    split
    · rename_i name' target' named' onTarget'
      rw [named] at named'
      rw [onTarget] at onTarget'
      cases named'
      cases onTarget'
      rfl
    · rename_i missing
      exact absurd onTarget (missing name target named)
  · split at found
    · obtain ⟨target, _, found⟩ := Option.map_eq_some_iff.mp found
      cases found
    · cases found

/-- What ends in a property is an expression of its own and no call of a method. -/
theorem kind_of_access {target : Php.Node}
    (found : lastStep? document expression = some (target, .access)) :
    expression.kind = .expression := by
  unfold lastStep? at found
  split at found
  · obtain ⟨target, _, found⟩ := Option.bind_eq_some_iff.mp found
    obtain ⟨name, _, found⟩ := Option.map_eq_some_iff.mp found
    cases found
  · split at found
    · rename_i reaches
      exact of_decide_eq_true (Bool.and_eq_true_iff.mp reaches).1
    · cases found

/-- A chain of calls is taken off down to the base. -/
theorem unchain_of_calls (isFunction : base.kind = .functionCall)
    (fluent : Fluent document base expression steps) (calls : .access ∉ steps)
    (chain : List Link) :
    unchain document expression chain = some (base, steps.filterMap Step.link? ++ chain) := by
  induction fluent generalizing chain with
  | base => exact unchain_of_ne (by simp [isFunction]) chain
  | @step target expression steps last hung found ih =>
      rw [List.mem_append, not_or] at calls
      cases last with
      | access => exact absurd List.mem_cons_self calls.2
      | call link =>
          rw [unchain_of_call found, ih calls.1]
          simp [Step.link?]

/-- A chain is taken off down to the last step that is no call. -/
theorem unchain_of_access (fluent : Fluent document base expression steps)
    (reaches : .access ∈ steps) (chain : List Link) :
    ∃ stop links, unchain document expression chain = some (stop, links) ∧
      stop.kind = .expression := by
  induction fluent generalizing chain with
  | base => cases reaches
  | @step target expression steps last hung found ih =>
      cases last with
      | access =>
          have kind := kind_of_access found
          exact ⟨expression, chain, unchain_of_ne (by simp [kind]) chain, kind⟩
      | call link =>
          rw [unchain_of_call found]
          apply ih
          simpa using reaches

end Unchain

/-! ### What is reported -/

section Reports

variable {document : Php.Document} {base expression statement : Php.Node} {steps : List Step}
  {function description : String}

/-- A chain of nothing but calls on a call that registers is that registration, with all links in
their order. -/
theorem ofExpression?_of_calls (registers : Registers document base function description)
    (known : function ∈ functions) (fluent : Fluent document base expression steps)
    (calls : .access ∉ steps) :
    ∃ closure, Call.ofExpression? document expression =
        some ⟨expression, function, description, closure, steps.filterMap Step.link?⟩ ∧
      closure.isSome = hasClosure base := by
  obtain ⟨isFunction, called, given, described⟩ := registers
  obtain ⟨callee, isCallee, named⟩ := Option.map_eq_some_iff.mp called
  obtain ⟨arguments, areArguments⟩ := Option.isSome_iff_exists.mp given
  refine ⟨(givenValues base)[1]?.filter isClosure, ?_, rfl⟩
  have values : Php.argumentValues arguments = givenValues base := by
    rw [givenValues, areArguments]
    rfl
  unfold Call.ofExpression?
  rw [unchain_of_calls isFunction fluent calls, List.append_nil]
  simp only [isFunction, isCallee, areArguments, named, values, described, if_true,
    List.contains_iff_mem.mpr known, Option.map_some]

/-- A property anywhere in a chain hides the registration below it. -/
theorem ofExpression?_of_access (fluent : Fluent document base expression steps)
    (reaches : .access ∈ steps) : Call.ofExpression? document expression = none := by
  obtain ⟨stop, links, taken, kind⟩ := unchain_of_access fluent reaches []
  unfold Call.ofExpression?
  rw [taken]
  simp [kind]

/-- A statement registers what its expression registers. -/
theorem ofStatement_of_expression (stands : statement.kind = .expressionStatement)
    (first : statement.namedChildren.head? = some expression) :
    Registration.ofStatement document statement =
      Registration.ofExpression document expression := by
  rw [Registration.ofStatement_eq, if_pos stands, first]
  rfl

/-- A node is the test that a call registers: it says how the test is called and where it stands,
and its marks are what the chain contributes. A test without a closure is still to be written,
unless it is about the architecture. -/
structure ReportsTest (document : Php.Document) (context : Context) (base expression : Php.Node)
    (function description : String) (links : List Link) (test : Definition) : Prop where
  kind : test.kind = .method
  label : test.label = testLabel function description
  methodName : test.methodName = some (testName function description context.describePath)
  span : test.span = expression.span
  annotations :
    MarkedBy document (!hasClosure base && (function = "test" || function = "it")) links
      test.annotations
  dataSets :
    test.children.map Definition.label = test.annotations.testWith.map Identifier.rowLabel

/-- The definition that is made for a test says of the call what has to be said. -/
theorem reportsTest_testDefinition (context : Context) (parent : Definition) {call : Call}
    (closed : call.closure.isSome = hasClosure base) :
    ReportsTest document context base call.node call.function call.description call.chain
      (testDefinition document context parent call) where
  kind := rfl
  label := rfl
  methodName := rfl
  span := rfl
  annotations := by
    rw [← closed, Option.not_isSome]
    exact MarkedBy.nil.foldl call.chain
  dataSets := by
    unfold testDefinition
    rw [List.map_map]
    rfl

/-- A chain of calls on the registration of a test gives exactly one test, with the marks of the
chain. -/
theorem exists_test_of_calls (registers : Registers document base function description)
    (isTest : function ∈ ["test", "it", "arch"])
    (fluent : Fluent document base expression steps) (calls : .access ∉ steps)
    (parent : Definition) (context : Context) :
    ∃ test, (defineAll document parent (Registration.ofExpression document expression)
        context).1 = [test] ∧
      ReportsTest document context base expression function description
        (steps.filterMap Step.link?) test := by
  have known : function ∈ functions := by
    simp only [functions, List.mem_cons, List.not_mem_nil, or_false] at isTest ⊢
    tauto
  have noGroup : function ≠ describeFunction := by
    rintro rfl
    revert isTest
    decide
  obtain ⟨closure, made, closed⟩ := ofExpression?_of_calls registers known fluent calls
  let call : Call := ⟨expression, function, description, closure, steps.filterMap Step.link?⟩
  have report := @reportsTest_testDefinition document base context parent call closed
  refine ⟨testDefinition document context parent call, ?_, report⟩
  rw [Registration.ofExpression_eq, made]
  rw [defineAll_singleton, define_of_ne noGroup]
  rfl

/-- A chain through a property gives no test at all. -/
theorem defineAll_eq_nil_of_access (fluent : Fluent document base expression steps)
    (reaches : .access ∈ steps) (parent : Definition) (context : Context) :
    (defineAll document parent (Registration.ofExpression document expression) context).1 =
      [] := by
  rw [Registration.ofExpression_eq, ofExpression?_of_access fluent reaches]
  rfl

/-- **Fluent chains.** A statement that hangs a chain on the registration of a test reports exactly
one test, with the description and with what the calls of the chain contribute in order, if the
chain has only method calls, whatever they are given. A step that is no method call hides it. -/
theorem reports_one_test_iff_calls (stands : statement.kind = .expressionStatement)
    (first : statement.namedChildren.head? = some expression)
    (registers : Registers document base function description)
    (isTest : function ∈ ["test", "it", "arch"])
    (fluent : Fluent document base expression steps) (parent : Definition) (context : Context) :
    (.access ∉ steps →
      ∃ test, (defineAll document parent (Registration.ofStatement document statement)
          context).1 = [test] ∧
        ReportsTest document context base expression function description
          (steps.filterMap Step.link?) test) ∧
    (.access ∈ steps →
      (defineAll document parent (Registration.ofStatement document statement)
        context).1 = []) := by
  rw [ofStatement_of_expression stands first]
  constructor
  · intro calls
    exact exists_test_of_calls registers isTest fluent calls parent context
  · intro reaches
    exact defineAll_eq_nil_of_access fluent reaches parent context

end Reports

/-- A test with a chain of calls. -/
def calledOnly : List Char :=
  "<?php it('adds', function () \x7b\x7d)->with([[1, 2]])->group('math')->skip();".toList

/-- A test of the architecture with a property in its chain. -/
def reachedThrough : List Char :=
  "<?php arch('app')->expect('App')->not->toUse('dd');".toList

/-- A test whose chain names a group and skips it is reported as such. -/
theorem calledOnly_reports_one :
    ∃ document, Php.Document.read calledOnly = .ok document ∧
      ∃ statement ∈ document.root.namedChildren, ∃ test,
        (defineAll document default (Registration.ofStatement document statement)
          .start).1 = [test] ∧
        test.kind = .method ∧ test.label = "it adds" ∧ test.annotations.group = ["math"] ∧
        test.annotations.skipped = true := by
  obtain ⟨document, parsed, statement, member, stands, expression, first, registers, names,
      groups, skips⟩ :=
    @Php.exists_document_of_check calledOnly
      (fun document => ∃ statement ∈ document.root.namedChildren,
        statement.kind = .expressionStatement ∧ ∃ expression ∈ statement.namedChildren.head?,
          let (base, steps) := unwind document expression
          Registers document base "it" "adds" ∧
          steps.map Step.name? = [some "with", some "group", some "skip"] ∧
          (handedTo "group" (steps.filterMap Step.link?)).filterMap document.stringValue? =
            ["math"] ∧
          ∃ link ∈ steps.filterMap Step.link?, link.name = "skip")
      _ (by decide +kernel)
  have calls : .access ∉ (unwind document expression).2 := by
    rw [Step.access_mem_iff, names]
    decide
  obtain ⟨test, reported, isReported⟩ :=
    (reports_one_test_iff_calls stands first registers (by decide)
      (fluent_unwind document expression) default .start).1 calls
  exact ⟨document, parsed, statement, member, test, reported, isReported.kind, isReported.label,
    isReported.annotations.group.trans groups, isReported.annotations.skipped.mpr skips⟩

/-- The property between two calls hides the test. -/
theorem reachedThrough_reports_none :
    ∃ document, Php.Document.read reachedThrough = .ok document ∧
      ∃ statement ∈ document.root.namedChildren, statement.kind = .expressionStatement ∧
        ∃ expression ∈ statement.namedChildren.head?, ∃ base steps,
          Registers document base "arch" "app" ∧ Fluent document base expression steps ∧
          steps.map Step.name? = [some "expect", none, some "toUse"] ∧
          ∀ parent context, (defineAll document parent
            (Registration.ofStatement document statement) context).1 = [] := by
  obtain ⟨document, parsed, statement, member, stands, expression, first, registers, names⟩ :=
    @Php.exists_document_of_check reachedThrough
      (fun document => ∃ statement ∈ document.root.namedChildren,
        statement.kind = .expressionStatement ∧ ∃ expression ∈ statement.namedChildren.head?,
          let (base, steps) := unwind document expression
          Registers document base "arch" "app" ∧
          steps.map Step.name? = [some "expect", none, some "toUse"])
      _ (by decide +kernel)
  refine ⟨document, parsed, statement, member, stands, expression, first, _, _, registers,
    fluent_unwind document expression, names, ?_⟩
  intro parent context
  rw [ofStatement_of_expression stands first]
  apply defineAll_eq_nil_of_access (fluent_unwind document expression)
  rw [Step.access_mem_iff, names]
  decide

end PhpTestIndex.Pest
