import PhpTestIndex.Proofs.Pest.Inside
import PhpTestIndex.Proofs.Pest.Selection
import PhpTestIndex.Proofs.Test.Spans

/-! # Where tests registered by calls stand

A test stands where the whole expression stands that registers it, with all calls chained to it, and
a group goes around what its closure registers, because the closure is an argument of a call further
down in the same expression (`PhpTestIndex.Pest.inside_of_body?`). So the spans of the forest of a
file nest (`PhpTestIndex.Pest.exists_laidOut_of_read`).
-/

namespace PhpTestIndex.Pest

section Expressions

variable {document : Php.Document} {expression : Php.Node}

/-- A call stands where its whole chain stands. -/
theorem node_of_ofExpression? {call : Call}
    (made : Call.ofExpression? document expression = some call) : call.node = expression := by
  unfold Call.ofExpression? at made
  split at made
  · cases made
  · split at made
    · split at made
      · dsimp only at made
        split at made
        · obtain ⟨description, _, rfl⟩ := Option.map_eq_some_iff.mp made
          rfl
        · cases made
      · cases made
    · cases made

/-- An expression that registers is not empty, because the name of a function stands in it. -/
theorem lt_of_ofExpression? {call : Call} (ordered : expression.Ordered)
    (made : Call.ofExpression? document expression = some call) :
    expression.start.offset < expression.stop.offset := by
  unfold Call.ofExpression? at made
  split at made
  · cases made
  · rename_i base chain isBase
    split at made
    · split at made
      · rename_i callee arguments isCallee _
        dsimp only at made
        split at made
        · rename_i registers
          have occupied : callee.text document.code ≠ [] := by
            intro nothing
            rw [Php.Document.text, nothing] at registers
            revert registers
            decide
          have inBase := (inside_of_unchain .root (by simp) isBase).1
          obtain ⟨after, _, before⟩ := (inBase.child? isCallee).within ordered
          exact after.trans_lt ((Php.lt_of_text_ne_nil occupied).trans_le before)
        · cases made
      · cases made
    · cases made

end Expressions

/-- In whatever scopes a reader stands, what it makes of some registrations stands between two
offsets. -/
def LaysOut (document : Php.Document) (low high : Nat) (registrations : List Registration) : Prop :=
  ∀ parent context,
    Definition.LaidOut low high (defineAll document parent registrations context).1

namespace LaysOut

variable {document : Php.Document} {low high : Nat} {call : Call}

theorem nil (forward : low ≤ high) : LaysOut document low high [] := fun _ _ => .nil forward

/-- A test takes the room of its call, and its data sets take the same. -/
theorem test {inner : List Registration} (isTest : call.function ≠ describeFunction)
    (forward : call.node.start.offset ≤ call.node.stop.offset) :
    LaysOut document call.node.start.offset call.node.stop.offset [⟨call, inner⟩] := by
  intro parent context
  rw [defineAll_singleton, define_of_ne isTest]
  refine .test rfl rfl rfl forward ?_
  exact List.forall_mem_map.mpr fun row _ => ⟨rfl, rfl, rfl⟩

/-- A group goes around its tests. -/
theorem group {inner : List Registration} (isGroup : call.function = describeFunction)
    (inside : LaysOut document call.node.start.offset call.node.stop.offset inner) :
    LaysOut document call.node.start.offset call.node.stop.offset [⟨call, inner⟩] := by
  intro parent context
  have tests := inside (groupHead document context parent call)
    (context.enter (.describe call.description))
  rw [defineAll_singleton, define_of_eq isGroup]
  split
  · exact .nil tests.le
  · exact .around (.inr rfl) rfl rfl tests

theorem mono {low' high' : Nat} {registrations : List Registration}
    (laysOut : LaysOut document low high registrations) (below : low' ≤ low)
    (above : high ≤ high') : LaysOut document low' high' registrations := fun parent context =>
  (laysOut parent context).mono below above

/-- Registrations of nodes in order are laid out in order. -/
theorem flatMap {registrations : Php.Node → List Registration} {nodes : List Php.Node}
    (inOrder : Php.InOrder low nodes high)
    (each : ∀ node ∈ nodes, node.Ordered →
      LaysOut document node.start.offset node.stop.offset (registrations node)) :
    LaysOut document low high (nodes.flatMap registrations) := by
  intro parent context
  have oneByOne : (defineAll document parent (nodes.flatMap registrations) context).1 =
      nodes.flatMap fun node => (defineAll document parent (registrations node) context).1 := by
    simp only [defineAll_fst, List.flatMap_assoc]
  rw [oneByOne]
  have placed : Php.InOrder low (nodes.map id) high := by rwa [List.map_id]
  exact .flatMap placed fun node among ordered => each node among ordered parent context

end LaysOut

mutual

/-- What is made of the statements in a node stands inside the node. -/
theorem laysOut_ofStatements (document : Php.Document) (container : Php.Node)
    (ordered : container.Ordered) :
    LaysOut document container.start.offset container.stop.offset
      (Registration.ofStatements document container) := by
  rw [Registration.ofStatements_eq]
  refine .flatMap (ordered.inside.sublist List.filter_sublist) fun statement member inside => ?_
  have := sizeOf_lt_of_mem_namedChildren member
  exact laysOut_ofStatement document statement inside
termination_by sizeOf container

/-- What a statement registers is laid out within the statement. -/
theorem laysOut_ofStatement (document : Php.Document) (statement : Php.Node)
    (ordered : statement.Ordered) :
    LaysOut document statement.start.offset statement.stop.offset
      (Registration.ofStatement document statement) := by
  rw [Registration.ofStatement_eq]
  by_cases isExpression : statement.kind = .expressionStatement
  · rw [if_pos isExpression]
    cases first : statement.namedChildren.head? with
    | none => exact .nil ordered.forward
    | some expression =>
        have := sizeOf_lt_of_mem_namedChildren (List.mem_of_head? first)
        have among := (List.mem_filter.mp (List.mem_of_head? first)).1
        obtain ⟨after, inside, before⟩ := ordered.inside.bounds among
        exact (laysOut_ofExpression document expression inside).mono after before
  · rw [if_neg isExpression]
    by_cases isNamespace : statement.kind = .namespaceDefinition
    · rw [if_pos isNamespace]
      cases found : statement.child? .body with
      | none => exact .nil ordered.forward
      | some body =>
          have := sizeOf_lt_of_mem_children (mem_children_of_child? found)
          obtain ⟨after, inside, before⟩ :=
            ordered.inside.bounds (mem_children_of_child? found)
          exact (laysOut_ofStatements document body inside).mono after before
    · rw [if_neg isNamespace]
      exact .nil ordered.forward
termination_by sizeOf statement

/-- What is made of an expression stands inside it. -/
theorem laysOut_ofExpression (document : Php.Document) (expression : Php.Node)
    (ordered : expression.Ordered) :
    LaysOut document expression.start.offset expression.stop.offset
      (Registration.ofExpression document expression) := by
  rw [Registration.ofExpression_eq]
  cases made : Call.ofExpression? document expression with
  | none => exact .nil ordered.forward
  | some call =>
      have isExpression := node_of_ofExpression? made
      rw [← isExpression]
      by_cases isGroup : call.function = describeFunction
      · refine .group isGroup ?_
        rw [isExpression, Registration.inside]
        cases found : call.body? with
        | none => exact .nil ordered.forward
        | some body =>
            have := sizeOf_lt_of_body made found
            -- The body belongs to an argument of a call at the bottom of the chain.
            have isOf := isOf_of_ofExpression? .root made
            obtain ⟨after, inside, before⟩ := (inside_of_body? isOf found).within ordered
            dsimp only
            by_cases braced : body.kind = .compoundStatement
            · rw [if_pos braced]
              exact (laysOut_ofStatements document body inside).mono after before
            · rw [if_neg braced]
              exact (laysOut_ofExpression document body inside).mono after before
      · refine .test isGroup ?_
        rw [isExpression]
        exact ordered.forward
termination_by sizeOf expression

end

/-- A forest is one suite, which is laid out as the file is. -/
theorem exists_laidOut_of_read {reader : Reader} {directory file : String}
    {document : Php.Document} {forest : List Definition} (ordered : document.root.Ordered)
    (found : (reader.read directory document file).1 = some forest) :
    ∃ suites, forest = Definition.groupByNamespace file suites ∧
      (∀ suite ∈ suites, suite.kind = .classSuite) ∧
      Definition.LaidOut document.root.start.offset document.root.stop.offset suites := by
  have tests := laysOut_ofStatements document document.root ordered
    (suiteHead directory reader.root file document) .start
  rw [read_fst] at found
  split at found
  · cases found
  · obtain rfl := Option.some.inj found
    have suite : Definition.LaidOut document.root.start.offset document.root.stop.offset
        [{ suiteHead directory reader.root file document with
          children := (defineAll document (suiteHead directory reader.root file document)
            (Registration.ofStatements document document.root) .start).1 }] :=
      .around (.inl rfl) rfl rfl tests
    exact ⟨_, rfl, List.forall_mem_singleton.mpr rfl, suite⟩

/-- The root of a forest stands where the whole tree does, which is not empty. -/
theorem exists_root_of_read {reader : Reader} {directory file : String} {document : Php.Document}
    {forest : List Definition} (ordered : document.root.Ordered)
    (found : (reader.read directory document file).1 = some forest) :
    (∃ node ∈ Definition.forestNodes forest, node.span = document.root.span) ∧
      document.root.start.offset < document.root.stop.offset := by
  rw [read_fst] at found
  cases tests : (defineAll document (suiteHead directory reader.root file document)
      (Registration.ofStatements document document.root) .start).1 with
  | nil =>
      rw [tests] at found
      cases found
  | cons first rest =>
      rw [tests] at found
      obtain rfl := Option.some.inj found
      constructor
      · have named := syntheticClass_namespace_ne_empty directory reader.root file
        rw [suiteHead_eq, groupByNamespace_suite named, Definition.forestNodes_cons,
          Definition.nodes_eq]
        exact ⟨_, List.mem_cons_self, rfl⟩
      · have registers : Registration.ofStatements document document.root ≠ [] := by
          intro nothing
          rw [nothing, defineAll] at tests
          cases tests
        obtain ⟨registration, member⟩ := List.exists_mem_of_ne_nil _ registers
        obtain ⟨expression, call, inTree, made, _⟩ := isMadeIn_ofStatements document.root member
        obtain ⟨after, inOrder, before⟩ := inTree.within ordered
        exact after.trans_lt ((lt_of_ofExpression? inOrder made).trans_le before)

end PhpTestIndex.Pest
