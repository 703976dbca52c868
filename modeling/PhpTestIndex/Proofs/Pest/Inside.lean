import PhpTestIndex.Proofs.Pest.Reached
import PhpTestIndex.Proofs.Php.Inside

/-! # Where the nodes of a registration stand

The description of a call, the values of its chain and its closure stand in the expression that the
call is made of, however long the chain is (`PhpTestIndex.Pest.isOf_of_ofExpression?`), and what is
registered in a closure stands in the closure. So everything that the registrations of a node are
read off stands in the node (`PhpTestIndex.Pest.isOf_ofStatements`).
-/

namespace PhpTestIndex.Pest

/-- What a call is read off stands in a tree. -/
structure Call.IsOf (document : Php.Document) (root : Php.Node) (call : Call) : Prop where
  known : call.function ∈ functions
  description : ∃ value, root.Inside value ∧ document.stringValue? value = some call.description
  chain : ∀ link ∈ call.chain, ∀ value ∈ link.values, root.Inside value
  closure : ∀ closure ∈ call.closure, root.Inside closure

/-- What a registration and the registrations inside it are read off stands in a tree. -/
inductive Registration.IsOf (document : Php.Document) (root : Php.Node) : Registration → Prop
  | mk {call : Call} {inner : List Registration} (ofCall : call.IsOf document root)
      (ofInner : ∀ registration ∈ inner, Registration.IsOf document root registration) :
      Registration.IsOf document root ⟨call, inner⟩

section Syntax

variable {document : Php.Document} {root expression : Php.Node}

/-- A chain that is taken off stands where it was. -/
theorem inside_of_unchain {base : Php.Node} {chain links : List Link}
    (inside : root.Inside expression)
    (inChain : ∀ link ∈ chain, ∀ value ∈ link.values, root.Inside value)
    (taken : unchain document expression chain = some (base, links)) :
    root.Inside base ∧ ∀ link ∈ links, ∀ value ∈ link.values, root.Inside value := by
  fun_induction unchain document expression chain with
  | case1 _ _ _ target _ onTarget _ _ _ ih =>
      refine ih (inside.child? onTarget) (List.forall_mem_cons.mpr ⟨?_, inChain⟩) taken
      exact fun value among => inside.givenValue among
  | case2 => cases taken
  | case3 =>
      obtain ⟨rfl, rfl⟩ := Prod.mk.inj (Option.some.inj taken)
      exact ⟨inside, inChain⟩

/-- A call that is read off an expression in a tree is read off the tree. -/
theorem isOf_of_ofExpression? {call : Call} (inside : root.Inside expression)
    (made : Call.ofExpression? document expression = some call) : call.IsOf document root := by
  unfold Call.ofExpression? at made
  split at made
  · cases made
  · rename_i base chain isBase
    obtain ⟨inBase, inChain⟩ := inside_of_unchain inside (by simp) isBase
    split at made
    · split at made
      · rename_i callee arguments _ areArguments
        dsimp only at made
        split at made
        · rename_i known
          obtain ⟨description, described, rfl⟩ := Option.map_eq_some_iff.mp made
          obtain ⟨first, isFirst, reads⟩ := Option.bind_eq_some_iff.mp described
          have given {value : Php.Node} (among : value ∈ Php.argumentValues arguments) :
              root.Inside value := (inBase.child? areArguments).argumentValue among
          refine ⟨List.contains_iff_mem.mp known, ⟨first, given (List.mem_of_head? isFirst), reads⟩,
            inChain, ?_⟩
          intro closure isClosure
          exact given (List.mem_of_getElem? (Option.filter_eq_some_iff.mp isClosure).1)
        · cases made
      · cases made
    · cases made

/-- The body of the closure of a call stands in the same tree as the call. -/
theorem inside_of_body? {call : Call} {body : Php.Node} (isOf : call.IsOf document root)
    (found : call.body? = some body) : root.Inside body := by
  unfold Call.body? at found
  split at found
  · obtain ⟨closure, isClosure, inClosure⟩ := Option.bind_eq_some_iff.mp found
    exact (isOf.closure closure isClosure).child? inClosure
  · cases found

end Syntax

section Registrations

variable {document : Php.Document} {registration : Registration}

/-- A registration is the call that an expression makes, with what its closure registers. -/
def Registration.IsMadeIn (document : Php.Document) (node : Php.Node)
    (registration : Registration) : Prop :=
  ∃ expression call, node.Inside expression ∧ Call.ofExpression? document expression = some call ∧
    registration = ⟨call, Registration.inside document call⟩

/-- What is made in a node is made in every node around it. -/
theorem Registration.IsMadeIn.of_inside {outer inner : Php.Node} (inside : outer.Inside inner)
    (made : registration.IsMadeIn document inner) : registration.IsMadeIn document outer := by
  obtain ⟨expression, call, inInner, made, rfl⟩ := made
  exact ⟨expression, call, inside.trans inInner, made, rfl⟩

/-- What an expression registers is made in it. -/
theorem isMadeIn_ofExpression {expression : Php.Node}
    (member : registration ∈ Registration.ofExpression document expression) :
    registration.IsMadeIn document expression := by
  rw [Registration.ofExpression_eq] at member
  cases made : Call.ofExpression? document expression with
  | none =>
      rw [made] at member
      cases member
  | some call =>
      rw [made] at member
      exact ⟨expression, call, .root, made, List.mem_singleton.mp member⟩

/-- What the statements in a node register is made by expressions inside the node. -/
theorem isMadeIn_ofStatements (container : Php.Node)
    (member : registration ∈ Registration.ofStatements document container) :
    registration.IsMadeIn document container := by
  rw [Registration.ofStatements_eq] at member
  obtain ⟨statement, named, inStatement⟩ := List.mem_flatMap.mp member
  have inContainer := Php.Node.Inside.root.namedChild named
  rw [Registration.ofStatement_eq] at inStatement
  by_cases isExpression : statement.kind = .expressionStatement
  · rw [if_pos isExpression] at inStatement
    cases first : statement.namedChildren.head? with
    | none =>
        rw [first] at inStatement
        cases inStatement
    | some expression =>
        rw [first] at inStatement
        have inside := inContainer.namedChild (List.mem_of_head? first)
        exact .of_inside inside (isMadeIn_ofExpression inStatement)
  · rw [if_neg isExpression] at inStatement
    by_cases isNamespace : statement.kind = .namespaceDefinition
    · rw [if_pos isNamespace] at inStatement
      cases found : statement.child? .body with
      | none =>
          rw [found] at inStatement
          cases inStatement
      | some body =>
          rw [found] at inStatement
          have smaller := sizeOf_lt_of_mem_children (mem_children_of_child? found)
          have := sizeOf_lt_of_mem_namedChildren named
          exact .of_inside (inContainer.child? found) (isMadeIn_ofStatements body inStatement)
    · rw [if_neg isNamespace] at inStatement
      cases inStatement
termination_by sizeOf container

/-- What a call registers by its closure is made inside the body of the closure. -/
theorem exists_body_of_mem_inside {call : Call}
    (member : registration ∈ Registration.inside document call) :
    ∃ body, call.body? = some body ∧ registration.IsMadeIn document body := by
  unfold Registration.inside at member
  cases found : call.body? with
  | none =>
      rw [found] at member
      cases member
  | some body =>
      rw [found] at member
      by_cases braced : body.kind = .compoundStatement
      · simp only [braced, if_true] at member
        exact ⟨body, rfl, isMadeIn_ofStatements body member⟩
      · simp only [braced, if_false] at member
        exact ⟨body, rfl, isMadeIn_ofExpression member⟩

/-- What stands in a node is not greater, so the calls of a closure are smaller than the call. -/
theorem sizeOf_le_of_inside {node inner : Php.Node} (inside : node.Inside inner) :
    sizeOf inner ≤ sizeOf node := by
  apply inside.holds (Nat.le_refl _)
  intro parent child smaller among
  exact Nat.le_trans (Nat.le_of_lt (sizeOf_lt_of_mem_children among)) smaller

/-- What an expression registers is read off nodes of the tree in which the expression stands. -/
theorem isOf_of_made {root expression : Php.Node} {call : Call} (inside : root.Inside expression)
    (made : Call.ofExpression? document expression = some call) :
    Registration.IsOf document root ⟨call, Registration.inside document call⟩ := by
  have isOf := isOf_of_ofExpression? inside made
  refine .mk isOf ?_
  intro inner among
  obtain ⟨body, found, expression', call', inBody, made', rfl⟩ := exists_body_of_mem_inside among
  -- The closure is smaller than the expression that it is given in.
  have smaller := sizeOf_lt_of_body made found
  have within := sizeOf_le_of_inside inBody
  exact isOf_of_made ((inside_of_body? isOf found).trans inBody) made'
termination_by sizeOf expression

/-- **What the statements of a file register is read off nodes of its tree.** -/
theorem isOf_ofStatements
    (member : registration ∈ Registration.ofStatements document document.root) :
    registration.IsOf document document.root := by
  obtain ⟨expression, call, inside, made, rfl⟩ := isMadeIn_ofStatements document.root member
  exact isOf_of_made inside made

end Registrations

end PhpTestIndex.Pest
