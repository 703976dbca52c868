import PhpTestIndex.Pest.Call

/-! # The registration calls that a file reaches

A registration call is reached from the statements of a file through the bodies of namespaces and
through the closures of groups: the statements in braces, or the one expression of an arrow
function. `PhpTestIndex.Pest.reachedAmong` lists these calls in source order by recursion on the
syntax tree, each with the descriptions of the groups around it; it knows no reader, no names and
no definitions. A group appears among the tests of a file exactly if its own closure reaches a test
(`PhpTestIndex.Pest.Reached.Appears`).
-/

namespace PhpTestIndex.Pest

/-- A registration call with the descriptions of the groups in whose closures it stands, the
outermost first. -/
structure Reached where
  groups : List String
  call : Call

/-- The call registers a test and not a group. -/
def Reached.IsTest (reached : Reached) : Prop :=
  reached.call.function ≠ describeFunction

instance : DecidablePred Reached.IsTest := fun _ => inferInstanceAs (Decidable (_ ≠ _))

mutual

/-- The calls that the statements in a node reach. -/
def reachedAmong (document : Php.Document) (groups : List String) (container : Php.Node) :
    List Reached :=
  container.namedChildren.attach.flatMap fun ⟨statement, member⟩ =>
    have := sizeOf_lt_of_mem_namedChildren member
    reachedIn document groups statement
termination_by sizeOf container

/-- The calls that a statement reaches. -/
def reachedIn (document : Php.Document) (groups : List String) (statement : Php.Node) :
    List Reached :=
  match statement.kind with
  | .expressionStatement =>
    match first : statement.namedChildren.head? with
    | none => []
    | some expression =>
      have := sizeOf_lt_of_mem_namedChildren (List.mem_of_head? first)
      reachedFrom document groups expression
  | .namespaceDefinition =>
    match found : statement.child? .body with
    | none => []
    | some body =>
      have := sizeOf_lt_of_mem_children (mem_children_of_child? found)
      reachedAmong document groups body
  | _ => []
termination_by sizeOf statement

/-- The call that an expression is, and the calls that it reaches by its closure if it is a
group. -/
def reachedFrom (document : Php.Document) (groups : List String) (expression : Php.Node) :
    List Reached :=
  match made : Call.ofExpression? document expression with
  | none => []
  | some call =>
    ⟨groups, call⟩ ::
      match found : call.body? with
      | none => []
      | some body =>
        have := sizeOf_lt_of_body made found
        if body.kind = .compoundStatement then
          reachedAmong document (groups ++ [call.description]) body
        else reachedFrom document (groups ++ [call.description]) body
termination_by sizeOf expression

end

/-- The calls that a call reaches by its closure if it is a group; `groups` are the groups around
them. -/
def reachedWithin (document : Php.Document) (groups : List String) (call : Call) : List Reached :=
  match call.body? with
  | none => []
  | some body =>
    if body.kind = .compoundStatement then reachedAmong document groups body
    else reachedFrom document groups body

/-- The calls that a call reaches by its closure. -/
def Reached.inside (document : Php.Document) (reached : Reached) : List Reached :=
  reachedWithin document (reached.groups ++ [reached.call.description]) reached.call

/-- A call appears among the tests of a file: it is a test, or a group whose closure reaches one. -/
def Reached.Appears (document : Php.Document) (reached : Reached) : Prop :=
  reached.IsTest ∨ ∃ inner ∈ reached.inside document, inner.IsTest

instance (document : Php.Document) : DecidablePred (Reached.Appears document) := fun reached =>
  inferInstanceAs (Decidable (_ ∨ ∃ inner ∈ reached.inside document, inner.IsTest))

/-- The registrations that a call makes by its closure if it is a group. -/
def Registration.inside (document : Php.Document) (call : Call) : List Registration :=
  match call.body? with
  | none => []
  | some body =>
    if body.kind = .compoundStatement then Registration.ofStatements document body
    else Registration.ofExpression document body

section Equations

variable (document : Php.Document) (groups : List String)

/-- What is reached in a container is reached in its statements, in order. -/
theorem reachedAmong_eq (container : Php.Node) :
    reachedAmong document groups container =
      container.namedChildren.flatMap (reachedIn document groups) := by
  rw [reachedAmong]
  rw [List.flatMap_subtype fun _ _ => rfl, List.unattach_attach]

/-- A statement leads to its expression, and a namespace to its body; nothing else is entered. -/
theorem reachedIn_eq (statement : Php.Node) :
    reachedIn document groups statement =
      if statement.kind = .expressionStatement then
        statement.namedChildren.head?.elim [] (reachedFrom document groups)
      else if statement.kind = .namespaceDefinition then
        (statement.child? .body).elim [] (reachedAmong document groups)
      else [] := by
  rw [reachedIn]
  split
  · rename_i kind
    rw [if_pos kind]
    split <;> simp_all
  · rename_i kind
    rw [if_neg (by simp [kind]), if_pos kind]
    split <;> simp_all
  · rename_i noExpression noNamespace
    rw [if_neg noExpression, if_neg noNamespace]

/-- An expression that registers is reached itself, and then what its closure leads to, one group
deeper. -/
theorem reachedFrom_eq (expression : Php.Node) :
    reachedFrom document groups expression =
      match Call.ofExpression? document expression with
      | none => []
      | some call =>
        ⟨groups, call⟩ :: reachedWithin document (groups ++ [call.description]) call := by
  rw [reachedFrom]
  split
  · rename_i none'
    simp only [none']
  · rename_i call made
    simp only [made, reachedWithin]
    split
    · rename_i none'
      simp only [none']
    · rename_i body found
      simp only [found]

/-- The registrations of a container are those of its statements, in order. -/
theorem Registration.ofStatements_eq (container : Php.Node) :
    Registration.ofStatements document container =
      container.namedChildren.flatMap (Registration.ofStatement document) := by
  rw [Registration.ofStatements]
  rw [List.flatMap_subtype fun _ _ => rfl, List.unattach_attach]

/-- Registrations are looked for in the same places as calls are reached. -/
theorem Registration.ofStatement_eq (statement : Php.Node) :
    Registration.ofStatement document statement =
      if statement.kind = .expressionStatement then
        statement.namedChildren.head?.elim [] (Registration.ofExpression document)
      else if statement.kind = .namespaceDefinition then
        (statement.child? .body).elim [] (Registration.ofStatements document)
      else [] := by
  rw [Registration.ofStatement]
  split
  · rename_i kind
    rw [if_pos kind]
    split <;> simp_all
  · rename_i kind
    rw [if_neg (by simp [kind]), if_pos kind]
    split <;> simp_all
  · rename_i noExpression noNamespace
    rw [if_neg noExpression, if_neg noNamespace]

/-- An expression makes one registration with those of its closure, or none. -/
theorem Registration.ofExpression_eq (expression : Php.Node) :
    Registration.ofExpression document expression =
      match Call.ofExpression? document expression with
      | none => []
      | some call => [⟨call, Registration.inside document call⟩] := by
  rw [Registration.ofExpression]
  split
  · rename_i none'
    simp only [none']
  · rename_i call made
    simp only [made, Registration.inside]
    split
    · rename_i none'
      simp only [none']
    · rename_i body found
      simp only [found]
      split <;> rfl

end Equations

/-- A test reaches nothing. -/
theorem reachedWithin_of_ne {document : Php.Document} {groups : List String} {call : Call}
    (isTest : call.function ≠ describeFunction) : reachedWithin document groups call = [] := by
  unfold reachedWithin Call.body?
  rw [if_neg isTest]

end PhpTestIndex.Pest
