import PhpTestIndex.Php.Literal
import PhpTestIndex.Test.Definition

/-! # Registration calls

A test is registered by a call such as `it('adds', function () { … })`, to which further calls may
be chained: `->with([…])->group('math')`.  A `Call` is such a registration, and a `Registration` is
a call together with the calls that its closure makes if it is a group.

`Registration.ofStatements` finds the registrations of some statements: expressions that stand
alone, also in the body of a namespace.
-/

namespace PhpTestIndex.Pest

/-- A call that is chained to a registration. -/
structure Link where
  name : String
  values : List Php.Node

/-- A registration of a test or of a group. -/
structure Call where
  /-- The whole expression. -/
  node : Php.Node
  function : String
  description : String
  closure : Option Php.Node
  /-- The calls chained to the registration, in order. -/
  chain : List Link

/-- The functions that register tests and groups. -/
def functions : List String :=
  ["test", "it", "arch", "describe"]

/-- The function that registers a group. -/
def describeFunction : String :=
  "describe"

theorem sizeOf_lt_of_mem_children {node child : Php.Node} (h : child ∈ node.children) :
    sizeOf child < sizeOf node := by
  have := List.sizeOf_lt_of_mem h
  cases node
  simp only [Php.Node.mk.sizeOf_spec] at *
  omega

theorem mem_children_of_child? {node child : Php.Node} {title : Php.Role}
    (h : node.child? title = some child) : child ∈ node.children :=
  List.mem_of_find?_eq_some h

/-- Take the chained calls off an expression: what they are chained to, and the calls in order. -/
def unchain (document : Php.Document) (expression : Php.Node) (chain : List Link) :
    Option (Php.Node × List Link) :=
  if expression.kind = .memberCall then
    match expression.child? .name, h : expression.child? .target with
    | some name, some target =>
      let values := ((expression.child? .arguments).map Php.argumentValues).getD []
      have := sizeOf_lt_of_mem_children (mem_children_of_child? h)
      unchain document target (⟨document.string name, values⟩ :: chain)
    | _, _ => none
  else some (expression, chain)
termination_by sizeOf expression

/-- A function without a name, written either way. -/
def isClosure (node : Php.Node) : Bool :=
  node.kind = .anonymousFunction || node.kind = .arrowFunction

/-- The registration that an expression is. -/
def Call.ofExpression? (document : Php.Document) (expression : Php.Node) : Option Call :=
  match unchain document expression [] with
  | none => none
  | some (base, chain) =>
    if base.kind = .functionCall then
      match base.child? .callee, base.child? .arguments with
      | some callee, some arguments =>
        let function := String.ofList (Php.shortName (document.text callee))
        let values := Php.argumentValues arguments
        if functions.contains function then
          (values.head?.bind document.stringValue?).map fun description =>
            ⟨expression, function, description, values[1]?.filter isClosure, chain⟩
        else none
      | _, _ => none
    else none

namespace Call

/-- The rows of data of an array. -/
def rows (document : Php.Document) (array : Php.Node) : List String :=
  (array.childrenOf .arrayElement).map document.string

/-- Add what a chained call says. -/
def annotate (document : Php.Document) (annotations : Annotations) (link : Link) : Annotations :=
  let strings := link.values.filterMap document.stringValue?
  match link.name with
  | "with" =>
    { annotations with
      testWith := annotations.testWith ++ link.values.flatMap fun value =>
        if value.kind = .arrayLiteral then rows document value else []
      dataProvider := annotations.dataProvider ++ link.values.filterMap fun value =>
        if value.kind = .arrayLiteral then none else document.stringValue? value }
  | "group" => { annotations with group := annotations.group ++ strings }
  | "depends" => { annotations with depends := annotations.depends ++ strings }
  | "skip" => { annotations with skipped := true }
  | "todo" => { annotations with incomplete := true }
  | _ => annotations

/-- What a registration says about its test; a test without a closure is still to be written. -/
def annotations (document : Php.Document) (call : Call) : Annotations :=
  let isTodo := call.closure.isNone && (call.function = "test" || call.function = "it")
  call.chain.foldl (annotate document) { Annotations.none with incomplete := isTodo }

/-- The body of the closure of a group: its statements, or the one expression of an arrow
function. -/
def body? (call : Call) : Option Php.Node :=
  if call.function = describeFunction then call.closure.bind fun closure => closure.child? .body
  else none

end Call

/-- A registration with the registrations inside it. -/
inductive Registration
  | mk (call : Call) (inner : List Registration)

namespace Registration

/-- The call that registers. -/
def call : Registration → Call
  | ⟨call, _⟩ => call

/-- The registrations that the closure of a group makes. -/
def inner : Registration → List Registration
  | ⟨_, inner⟩ => inner

end Registration

theorem sizeOf_le_of_unchain {document : Php.Document} {expression base : Php.Node}
    {chain links : List Link} (h : unchain document expression chain = some (base, links)) :
    sizeOf base ≤ sizeOf expression := by
  fun_induction unchain document expression chain with
  | case1 _ _ _ _ target _ htarget _ _ ih =>
    have := ih h
    have := sizeOf_lt_of_mem_children (mem_children_of_child? htarget)
    omega
  | case2 => simp at h
  | case3 =>
    simp only [Option.some.injEq, Prod.mk.injEq] at h
    exact h.1 ▸ Nat.le_refl _

theorem sizeOf_lt_of_mem_argumentValues {arguments value : Php.Node}
    (h : value ∈ Php.argumentValues arguments) : sizeOf value < sizeOf arguments := by
  obtain ⟨argument, hargument, hvalue⟩ := List.mem_filterMap.1 h
  have hvalue := List.mem_filter.1 (List.mem_of_getLast? hvalue)
  have hargument := List.mem_filter.1 hargument
  have := sizeOf_lt_of_mem_children hvalue.1
  have := sizeOf_lt_of_mem_children hargument.1
  omega

/-- The closure of a registration lies inside its expression. -/
theorem sizeOf_lt_of_closure {document : Php.Document} {expression closure : Php.Node}
    {call : Call} (h : Call.ofExpression? document expression = some call)
    (hclosure : call.closure = some closure) : sizeOf closure < sizeOf expression := by
  unfold Call.ofExpression? at h
  split at h
  · simp at h
  · rename_i base chain hchain
    have hbase := sizeOf_le_of_unchain hchain
    split at h
    · split at h
      · rename_i callee arguments _ harguments
        dsimp only at h
        split at h
        · obtain ⟨description, _, rfl⟩ := Option.map_eq_some_iff.1 h
          simp only [Option.filter_eq_some_iff] at hclosure
          have hvalue := sizeOf_lt_of_mem_argumentValues (List.mem_of_getElem? hclosure.1)
          have := sizeOf_lt_of_mem_children (mem_children_of_child? harguments)
          omega
        · simp at h
      · simp at h
    · simp at h

theorem sizeOf_lt_of_body {document : Php.Document} {expression body : Php.Node} {call : Call}
    (h : Call.ofExpression? document expression = some call) (hbody : call.body? = some body) :
    sizeOf body < sizeOf expression := by
  unfold Call.body? at hbody
  split at hbody
  · obtain ⟨closure, hclosure, hbody⟩ := Option.bind_eq_some_iff.1 hbody
    have := sizeOf_lt_of_closure h hclosure
    have := sizeOf_lt_of_mem_children (mem_children_of_child? hbody)
    omega
  · simp at hbody

theorem sizeOf_lt_of_mem_namedChildren {node child : Php.Node} (h : child ∈ node.namedChildren) :
    sizeOf child < sizeOf node :=
  sizeOf_lt_of_mem_children (List.mem_filter.1 h).1

mutual

/-- The registration that an expression makes, if it makes one. -/
def Registration.ofExpression (document : Php.Document) (expression : Php.Node) :
    List Registration :=
  match h : Call.ofExpression? document expression with
  | none => []
  | some call =>
    match hbody : call.body? with
    | none => [⟨call, []⟩]
    | some body =>
      have := sizeOf_lt_of_body h hbody
      if body.kind = .compoundStatement then [⟨call, Registration.ofStatements document body⟩]
      else [⟨call, Registration.ofExpression document body⟩]
termination_by sizeOf expression

/-- The registrations that the statements in a node make, in order. -/
def Registration.ofStatements (document : Php.Document) (container : Php.Node) :
    List Registration :=
  container.namedChildren.attach.flatMap fun ⟨statement, h⟩ =>
    have := sizeOf_lt_of_mem_namedChildren h
    Registration.ofStatement document statement
termination_by sizeOf container

/-- The registrations that a statement makes. -/
def Registration.ofStatement (document : Php.Document) (statement : Php.Node) :
    List Registration :=
  match statement.kind with
  | .expressionStatement =>
    match h : statement.namedChildren.head? with
    | none => []
    | some expression =>
      have := sizeOf_lt_of_mem_namedChildren (List.mem_of_head? h)
      Registration.ofExpression document expression
  | .namespaceDefinition =>
    match h : statement.child? .body with
    | none => []
    | some body =>
      have := sizeOf_lt_of_mem_children (mem_children_of_child? h)
      Registration.ofStatements document body
  | _ => []
termination_by sizeOf statement

end

end PhpTestIndex.Pest
