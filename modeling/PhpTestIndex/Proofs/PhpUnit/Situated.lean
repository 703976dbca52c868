import PhpTestIndex.Proofs.Php.Order
import PhpTestIndex.Proofs.PhpUnit.Selection

/-! # The statements of a file and their namespaces

`PhpTestIndex.PhpUnit.situatedStatements` lists the statements at the top level of a file and in the
bodies of its namespaces, each with the namespace in effect where it stands. The classes that a file
declares are those among these statements (`PhpTestIndex.PhpUnit.filterMap_situatedStatements`). In
a syntax tree that is in order, they stand one after the other
(`PhpTestIndex.PhpUnit.pairwise_situatedStatements`), and the classes in a statement, however deep
they stand, stand between its start and its end
(`PhpTestIndex.PhpUnit.Situated.bounds_of_mem_classes`).
-/

namespace PhpTestIndex.PhpUnit

/-- A statement with the namespace in effect where it stands. -/
structure Situated where
  statement : Php.Placed
  inNamespace : Option String

mutual

/-- The statements of a statement: those in its body, if it is a namespace, or itself. -/
def situatedIn (document : Php.Document) (inNamespace : Option String)
    (before : Option Php.Node) : Php.Node → List Situated
  | ⟨kind, role, start, stop, children⟩ =>
    let statement : Php.Node := ⟨kind, role, start, stop, children⟩
    if kind = .namespaceDefinition then
      situatedInBody document (namespaceName? document statement) children
    else [⟨⟨before, statement⟩, inNamespace⟩]

/-- The statements of a list of siblings; `inNamespace` is in effect before the first one. -/
def situatedAmong (document : Php.Document) (inNamespace : Option String)
    (before : Option Php.Node) : List Php.Node → List Situated
  | [] => []
  | statement :: rest =>
    situatedIn document inNamespace before statement ++
      situatedAmong document (namespaceAfter document inNamespace statement)
        (Survey.nextBefore before statement) rest

/-- The statements in the first body among the children of a namespace. -/
def situatedInBody (document : Php.Document) (inNamespace : Option String) :
    List Php.Node → List Situated
  | [] => []
  | ⟨_, role, _, _, children⟩ :: rest =>
    if role = some .body then situatedAmong document inNamespace none children
    else situatedInBody document inNamespace rest

end

/-- The statements of a file that are no namespaces, in source order. -/
def situatedStatements (document : Php.Document) : List Situated :=
  situatedAmong document none none document.root.children

namespace Situated

/-- The class that a statement is. -/
def declared? (document : Php.Document) (situated : Situated) : Option Declared :=
  if situated.statement.node.kind = .classDeclaration then
    (situated.statement.node.child? .name).map fun name =>
      ⟨situated.statement, document.string name, situated.inNamespace⟩
  else none

/-- The suite that a statement is. -/
def suite? (document : Php.Document) (situated : Situated) : Option Declared :=
  (situated.declared? document).filter fun declared =>
    declared.IsSuite document ((Survey.ofDocument document .start).hierarchy document)

/-- The declarations of classes in a statement, at any depth. -/
def classes (situated : Situated) : List Php.Node :=
  ((situated.statement.node.descendants situated.statement.before).map Php.Placed.node).filter
    fun node => node.kind = .classDeclaration && (node.child? .name).isSome

end Situated

variable {document : Php.Document}

mutual

/-- The declared classes are those situated statements that declare one. The three lemmas follow the
three recursions of the listing together. -/
theorem filterMap_situatedIn (inNamespace : Option String) (before : Option Php.Node) :
    ∀ node : Php.Node,
      (situatedIn document inNamespace before node).filterMap (Situated.declared? document) =
        declaredIn document inNamespace before node
  | ⟨kind, role, start, stop, children⟩ => by
    by_cases isNamespace : kind = .namespaceDefinition
    · subst isNamespace
      rw [situatedIn, declaredIn, if_pos rfl]
      exact filterMap_situatedInBody _ children
    rw [situatedIn, if_neg isNamespace]
    by_cases isClass : kind = .classDeclaration
    · subst isClass
      rw [declaredIn, declaredClass]
      simp only [List.filterMap_cons, List.filterMap_nil, Situated.declared?, ↓reduceIte]
      cases (Php.Node.mk .classDeclaration role start stop children).child? .name <;> rfl
    · have none' : Situated.declared? document
          ⟨⟨before, ⟨kind, role, start, stop, children⟩⟩, inNamespace⟩ = none := if_neg isClass
      rw [List.filterMap_cons_none none', List.filterMap_nil]
      cases kind <;> first | rfl | contradiction

/-- Among statements, the declared classes are those situated statements that declare one. -/
theorem filterMap_situatedAmong (inNamespace : Option String) (before : Option Php.Node) :
    ∀ nodes : List Php.Node,
      (situatedAmong document inNamespace before nodes).filterMap (Situated.declared? document) =
        declaredAmong document inNamespace before nodes
  | [] => by rw [situatedAmong, declaredAmong, List.filterMap_nil]
  | node :: rest => by
    rw [situatedAmong, declaredAmong, List.filterMap_append, filterMap_situatedIn,
      filterMap_situatedAmong]

/-- In the body of a namespace, the declared classes are those situated statements that declare one.
-/
theorem filterMap_situatedInBody (inNamespace : Option String) :
    ∀ nodes : List Php.Node,
      (situatedInBody document inNamespace nodes).filterMap (Situated.declared? document) =
        declaredInBody document inNamespace nodes
  | [] => by rw [situatedInBody, declaredInBody, List.filterMap_nil]
  | ⟨kind, role, start, stop, children⟩ :: rest => by
    rw [situatedInBody, declaredInBody]
    split
    · exact filterMap_situatedAmong inNamespace none children
    · exact filterMap_situatedInBody inNamespace rest

end

/-- The classes that a file declares are those among its statements. -/
theorem filterMap_situatedStatements (document : Php.Document) :
    (situatedStatements document).filterMap (Situated.declared? document) =
      declaredClasses document :=
  filterMap_situatedAmong none none document.root.children

/-- The suites of a file are those among its statements. -/
theorem filterMap_suite? (document : Php.Document) :
    (situatedStatements document).filterMap (Situated.suite? document) = suites document := by
  rw [suites, ← filterMap_situatedStatements, List.filter_filterMap]
  rfl

/-- A class that is declared by a situated statement is in its namespace. -/
theorem Situated.of_declared? {situated : Situated} {class' : Declared}
    (declared : situated.declared? document = some class') :
    class'.declaration = situated.statement ∧ class'.inNamespace = situated.inNamespace := by
  unfold Situated.declared? at declared
  split at declared
  · obtain ⟨name, _, rfl⟩ := Option.map_eq_some_iff.mp declared
    exact ⟨rfl, rfl⟩
  · cases declared

theorem Situated.of_suite? {situated : Situated} {suite : Declared}
    (isSuite : situated.suite? document = some suite) :
    suite.declaration = situated.statement ∧ suite.inNamespace = situated.inNamespace :=
  Situated.of_declared? (Option.filter_eq_some_iff.mp isSuite).1

mutual

/-- The situated statements of an ordered statement stand in order within it. -/
theorem inOrder_situatedIn (inNamespace : Option String) (before : Option Php.Node) :
    ∀ {node : Php.Node}, node.Ordered →
      Php.InOrder node.start.offset
        ((situatedIn document inNamespace before node).map fun situated => situated.statement.node)
        node.stop.offset
  | ⟨kind, role, start, stop, children⟩, ordered => by
    rw [situatedIn]
    split
    · exact inOrder_situatedInBody _ ordered.inside
    · exact .cons le_rfl ordered (.nil le_rfl)

/-- The situated statements among statements in order stand in order. -/
theorem inOrder_situatedAmong (inNamespace : Option String) (before : Option Php.Node)
    {low high : Nat} :
    ∀ {nodes : List Php.Node}, Php.InOrder low nodes high →
      Php.InOrder low
        ((situatedAmong document inNamespace before nodes).map fun situated =>
          situated.statement.node) high
  | [], inOrder => by simpa [situatedAmong] using inOrder
  | node :: rest, inOrder => by
    obtain ⟨after, ordered, later⟩ := Php.inOrder_cons.mp inOrder
    rw [situatedAmong, List.map_append]
    refine Php.inOrder_append.mpr ⟨node.stop.offset, ?_, inOrder_situatedAmong _ _ later⟩
    exact (inOrder_situatedIn inNamespace before ordered).mono after le_rfl

/-- The situated statements in the body of a namespace stand in order. -/
theorem inOrder_situatedInBody (inNamespace : Option String) {low high : Nat} :
    ∀ {nodes : List Php.Node}, Php.InOrder low nodes high →
      Php.InOrder low
        ((situatedInBody document inNamespace nodes).map fun situated =>
          situated.statement.node) high
  | [], inOrder => by simpa [situatedInBody] using inOrder
  | ⟨kind, role, start, stop, children⟩ :: rest, inOrder => by
    obtain ⟨after, ordered, later⟩ := Php.inOrder_cons.mp inOrder
    rw [situatedInBody]
    split
    · exact (inOrder_situatedAmong inNamespace none ordered.inside).mono after later.le
    · exact (inOrder_situatedInBody inNamespace later).mono (after.trans ordered.forward) le_rfl

end

/-- In a tree that is in order, each statement ends before the next ones start. -/
theorem pairwise_situatedStatements (ordered : document.root.Ordered) :
    (situatedStatements document).Pairwise fun first second =>
      first.statement.node.stop.offset ≤ second.statement.node.start.offset :=
  List.pairwise_map.mp (inOrder_situatedAmong none none ordered.inside).pairwise

section Motive

variable {motive : Php.Node → Prop}

mutual

/-- What passes from nodes to their children holds of the situated statements of a node that has it.
-/
theorem forall_situatedIn
    (step : ∀ {node : Php.Node}, motive node → ∀ child ∈ node.children, motive child)
    (inNamespace : Option String) (before : Option Php.Node) :
    ∀ {node : Php.Node}, motive node →
      ∀ situated ∈ situatedIn document inNamespace before node, motive situated.statement.node
  | ⟨kind, role, start, stop, children⟩, holds, situated, member => by
    rw [situatedIn] at member
    split at member
    · exact forall_situatedInBody step _ (step holds) situated member
    · rw [List.mem_singleton.mp member]
      exact holds

/-- What passes from nodes to their children holds of the situated statements among nodes that have
it. -/
theorem forall_situatedAmong
    (step : ∀ {node : Php.Node}, motive node → ∀ child ∈ node.children, motive child)
    (inNamespace : Option String) (before : Option Php.Node) :
    ∀ {nodes : List Php.Node}, (∀ node ∈ nodes, motive node) →
      ∀ situated ∈ situatedAmong document inNamespace before nodes, motive situated.statement.node
  | [], _, situated, member => by cases member
  | node :: rest, hold, situated, member => by
    obtain ⟨first, others⟩ := List.forall_mem_cons.mp hold
    rw [situatedAmong] at member
    rcases List.mem_append.mp member with here | later
    · exact forall_situatedIn step inNamespace before first situated here
    · exact forall_situatedAmong step _ _ others situated later

/-- What passes from nodes to their children holds of the situated statements in the body of a
namespace. -/
theorem forall_situatedInBody
    (step : ∀ {node : Php.Node}, motive node → ∀ child ∈ node.children, motive child)
    (inNamespace : Option String) :
    ∀ {nodes : List Php.Node}, (∀ node ∈ nodes, motive node) →
      ∀ situated ∈ situatedInBody document inNamespace nodes, motive situated.statement.node
  | [], _, situated, member => by cases member
  | ⟨kind, role, start, stop, children⟩ :: rest, hold, situated, member => by
    obtain ⟨first, others⟩ := List.forall_mem_cons.mp hold
    rw [situatedInBody] at member
    split at member
    · exact forall_situatedAmong step inNamespace none (step first) situated member
    · exact forall_situatedInBody step inNamespace others situated member

end

end Motive

/-- In an ordered tree, every situated statement is ordered. -/
theorem ordered_of_mem_situatedStatements (ordered : document.root.Ordered)
    {situated : Situated} (member : situated ∈ situatedStatements document) :
    situated.statement.node.Ordered := by
  have step {node : Php.Node} (holds : node.Ordered) : ∀ child ∈ node.children, child.Ordered :=
    fun child present => (holds.inside.bounds present).2.1
  exact forall_situatedAmong step none none (step ordered) situated member

/-- A class is not empty, because its name is not. -/
theorem lt_of_isClass {code : List Char} {node : Php.Node} (ordered : node.Ordered)
    (wellNamed : Php.WellNamed code node) (kind : node.kind = .classDeclaration)
    (named : (node.child? .name).isSome) : node.start.offset < node.stop.offset := by
  obtain ⟨name, found⟩ := Option.isSome_iff_exists.mp named
  have child : name ∈ node.children := List.mem_of_find?_eq_some found
  have role : name.role = some .name := by simpa using List.find?_some found
  have allowed := wellNamed.allows child
  rw [kind] at allowed
  have word : Php.IsWord (name.text code) := allowed role
  obtain ⟨after, _, within⟩ := ordered.inside.bounds child
  exact after.trans_lt ((Php.lt_of_text_ne_nil word.nonempty).trans_le within)

/-- The classes in a statement stand between its start and its end, and are not empty. -/
theorem Situated.bounds_of_mem_classes (ordered : document.root.Ordered)
    (wellNamed : Php.WellNamed document.code document.root) {situated : Situated}
    (member : situated ∈ situatedStatements document) {declaration : Php.Node}
    (among : declaration ∈ situated.classes) :
    situated.statement.node.start.offset ≤ declaration.start.offset ∧
      declaration.start.offset < declaration.stop.offset ∧
      declaration.stop.offset ≤ situated.statement.node.stop.offset := by
  let sound (node : Php.Node) : Prop := node.Ordered ∧ Php.WellNamed document.code node
  have step {node : Php.Node} (holds : sound node) : ∀ child ∈ node.children, sound child := by
    intro child present
    exact ⟨(holds.1.inside.bounds present).2.1, holds.2.child present⟩
  obtain ⟨orderedStatement, wellNamedStatement⟩ :=
    forall_situatedAmong step none none (step ⟨ordered, wellNamed⟩) situated member
  obtain ⟨inside, isClass⟩ := List.mem_filter.mp among
  obtain ⟨placed, below, rfl⟩ := List.mem_map.mp inside
  obtain ⟨kind, named⟩ := Bool.and_eq_true_iff.mp isClass
  obtain ⟨after, orderedClass, within⟩ := orderedStatement.within below
  have wellNamedClass := Php.Node.forall_descendants
    (fun named child present => Php.WellNamed.child named present) _ _ wellNamedStatement
    placed below
  exact ⟨after, lt_of_isClass orderedClass wellNamedClass (of_decide_eq_true kind) named, within⟩

end PhpTestIndex.PhpUnit
