import PhpTestIndex.Php.Literal
import PhpTestIndex.Proofs.Php.Order

/-! # Nodes inside a node

A node is inside another one if it is reached by going from children to children
(`PhpTestIndex.Php.Node.Inside`). The values that a call or an attribute is given are inside it, and
so are the comments of a tree. In a tree that is in order, what is inside stands between the start
and the end (`PhpTestIndex.Php.Node.Inside.within`).
-/

namespace PhpTestIndex.Php

/-- A node and the nodes below it, at any depth. -/
inductive Node.Inside (root : Node) : Node → Prop
  | root : Inside root root
  | child {node child : Node} (inside : Inside root node) (among : child ∈ node.children) :
      Inside root child

/-- What stands in a node that stands in another one stands in the other one. -/
theorem Node.Inside.trans {outer middle inner : Node} (first : outer.Inside middle)
    (second : middle.Inside inner) : outer.Inside inner := by
  induction second with
  | root => exact first
  | child _ among ih => exact ih.child among

/-- What passes on to children holds of all nodes inside. -/
theorem Node.Inside.holds {motive : Node → Prop} {root node : Node} (inside : root.Inside node)
    (start : motive root)
    (step : ∀ {node child : Node}, motive node → child ∈ node.children → motive child) :
    motive node := by
  induction inside with
  | root => exact start
  | child _ among ih => exact step ih among

/-- Each of some siblings is listed with what stands before it. -/
theorem exists_mem_siblingsDescendants {siblings : List Node} {node : Node}
    (among : node ∈ siblings) (before : Option Node) :
    ∃ before', ⟨before', node⟩ ∈ siblingsDescendants before siblings := by
  induction siblings generalizing before with
  | nil => cases among
  | cons first rest ih =>
      rw [siblingsDescendants]
      rcases List.mem_cons.mp among with rfl | later
      · refine ⟨before, List.mem_append_left _ ?_⟩
        cases node
        exact List.mem_cons_self
      · obtain ⟨before', member⟩ := ih later (if first.kind.isNamed then some first else before)
        exact ⟨before', List.mem_append_right _ member⟩

mutual

/-- The children of a node that is listed below a root are listed, too. The two recursions of the
listing are followed together with the next lemma. -/
theorem Node.exists_mem_descendants_of_child {child : Node} : ∀ {root : Node}
    {before : Option Node} {placed : Placed}, placed ∈ root.descendants before →
      child ∈ placed.node.children → ∃ before', ⟨before', child⟩ ∈ root.descendants before
  | ⟨kind, role, start, stop, children⟩, before, placed, member, among => by
    rw [Node.descendants] at member ⊢
    rcases List.mem_cons.mp member with rfl | below
    · obtain ⟨before', found⟩ := exists_mem_siblingsDescendants among none
      exact ⟨before', List.mem_cons_of_mem _ found⟩
    · obtain ⟨before', found⟩ := exists_mem_siblingsDescendants_of_child below among
      exact ⟨before', List.mem_cons_of_mem _ found⟩

/-- The children of a node that is listed below some siblings are listed, too. -/
theorem exists_mem_siblingsDescendants_of_child {child : Node} : ∀ {siblings : List Node}
    {before : Option Node} {placed : Placed}, placed ∈ siblingsDescendants before siblings →
      child ∈ placed.node.children →
      ∃ before', ⟨before', child⟩ ∈ siblingsDescendants before siblings
  | [], _, _, member, _ => by cases member
  | node :: rest, before, placed, member, among => by
    rw [siblingsDescendants] at member ⊢
    rcases List.mem_append.mp member with here | later
    · obtain ⟨before', found⟩ := Node.exists_mem_descendants_of_child here among
      exact ⟨before', List.mem_append_left _ found⟩
    · obtain ⟨before', found⟩ := exists_mem_siblingsDescendants_of_child later among
      exact ⟨before', List.mem_append_right _ found⟩

end

/-- Every node in a tree is listed among its descendants. -/
theorem Node.Inside.exists_mem_descendants {root node : Node} (inside : root.Inside node) :
    ∃ before, ⟨before, node⟩ ∈ root.descendants none := by
  induction inside with
  | root =>
      refine ⟨none, ?_⟩
      cases root
      exact List.mem_cons_self
  | child _ among ih =>
      obtain ⟨before, member⟩ := ih
      exact exists_mem_descendants_of_child member among

/-- In an ordered tree, a node lies between the start and the end of every node that it stands in.
-/
theorem Node.Inside.within {outer inner : Node} (inside : outer.Inside inner)
    (ordered : outer.Ordered) :
    outer.start.offset ≤ inner.start.offset ∧ inner.Ordered ∧
      inner.stop.offset ≤ outer.stop.offset := by
  obtain ⟨_, member⟩ := inside.exists_mem_descendants
  exact ordered.within member

section Children

variable {root node child : Node}

theorem Node.Inside.child? {role : Role} (inside : root.Inside node)
    (found : node.child? role = some child) : root.Inside child :=
  inside.child (List.mem_of_find?_eq_some found)

theorem Node.Inside.namedChild (inside : root.Inside node) (among : child ∈ node.namedChildren) :
    root.Inside child :=
  inside.child (List.mem_filter.mp among).1

theorem Node.Inside.childOf {kind : Kind} (inside : root.Inside node)
    (among : child ∈ node.childrenOf kind) : root.Inside child :=
  inside.child (List.mem_filter.mp among).1

/-- The values of the arguments of a call inside are inside. -/
theorem Node.Inside.argumentValue (inside : root.Inside node)
    (among : child ∈ argumentValues node) : root.Inside child := by
  obtain ⟨argument, isArgument, isValue⟩ := List.mem_filterMap.mp among
  exact (inside.childOf isArgument).namedChild (List.mem_of_getLast? isValue)

/-- The values that a node is given stand in the node. -/
theorem Node.Inside.givenValue (inside : root.Inside node)
    (among : child ∈ ((node.child? .arguments).map argumentValues).getD []) :
    root.Inside child := by
  cases found : node.child? .arguments with
  | none =>
      rw [found] at among
      cases among
  | some arguments =>
      rw [found] at among
      exact (inside.child? found).argumentValue among

end Children

mutual

/-- The comments of a tree are nodes inside it. -/
theorem Node.inside_of_mem_comments {comment : Node} : ∀ {root : Node},
    comment ∈ root.comments → root.Inside comment ∧ comment.kind = .comment
  | ⟨kind, role, start, stop, children⟩, member => by
    rw [Node.comments] at member
    split at member
    · rename_i isComment
      rw [List.mem_singleton.mp member]
      exact ⟨.root, isComment⟩
    · obtain ⟨child, among, inside, isComment⟩ := inside_of_mem_siblingsComments member
      exact ⟨(Node.Inside.root.child among).trans inside, isComment⟩

theorem inside_of_mem_siblingsComments {comment : Node} : ∀ {siblings : List Node},
    comment ∈ siblingsComments siblings →
      ∃ sibling ∈ siblings, sibling.Inside comment ∧ comment.kind = .comment
  | [], member => by cases member
  | node :: rest, member => by
    rw [siblingsComments] at member
    rcases List.mem_append.mp member with here | later
    · exact ⟨node, List.mem_cons_self, Node.inside_of_mem_comments here⟩
    · obtain ⟨sibling, among, inside⟩ := inside_of_mem_siblingsComments later
      exact ⟨sibling, List.mem_cons_of_mem node among, inside⟩

end

end PhpTestIndex.Php
