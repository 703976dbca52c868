import PhpTestIndex.Proofs.Test.Tree

/-! # Visiting a tree node by node

A tree can be visited with a stack of the nodes that are still to come: the next node is taken off,
and its children are put on, the last one first. This visits every node once, a parent before its
children and siblings in order (`PhpTestIndex.Definition.Walk.visited_eq`).

`PhpTestIndex.Definition.located` gives in the same order each node together with its position among
its siblings.
-/

namespace PhpTestIndex.Definition

/-- A property that some trees have whenever the children of each of them have it holds of all
trees. -/
theorem induction_forest {motive : List Definition → Prop}
    (step : ∀ forest, (∀ root ∈ forest, motive root.children) → motive forest)
    (forest : List Definition) : motive forest := by
  have below (root : Definition) : motive root.children := by
    induction root using induction_children with
    | step root ih => exact step root.children ih
  exact step forest fun root _ => below root

/-- A visit that is under way: the nodes that are still to come, the next one first. -/
structure Walk where
  pending : List Definition

namespace Walk

/-- The visit of a tree. -/
def ofTree (root : Definition) : Walk :=
  ⟨[root]⟩

/-- Take the next node off the stack and put its children on, the last one first. -/
def next? (walk : Walk) : Option (Definition × Walk) :=
  match walk.pending with
  | [] => none
  | node :: rest =>
    some (node, ⟨node.children.reverse.foldl (fun stack child => child :: stack) rest⟩)

/-- A walk is over when nothing is left to visit. -/
theorem next?_eq_none_iff {walk : Walk} : walk.next? = none ↔ walk.pending = [] := by
  unfold next?
  split <;> simp_all

/-- The children of a node come before all that was still to come. -/
theorem next?_eq_some {walk later : Walk} {node : Definition}
    (taken : walk.next? = some (node, later)) :
    ∃ rest, walk.pending = node :: rest ∧ later.pending = node.children ++ rest := by
  unfold next? at taken
  split at taken
  · cases taken
  · rename_i first rest pending
    obtain ⟨rfl, rfl⟩ := Prod.mk.inj (Option.some.inj taken)
    exact ⟨rest, pending, by simp [List.foldl_reverse]⟩

/-- A step visits one node of those that are still to come, so a walk ends. -/
theorem length_pending_lt {walk later : Walk} {node : Definition}
    (taken : walk.next? = some (node, later)) :
    (forestNodes later.pending).length < (forestNodes walk.pending).length := by
  obtain ⟨rest, before, after⟩ := next?_eq_some taken
  rw [before, after, forestNodes_append, forestNodes_cons, nodes_eq]
  simp

/-- The nodes that come until none is left. -/
def visited (walk : Walk) : List Definition :=
  match _ : walk.next? with
  | none => []
  | some (node, later) => node :: later.visited
termination_by (forestNodes walk.pending).length
decreasing_by exact length_pending_lt ‹_›

/-- **A visit with a stack goes through the trees in order,** each from its root down. -/
theorem visited_eq (walk : Walk) : walk.visited = forestNodes walk.pending := by
  induction walk using visited.induct with
  | case1 walk ended =>
      have none' : forestNodes walk.pending = [] := by rw [next?_eq_none_iff.mp ended]; rfl
      rw [visited, none']
      split
      · rfl
      · simp_all
  | case2 walk node later taken ih =>
      obtain ⟨rest, before, after⟩ := next?_eq_some taken
      have first : forestNodes walk.pending = node :: forestNodes later.pending := by
        rw [before, after, forestNodes_append, forestNodes_cons, nodes_eq, List.cons_append]
      rw [visited, first]
      split
      · simp_all
      · rename_i other others taken'
        obtain ⟨rfl, rfl⟩ := Prod.mk.inj (Option.some.inj (taken.symm.trans taken'))
        rw [ih]

end Walk

/-- The children of a root are smaller than the forest, so the listing below may go down to them. -/
theorem sizeOf_children_lt {root : Definition} {forest : List Definition} (member : root ∈ forest) :
    sizeOf root.children < sizeOf forest := by
  have smaller := List.sizeOf_lt_of_mem member
  cases root
  simp only [Definition.mk.sizeOf_spec] at *
  omega

/-- The nodes of some trees, each before its children and with its position among its siblings. -/
def located (forest : List Definition) : List (Definition × Nat) :=
  forest.zipIdx.attach.flatMap fun ⟨entry, member⟩ =>
    have := sizeOf_children_lt (List.fst_mem_of_mem_zipIdx member)
    entry :: located entry.1.children
termination_by sizeOf forest

/-- The listing with positions goes through a forest root by root, and below each root starts to
count its children from zero. -/
theorem located_eq (forest : List Definition) :
    located forest = forest.zipIdx.flatMap fun entry => entry :: located entry.1.children := by
  conv_lhs => rw [located]
  rw [List.flatMap_subtype fun _ _ => rfl, List.unattach_attach]

/-- Without the positions, the nodes of some trees are left in their order. -/
theorem map_fst_located (forest : List Definition) :
    (located forest).map Prod.fst = forestNodes forest := by
  induction forest using induction_forest with
  | step forest ih =>
      have inTree : ∀ entry ∈ forest.zipIdx,
          (entry :: located entry.1.children).map Prod.fst = entry.1.nodes := by
        intro entry member
        rw [List.map_cons, ih entry.1 (List.fst_mem_of_mem_zipIdx member), nodes_eq]
      calc
        (located forest).map Prod.fst
          = forest.zipIdx.flatMap fun entry =>
              (entry :: located entry.1.children).map Prod.fst := by
            rw [located_eq, List.map_flatMap]
        _ = forest.zipIdx.flatMap fun entry => entry.1.nodes := List.flatMap_congr inTree
        _ = (forest.zipIdx.map Prod.fst).flatMap nodes := (List.flatMap_map ..).symm
        _ = forestNodes forest := by rw [List.zipIdx_map_fst, forestNodes_eq_flatMap]

end PhpTestIndex.Definition
