import PhpTestIndex.Php.Document
import PhpTestIndex.Proofs.Php.Preorder

/-! # The first fault of a file

The search for the first fault of a syntax tree does not enter a subtree that has none. It still
finds the fault that comes first among all nodes of the tree
(`PhpTestIndex.Php.Node.firstError?_eq_find?`), since what it leaves out has no fault among its
nodes (`PhpTestIndex.Php.Node.hasError_iff`). So a file is reported with the first fault of its tree
(`PhpTestIndex.Php.firstError?_isFirstFault`).
-/

namespace PhpTestIndex.Php

namespace Node

/-- Some nodes have a fault in them if one of them has. -/
theorem siblingsHaveError_eq_any (siblings : List Node) :
    siblingsHaveError siblings = siblings.any hasError := by
  induction siblings with
  | nil => rfl
  | cons node rest ih => rw [siblingsHaveError, ih, List.any_cons]

/-- A node has a fault in it if it is one or if one of its children has one in it. -/
theorem hasError_eq (node : Node) :
    node.hasError = (node.kind.isFault || node.children.any hasError) := by
  rw [← siblingsHaveError_eq_any]
  cases node
  rfl

/-- A fault is the first fault in itself; in any other node the children are searched in order. -/
theorem firstError?_eq (node : Node) :
    node.firstError? =
      if node.kind.isFault then some node else siblingsFirstError? node.children := by
  cases node
  rfl

/-- A tree has a fault exactly if one of its nodes is a fault. -/
theorem hasError_iff {root : Node} :
    root.hasError = true ↔ ∃ node ∈ root.nodes, node.kind.isFault = true := by
  induction root using induction_children with
  | step root ih =>
      have below : root.children.any hasError = true ↔
          ∃ node ∈ root.children.flatMap nodes, node.kind.isFault = true := by
        rw [List.any_eq_true]
        constructor
        · rintro ⟨child, among, faulty⟩
          obtain ⟨node, inChild, isFault⟩ := (ih child among).mp faulty
          exact ⟨node, List.mem_flatMap.mpr ⟨child, among, inChild⟩, isFault⟩
        · rintro ⟨node, member, isFault⟩
          obtain ⟨child, among, inChild⟩ := List.mem_flatMap.mp member
          exact ⟨child, among, (ih child among).mpr ⟨node, inChild, isFault⟩⟩
      rw [hasError_eq, Bool.or_eq_true, below, nodes_eq]
      simp only [List.mem_cons, exists_eq_or_imp]

/-- In a tree without a fault there is nothing to be found. -/
theorem find?_nodes_eq_none {root : Node} (sound : root.hasError = false) :
    (root.nodes.find? fun node => node.kind.isFault) = none := by
  refine List.find?_eq_none.mpr fun node member isFault => ?_
  have faulty : root.hasError = true := hasError_iff.mpr ⟨node, member, isFault⟩
  rw [sound] at faulty
  cases faulty

/-- If the search in each of some nodes finds the first fault among all its nodes, then the search
over the siblings does, although it passes over those that have none in them. -/
theorem siblingsFirstError?_eq_find? {siblings : List Node}
    (each : ∀ node ∈ siblings,
      node.firstError? = node.nodes.find? fun inner => inner.kind.isFault) :
    siblingsFirstError? siblings =
      (siblings.flatMap nodes).find? fun inner => inner.kind.isFault := by
  induction siblings with
  | nil => rfl
  | cons node rest ih =>
      obtain ⟨here, later⟩ := List.forall_mem_cons.mp each
      rw [siblingsFirstError?, List.flatMap_cons, List.find?_append, ← ih later, here]
      cases faulty : node.hasError with
      | true =>
          rw [if_pos rfl]
          cases node.nodes.find? fun inner => inner.kind.isFault <;> rfl
      | false =>
          -- The sibling is left out: a search through its nodes would find nothing either.
          rw [find?_nodes_eq_none faulty, Option.none_or]
          rfl

/-- **Leaving out subtrees without a fault misses none.** The search that enters only subtrees with a
fault finds what a search through all nodes finds. -/
theorem firstError?_eq_find? (root : Node) :
    root.firstError? = root.nodes.find? fun node => node.kind.isFault := by
  induction root using induction_children with
  | step root ih =>
      rw [firstError?_eq, nodes_eq, List.find?_cons]
      cases root.kind.isFault with
      | true => rfl
      | false => exact siblingsFirstError?_eq_find? ih

/-- The node is a fault, and no fault comes before it in the tree. -/
structure IsFirstFault (root fault : Node) : Prop where
  isFault : fault.kind.isFault = true
  first : ∃ before after, root.nodes = before ++ fault :: after ∧
    ∀ earlier ∈ before, earlier.kind.isFault = false

/-- The search finds a node if and only if the node is a fault before which, in order, there is no
other. -/
theorem firstError?_eq_some_iff {root fault : Node} :
    root.firstError? = some fault ↔ root.IsFirstFault fault := by
  rw [firstError?_eq_find?, List.find?_eq_some_iff_append]
  constructor
  · rintro ⟨isFault, before, after, split, sound⟩
    exact ⟨isFault, before, after, split, fun earlier member => by simpa using sound earlier member⟩
  · rintro ⟨isFault, before, after, split, sound⟩
    exact ⟨isFault, before, after, split, fun earlier member => by simp [sound earlier member]⟩

end Node

/-- A text is not read exactly if its tree has a first fault, and that is the one reported. -/
theorem read_eq_error_iff {text : List Char} {error : SyntaxError} :
    Document.read text = .error error ↔
      ∃ fault, (Node.ofCode (separateTags text)).firstError? = some fault ∧
        error = .ofFault fault := by
  unfold Document.read
  dsimp only
  cases (Node.ofCode (separateTags text)).firstError? with
  | none => simp
  | some fault => simp [eq_comm]

/-- **The fault that is reported is the first one.** A tree counts as faulty exactly if the root or a
node below it is a fault. Then, and only then, a fault is found, and it is the first one of all
nodes of the tree, a parent before its children and siblings in order: the same that is found
without leaving out any subtree. A text is not read exactly if the tree made of it has such a fault,
and the error is made of that fault. -/
theorem firstError?_isFirstFault :
    (∀ root : Node,
      (root.hasError = true ↔ ∃ node, root.Inside node ∧ node.kind.isFault = true) ∧
      (root.firstError?.isSome = true ↔ root.hasError = true) ∧
      (root.firstError? = root.nodes.find? fun node => node.kind.isFault) ∧
      ∀ fault, root.firstError? = some fault ↔ root.IsFirstFault fault) ∧
    ∀ (text : List Char) (error : SyntaxError),
      Document.read text = .error error ↔
        ∃ fault, (Node.ofCode (separateTags text)).IsFirstFault fault ∧
          error = .ofFault fault := by
  refine ⟨fun root => ⟨?_, ?_, root.firstError?_eq_find?, fun fault => ?_⟩, fun text error => ?_⟩
  · rw [Node.hasError_iff]
    simp only [Node.mem_nodes_iff]
  · rw [Node.isSome_firstError?]
  · exact Node.firstError?_eq_some_iff
  · rw [read_eq_error_iff]
    simp only [Node.firstError?_eq_some_iff]

end PhpTestIndex.Php
