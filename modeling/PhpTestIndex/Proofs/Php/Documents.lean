import PhpTestIndex.Php.Document
import PhpTestIndex.Proofs.Correspondence

/-! # Documents and how they read

Nodes of two files read alike if all that can be asked of them, their places in the files aside, has
the same answer (`PhpTestIndex.Php.Node.readsAs_iff`). A text before a node moves it in its file,
but does not change how it reads.
-/

namespace PhpTestIndex.Php

/-- The document of a text that parses is that of the tree made of the text with its tags
separated. -/
theorem eq_ofTree_of_read {text : List Char} {document : Document}
    (parsed : Document.read text = .ok document) :
    document = Document.ofTree (separateTags text) (Node.ofCode (separateTags text)) := by
  unfold Document.read at parsed
  dsimp only at parsed
  split at parsed
  · cases parsed
  · exact (Except.ok.inj parsed).symm

/-- The code of a text that parses is the text with its tags separated. -/
theorem code_of_read {text : List Char} {document : Document}
    (parsed : Document.read text = .ok document) : document.code = separateTags text := by
  rw [eq_ofTree_of_read parsed]
  rfl

/-- The tree of a text that parses is the one made of its code. -/
theorem root_of_read {text : List Char} {document : Document}
    (parsed : Document.read text = .ok document) :
    document.root = Node.ofCode document.code := by
  rw [eq_ofTree_of_read parsed]
  rfl

/-- A text parses and its document satisfies a condition, if this is checked. -/
theorem exists_document_of_check {text : List Char} (condition : Document → Prop)
    [DecidablePred condition]
    (checked : (match Document.read text with
      | .error _ => false
      | .ok document => decide (condition document)) = true) :
    ∃ document, Document.read text = .ok document ∧ condition document := by
  split at checked
  · cases checked
  · rename_i document parsed
    exact ⟨document, parsed, of_decide_eq_true checked⟩

/-- Two texts parse and their documents satisfy a condition, if this is checked. -/
theorem exists_documents_of_check {text text' : List Char} (condition : Document → Document → Prop)
    [∀ document, DecidablePred (condition document)]
    (checked : (match Document.read text, Document.read text' with
      | .ok document, .ok document' => decide (condition document document')
      | _, _ => false) = true) :
    ∃ document document', Document.read text = .ok document ∧
      Document.read text' = .ok document' ∧ condition document document' := by
  split at checked
  · rename_i document document' parsed parsed'
    exact ⟨document, document', parsed, parsed', of_decide_eq_true checked⟩
  · cases checked

mutual

/-- Two nodes of two files are of one kind, play one role and have one text, and so do their
children. -/
def Node.readsAs (code code' : List Char) : Node → Node → Bool
  | ⟨kind, role, start, stop, children⟩, other =>
    kind = other.kind && role = other.role &&
      Node.text code ⟨kind, role, start, stop, children⟩ = other.text code' &&
        siblingsReadAs code code' children other.children

/-- Two lists of siblings read alike one by one. -/
def siblingsReadAs (code code' : List Char) : List Node → List Node → Bool
  | [], [] => true
  | node :: rest, other :: others =>
    node.readsAs code code' other && siblingsReadAs code code' rest others
  | _, _ => false

end

variable {code code' : List Char}

/-- Lists of nodes read alike if their members do, in pairs. -/
theorem siblingsReadAs_iff {nodes nodes' : List Node} :
    siblingsReadAs code code' nodes nodes' ↔
      List.Forall₂ (fun node node' => node.readsAs code code' node') nodes nodes' := by
  induction nodes generalizing nodes' with
  | nil => cases nodes' <;> simp [siblingsReadAs]
  | cons node rest ih => cases nodes' <;> simp [siblingsReadAs, ih]

/-- Nodes read alike if they have one kind, one role and one text, and children that read alike. -/
theorem Node.readsAs_iff {node node' : Node} :
    node.readsAs code code' node' ↔
      node.kind = node'.kind ∧ node.role = node'.role ∧ node.text code = node'.text code' ∧
        List.Forall₂ (fun child child' => child.readsAs code code' child')
          node.children node'.children := by
  obtain ⟨kind, role, start, stop, children⟩ := node
  rw [Node.readsAs, ← siblingsReadAs_iff]
  simp [and_assoc]

namespace Node

variable {node node' : Node}

/-- Choosing children by what two nodes share keeps the children in pairs. -/
theorem forall₂_filter (alike : node.readsAs code code' node') {keeps : Node → Bool}
    (agree : ∀ {child child' : Node}, child.readsAs code code' child' →
      keeps child = keeps child') :
    List.Forall₂ (fun child child' => child.readsAs code code' child')
      (node.children.filter keeps) (node'.children.filter keeps) := by
  obtain ⟨_, _, _, children⟩ := readsAs_iff.mp alike
  exact List.rel_filter (fun _ _ related => Bool.eq_iff_iff.mp (agree related)) children

theorem forall₂_namedChildren (alike : node.readsAs code code' node') :
    List.Forall₂ (fun child child' => child.readsAs code code' child')
      node.namedChildren node'.namedChildren :=
  forall₂_filter alike fun related => by rw [(readsAs_iff.mp related).1]

theorem forall₂_childrenOf (alike : node.readsAs code code' node') (kind : Kind) :
    List.Forall₂ (fun child child' => child.readsAs code code' child')
      (node.childrenOf kind) (node'.childrenOf kind) :=
  forall₂_filter alike fun related => by rw [(readsAs_iff.mp related).1]

/-- The first nodes of two lists that read alike and satisfy a condition read alike. -/
theorem rel_find? {nodes nodes' : List Node} {keeps : Node → Bool}
    (agree : ∀ {node node' : Node}, node.readsAs code code' node' → keeps node = keeps node')
    (alike : List.Forall₂ (fun node node' => node.readsAs code code' node') nodes nodes') :
    Option.Rel (fun node node' => node.readsAs code code' node')
      (nodes.find? keeps) (nodes'.find? keeps) := by
  induction alike with
  | nil => exact .none
  | @cons first first' rest rest' related _ ih =>
      rw [List.find?_cons, List.find?_cons, ← agree related]
      by_cases kept : keeps first
      · rw [kept]
        exact .some related
      · rw [Bool.eq_false_iff.mpr kept]
        exact ih

/-- A child in a role is there in both of two nodes that read alike or in none, and reads alike. -/
theorem rel_child? (alike : node.readsAs code code' node') (role : Role) :
    Option.Rel (fun child child' => child.readsAs code code' child')
      (node.child? role) (node'.child? role) := by
  obtain ⟨_, _, _, children⟩ := readsAs_iff.mp alike
  exact rel_find? (fun related => by rw [(readsAs_iff.mp related).2.1]) children

end Node

end PhpTestIndex.Php
