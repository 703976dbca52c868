import PhpTestIndex.Proofs.Php.CommentLookup
import PhpTestIndex.Proofs.Php.Documents
import PhpTestIndex.Proofs.PhpUnit.Declared

/-! # The declarations that are asked for documentation

A class or a member of a class is asked for its documentation together with the last named one of the
siblings before it (`PhpTestIndex.PhpUnit.hasPlaced_of_mem_declaredClasses`,
`PhpTestIndex.Php.Node.hasPlaced_of_mem_placedChildren`). In every file that parses, its documentation
is therefore the comment directly before it, if there is one
(`PhpTestIndex.PhpUnit.documentation_found`).
-/

namespace PhpTestIndex.Php

namespace Node

variable {root node : Node}

/-- The last of some siblings is the last named one if it is named. -/
theorem lastNamed_concat (siblings : List Node) (node : Node) :
    lastNamed (siblings ++ [node]) = if node.kind.isNamed then some node else lastNamed siblings := by
  unfold lastNamed
  split <;> simp_all

/-- What stands before a placed node is the node before it in the list, or what stands before the
list. -/
theorem exists_append_of_mem_place {before : Option Node} {nodes : List Node} {placed : Placed}
    (member : placed ∈ place before nodes) :
    ∃ earlier later, nodes = earlier ++ placed.node :: later ∧
      placed.before = earlier.getLast?.or before := by
  induction nodes generalizing before with
  | nil => cases member
  | cons first rest ih =>
      rcases List.mem_cons.mp member with rfl | further
      · exact ⟨[], rest, rfl, rfl⟩
      · obtain ⟨earlier, later, rfl, follows⟩ := ih further
        refine ⟨first :: earlier, later, rfl, ?_⟩
        rw [follows, List.getLast?_cons]
        cases earlier.getLast? <;> rfl

/-- The named children of a node stand in the tree where they are placed. -/
theorem hasPlaced_of_mem_placedChildren (inside : root.Inside node) {placed : Placed}
    (member : placed ∈ node.placedChildren) : root.HasPlaced placed := by
  obtain ⟨earlier, later, named, follows⟩ := exists_append_of_mem_place member
  obtain ⟨front, back, children, rfl, tail⟩ := List.filter_eq_append_iff.mp named
  obtain ⟨skipped, others, rfl, unnamed, _⟩ := List.filter_eq_cons_iff.mp tail
  have before : placed.before = lastNamed (front ++ skipped) := by
    have nothing : (skipped.filter fun sibling => sibling.kind.isNamed) = [] :=
      List.filter_eq_nil_iff.mpr unnamed
    rw [follows, lastNamed, List.filter_append, nothing, List.append_nil, Option.or_none]
  rw [← List.append_assoc] at children
  obtain ⟨_, child⟩ := placed
  cases before
  exact .child inside children

end Node

end PhpTestIndex.Php

namespace PhpTestIndex.PhpUnit

section Classes

variable {document : Php.Document} {root : Php.Node} {declared : Declared}

/-- A class is declared by the declaration that it was found at. -/
theorem declaration_of_mem_declaredClass {inNamespace : Option String} {declaration : Php.Placed}
    (member : declared ∈ declaredClass document inNamespace declaration) :
    declared.declaration = declaration := by
  unfold declaredClass at member
  split at member
  · cases member
  · rw [List.mem_singleton.mp member]

mutual

/-- Every class declared in a statement stands in the tree behind the sibling that it is listed
with. -/
theorem hasPlaced_of_mem_declaredIn {inNamespace : Option String} {before : Option Php.Node} :
    ∀ {statement : Php.Node}, root.HasPlaced ⟨before, statement⟩ → root.Inside statement →
      declared ∈ declaredIn document inNamespace before statement →
      root.HasPlaced declared.declaration
  | ⟨kind, role, start, stop, children⟩, stands, inside, member => by
    unfold declaredIn at member
    split at member
    · rw [declaration_of_mem_declaredClass member]
      exact stands
    · exact hasPlaced_of_mem_declaredInBody (fun _ among => inside.child among) member
    · cases member

/-- Among statements, what stands before a class is the last named of the earlier ones. -/
theorem hasPlaced_of_mem_declaredAmong {inNamespace : Option String} {parent : Php.Node}
    (inside : root.Inside parent) :
    ∀ {statements earlier : List Php.Node}, parent.children = earlier ++ statements →
      declared ∈ declaredAmong document inNamespace (Php.Node.lastNamed earlier) statements →
      root.HasPlaced declared.declaration
  | [], _, _, member => by cases member
  | statement :: rest, earlier, children, member => by
    rw [declaredAmong] at member
    rcases List.mem_append.mp member with here | later
    · have among : statement ∈ parent.children := by
        rw [children]
        exact List.mem_append_right _ List.mem_cons_self
      exact hasPlaced_of_mem_declaredIn (.child inside children) (inside.child among) here
    · rw [Survey.nextBefore, ← Php.Node.lastNamed_concat] at later
      refine hasPlaced_of_mem_declaredAmong inside ?_ later
      rw [children, List.append_assoc]
      rfl

/-- Every class declared in the body of a namespace stands in the tree where it is listed. -/
theorem hasPlaced_of_mem_declaredInBody {inNamespace : Option String} :
    ∀ {children : List Php.Node}, (∀ child ∈ children, root.Inside child) →
      declared ∈ declaredInBody document inNamespace children →
      root.HasPlaced declared.declaration
  | [], _, member => by cases member
  | ⟨kind, role, start, stop, inner⟩ :: rest, inside, member => by
    obtain ⟨here, others⟩ := List.forall_mem_cons.mp inside
    rw [declaredInBody] at member
    split at member
    · exact hasPlaced_of_mem_declaredAmong here (List.nil_append _).symm member
    · exact hasPlaced_of_mem_declaredInBody others member

end

/-- The classes that a file declares stand in its tree where they are placed. -/
theorem hasPlaced_of_mem_declaredClasses (member : declared ∈ declaredClasses document) :
    document.root.HasPlaced declared.declaration :=
  hasPlaced_of_mem_declaredAmong .root (List.nil_append _).symm member

/-- Every candidate stands in the tree behind the sibling that its docblock is looked for in. -/
theorem hasPlaced_of_mem_candidates {context : Context} {candidate : Candidate}
    (member : candidate ∈ (Survey.ofDocument document context.restart).candidates) :
    document.root.HasPlaced candidate.declaration := by
  have declared : candidate.declared ∈ declaredClasses document := by
    rw [← Survey.declared_ofDocument document context]
    exact List.mem_map_of_mem member
  exact hasPlaced_of_mem_declaredClasses declared

end Classes

/-- **Documentation is found.** The document of a syntax tree in order, whose comments are tokens,
finds its comments. The tree of every text is of this form, and so all that is asked about the
documentation of its classes and their members is answered from the comment directly before. -/
theorem documentation_found :
    (∀ (code : List Char) (root : Php.Node), root.Ordered → root.CommentsAreTokens →
      (Php.Document.ofTree code root).FindsComments) ∧
    ∀ (text : List Char) (document : Php.Document), Php.Document.read text = .ok document →
      document.FindsComments ∧
      (∀ (context : Context),
        ∀ candidate ∈ (Survey.ofDocument document context.restart).candidates,
          document.root.HasPlaced candidate.declaration) ∧
      ∀ (body : Php.Node), document.root.Inside body → ∀ member ∈ body.placedChildren,
        document.root.HasPlaced member := by
  refine ⟨fun code root => Php.Document.findsComments_ofTree, fun text document parsed =>
    ⟨?_, fun context candidate => hasPlaced_of_mem_candidates, fun body inside member =>
      Php.Node.hasPlaced_of_mem_placedChildren inside⟩⟩
  rw [Php.eq_ofTree_of_read parsed]
  exact Php.Document.findsComments_ofTree (Php.ordered_ofCode _) (Php.commentsAreTokens_ofCode _)

/-- A class with documentation and comments before its methods. -/
def commented : List Char :=
  "<?php\n/** A */\nclass ATest \x7b\n/* b */ function testB() \x7b\x7d\n// c\n\x7d\n".toList

/-- Three comments, of which one stands directly before a class and documents it. -/
theorem documentation_found_commented :
    ∃ document, Php.Document.read commented = .ok document ∧
      document.root.Ordered ∧ document.root.CommentsAreTokens ∧
      (Php.Document.ofTree document.code document.root).FindsComments ∧
      document.FindsComments ∧
      (document.comments.toList.map fun comment => comment.span.start.offset) = [6, 29, 57] ∧
      (declaredClasses document).map (fun declared => document.docBlock? declared.declaration) =
        [some "/** A */".toList] := by
  obtain ⟨document, parsed, begin, documented⟩ :=
    @Php.exists_document_of_check commented
      (fun document =>
        (document.comments.toList.map fun comment => comment.span.start.offset) = [6, 29, 57] ∧
          (declaredClasses document).map
            (fun declared => document.docBlock? declared.declaration) =
              [some "/** A */".toList])
      _ (by decide +kernel)
  have ordered : document.root.Ordered := by
    rw [Php.root_of_read parsed]
    exact Php.ordered_ofCode _
  have tokens : document.root.CommentsAreTokens := by
    rw [Php.root_of_read parsed]
    exact Php.commentsAreTokens_ofCode _
  exact ⟨document, parsed, ordered, tokens,
    documentation_found.1 document.code document.root ordered tokens,
    (documentation_found.2 commented document parsed).1, begin, documented⟩

end PhpTestIndex.PhpUnit
