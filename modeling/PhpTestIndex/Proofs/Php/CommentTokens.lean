import PhpTestIndex.Proofs.Php.Making
import PhpTestIndex.Proofs.Php.Preorder

/-! # Comments are tokens

No rule of the grammar makes a comment, so the comments of a syntax tree are those that stand between
the tokens of the file. Each of them covers some text and has no nodes in it
(`PhpTestIndex.Php.commentsAreTokens_ofCode`).
-/

namespace PhpTestIndex.Php

/-- The node covers some text, and there are no nodes in it. -/
structure Node.IsToken (node : Node) : Prop where
  leaf : node.children = []
  nonempty : node.start.offset < node.stop.offset

/-- Every comment in the tree is a token. -/
def Node.CommentsAreTokens (root : Node) : Prop :=
  ∀ node ∈ root.nodes, node.kind = .comment → node.IsToken

namespace Node

variable {node : Node}

/-- If every comment in a tree is a token, the same holds in every child. -/
theorem CommentsAreTokens.child {root child : Node} (tokens : root.CommentsAreTokens)
    (among : child ∈ root.children) : child.CommentsAreTokens := by
  intro node member
  refine tokens node ?_
  rw [nodes_eq]
  exact List.mem_cons_of_mem _ (List.mem_flatMap.mpr ⟨child, among, member⟩)

/-- The comments in a tree are the root, if it is one, and those in its children. -/
theorem commentsAreTokens_iff : node.CommentsAreTokens ↔
    (node.kind = .comment → node.IsToken) ∧
      ∀ child ∈ node.children, child.CommentsAreTokens := by
  rw [CommentsAreTokens, nodes_eq, List.forall_mem_cons]
  refine and_congr_right fun _ => ?_
  constructor
  · intro below child among inner member
    exact below inner (List.mem_flatMap.mpr ⟨child, among, member⟩)
  · intro each inner member
    obtain ⟨child, among, inChild⟩ := List.mem_flatMap.mp member
    exact each child among inner inChild

theorem IsToken.commentsAreTokens (token : node.IsToken) : node.CommentsAreTokens :=
  commentsAreTokens_iff.mpr ⟨fun _ => token, by simp [token.leaf]⟩

end Node

/-- Of any kind but that of comments, a node is made of its children. -/
theorem builds_commentsAreTokens :
    Builds (fun kind => kind ≠ .comment) Node.CommentsAreTokens where
  around := by
    intro node other children
    exact Node.commentsAreTokens_iff.mpr
      ⟨fun comment => absurd comment (of_decide_eq_true other), children⟩
  child := fun tokens _ among => tokens.child among
  titled := by
    intro node role tokens
    obtain ⟨itself, children⟩ := Node.commentsAreTokens_iff.mp tokens
    refine Node.commentsAreTokens_iff.mpr ⟨fun comment => ?_, children⟩
    obtain ⟨leaf, nonempty⟩ := itself comment
    exact ⟨leaf, nonempty⟩

/-- No part of the grammar makes a comment. -/
theorem grammar_makes_noComment (part : Part) :
    (grammar part).makes (fun kind => kind ≠ .comment) = true := by
  cases part <;> decide

namespace Token

/-- Skipping some of the characters that are left moves a cursor forward. -/
theorem Cursor.lt_skip {cursor : Cursor} (more : cursor.rest ≠ []) {count : Nat}
    (some' : count ≠ 0) : cursor.point.offset < (cursor.skip count).point.offset := by
  obtain ⟨c, rest, left⟩ := List.exists_cons_of_ne_nil more
  obtain ⟨fewer, rfl⟩ := Nat.exists_eq_succ_of_ne_zero some'
  have positive := c.utf8Size_pos
  rw [Cursor.offset_skip, left, List.take_succ_cons, byteLength_cons]
  omega

/-- What stands between two tokens, white space aside, covers some text. -/
theorem isToken_of_mem_readTrivia {fuel : Nat} {cursor : Cursor} {node : Node}
    (member : node ∈ (readTrivia fuel cursor).nodes) : node.IsToken := by
  induction fuel generalizing cursor with
  | zero => cases member
  | succ fuel ih =>
      rw [readTrivia] at member
      cases lexeme : triviaLexeme cursor.rest with
      | mk kind length =>
          rw [lexeme] at member
          dsimp only at member
          split at member
          · cases member
          · rename_i some'
            cases kind with
            | none => exact ih member
            | some kind =>
                rcases List.mem_cons.mp member with rfl | later
                · have more : cursor.rest ≠ [] := by
                    intro nothing
                    rw [nothing] at lexeme
                    cases lexeme
                  exact ⟨rfl, Cursor.lt_skip more some'⟩
                · exact ih later

/-- Before each token stand tokens only. -/
theorem leading_isToken_of_mem_readFrom {fuel : Nat} {opened : List Open} {last : Point}
    {cursor : Cursor} {token : Token} (member : token ∈ readFrom fuel opened last cursor) :
    ∀ node ∈ token.leading, node.IsToken := by
  induction fuel generalizing opened last cursor with
  | zero =>
      rw [List.mem_singleton.mp member]
      simp [endOfFile]
  | succ fuel ih =>
      rw [readFrom] at member
      generalize read : (if isCode opened then readTrivia (fuel + 1) cursor
        else ⟨[], false, cursor⟩) = trivia at member
      have leading : ∀ node ∈ trivia.nodes, node.IsToken := by
        rw [← read]
        split
        · exact fun node => isToken_of_mem_readTrivia
        · simp
      dsimp only at member
      split at member
      · rw [List.mem_singleton.mp member]
        exact leading
      · split at member
        · rcases List.mem_cons.mp member with rfl | ending
          · exact leading
          · rw [List.mem_singleton.mp ending]
            simp [endOfFile]
        · rcases List.mem_cons.mp member with rfl | later
          · exact leading
          · exact ih later

/-- What the lexer puts in front of a token, comments included, has no children. -/
theorem leading_isToken_of_mem_read {code : List Char} {token : Token}
    (member : token ∈ read code) : ∀ node ∈ token.leading, node.IsToken := by
  rw [read] at member
  rcases List.mem_append.mp member with text | fromTag
  · split at text
    · rw [List.mem_singleton.mp text]
      simp [ofStretch]
    · cases text
  · split at fromTag
    · rw [List.mem_singleton.mp fromTag]
      simp [endOfFile]
    · rcases List.mem_cons.mp fromTag with rfl | later
      · simp [ofStretch]
      · exact leading_isToken_of_mem_readFrom later

end Token

/-- **Comments are tokens.** In the syntax tree of every text, each comment covers some text, and
there are no nodes in it. -/
theorem commentsAreTokens_ofCode (code : List Char) : (Node.ofCode code).CommentsAreTokens :=
  holds_ofCode builds_commentsAreTokens grammar_makes_noComment (by decide)
    fun _ member node among =>
      (Token.leading_isToken_of_mem_read member node among).commentsAreTokens

end PhpTestIndex.Php
