import PhpTestIndex.Proofs.Php.Naming

/-! # What holds of all that a grammar makes

What holds of the tokens of a file may pass to the pieces that are made of them
(`PhpTestIndex.Php.Passes`). If it does for the kinds of nodes that a rule makes, it holds of all
that the rule reads (`PhpTestIndex.Php.Rule.keeps_read`), and so of the statements of a file
(`PhpTestIndex.Php.readStatements_keeps`). A property that a node has whenever it is of such a kind
and the nodes in it have the property is one of this sort, and holds of the tree of a file
(`PhpTestIndex.Php.holds_ofCode`).
-/

namespace PhpTestIndex.Php

/-- What holds of tokens passes to the pieces that are made of them, if the nodes are of admitted
kinds. -/
structure Passes (admits : Kind → Bool) (ofToken : Token → Prop) (ofPiece : Piece → Prop) : Prop where
  leaf : ∀ {kind : Kind} {token : Token}, admits kind = true → ofToken token →
    ofPiece (.ofToken kind token)
  missing : ∀ {sign : String} {token : Token}, admits (.missing sign) = true → ofToken token →
    ofPiece ⟨[], ⟨.missing sign, none, token.start, token.start, []⟩⟩
  titled : ∀ {piece : Piece} (role : Role), ofPiece piece → ofPiece (piece.setRole role)
  join : ∀ {kind : Kind} {pieces : List Piece}, admits kind = true →
    (∀ piece ∈ pieces, ofPiece piece) → ∀ piece ∈ Piece.join kind pieces, ofPiece piece

/-- The nodes that the rule makes itself are of admitted kinds. -/
def Rule.makes (admits : Kind → Bool) : Rule → Bool
  | .leaf _ kind => admits kind
  | .exact _ _ kind => admits kind
  | .wordExcept _ => admits .name
  | .missing sign => admits (.missing sign)
  | .both first second => first.makes admits && second.makes admits
  | .either first second => first.makes admits && second.makes admits
  | .many item => item.makes admits
  | .node kind parts => admits kind && parts.makes admits
  | .role _ rule => rule.makes admits
  | .grow first tail => first.makes admits && tail.makes admits
  | .around kind _ rest => admits kind && rest.makes admits
  | _ => true

theorem Rule.makes_all (rule : Rule) : rule.makes (fun _ => true) = true := by
  induction rule <;> simp_all [Rule.makes]

/-- The nodes of some pieces are those before the pieces and those in them. -/
theorem Piece.forall_mem_nodes {holds : Node → Prop} {pieces : List Piece}
    (leading : ∀ piece ∈ pieces, ∀ node ∈ piece.leading, holds node)
    (itself : ∀ piece ∈ pieces, holds piece.node) : ∀ node ∈ nodes pieces, holds node := by
  intro node member
  obtain ⟨piece, present, among⟩ := List.mem_flatMap.mp member
  rcases List.mem_append.mp among with before | last
  · exact leading piece present node before
  · rw [List.mem_singleton.mp last]
    exact itself piece present

/-! ### Readers -/

/-- What a reader reads has the property, and the tokens that it leaves too, if this is so of what
was read before and of the tokens. -/
def Reader.Keeps (ofToken : Token → Prop) (ofPiece : Piece → Prop) (reader : Reader) : Prop :=
  ∀ {before : List Piece} {tokens : List Token} {pieces : List Piece} {rest : List Token},
    (∀ piece ∈ before, ofPiece piece) → (∀ token ∈ tokens, ofToken token) →
    reader before tokens = some (pieces, rest) →
    (∀ token ∈ rest, ofToken token) ∧ ∀ piece ∈ pieces, ofPiece piece

section Passing

variable {admits : Kind → Bool} {ofToken : Token → Prop} {ofPiece : Piece → Prop}

namespace Reader

/-- A reader that reads nothing keeps any property. -/
theorem keeps_nothing : Keeps ofToken ofPiece fun _ tokens => some ([], tokens) := by
  intro before tokens pieces rest _ sound read
  cases read
  exact ⟨sound, by simp⟩

/-- Reading one token keeps a property that passes from the token to its piece. -/
theorem keeps_next (passes : Passes admits ofToken ofPiece) (accepts : Token → Bool) {kind : Kind}
    (admitted : admits kind = true) : (next accepts kind).Keeps ofToken ofPiece := by
  intro before tokens pieces rest _ sound read
  obtain ⟨token, rfl, _, rfl⟩ := next_eq_some read
  obtain ⟨first, others⟩ := List.forall_mem_cons.mp sound
  exact ⟨others, List.forall_mem_singleton.mpr (passes.leaf admitted first)⟩

/-- Looking at the next token makes no piece. -/
theorem keeps_check (accepts : Token → Bool) : (check accepts).Keeps ofToken ofPiece := by
  intro before tokens pieces rest _ sound read
  unfold check at read
  split at read
  · cases read
  · split at read
    · cases read
      exact ⟨sound, by simp⟩
    · cases read

/-- The piece for a missing sign is made of nothing, so it has what every empty node has. -/
theorem keeps_missing (passes : Passes admits ofToken ofPiece) {sign : String}
    (admitted : admits (.missing sign) = true) : (missing sign).Keeps ofToken ofPiece := by
  intro before tokens pieces rest _ sound read
  unfold missing at read
  split at read
  · cases read
    have last := sound _ List.mem_cons_self
    exact ⟨sound, List.forall_mem_singleton.mpr (passes.missing admitted last)⟩
  · cases read

/-- What is left after a group in brackets is left of the tokens. -/
theorem suffix_of_afterGroup {tokens rest : List Token} {depth : Nat}
    (read : afterGroup depth tokens = some rest) : rest <:+ tokens := by
  induction tokens generalizing depth with
  | nil => cases depth <;> cases read
  | cons token others ih =>
      have later {depth : Nat} (read : afterGroup depth others = some rest) :=
        (ih read).trans (List.suffix_cons token others)
      have last (ended : others = rest) : rest <:+ token :: others :=
        ended ▸ List.suffix_cons token others
      rw [afterGroup] at read
      split_ifs at read
      · exact later read
      · exact later read
      · exact last (Option.some.inj read)
      · exact later read
      · exact later read

/-- Passing over a group in brackets makes no piece and leaves a part of the tokens. -/
theorem keeps_group : group.Keeps ofToken ofPiece := by
  intro before tokens pieces rest _ sound read
  obtain ⟨after, found, same⟩ := Option.map_eq_some_iff.mp read
  cases same
  exact ⟨fun token member => sound token ((suffix_of_afterGroup found).subset member), by simp⟩

/-- Readers one after the other keep what each of them keeps. -/
theorem keeps_both {first second : Reader} (keepsFirst : first.Keeps ofToken ofPiece)
    (keepsSecond : second.Keeps ofToken ofPiece) : (both first second).Keeps ofToken ofPiece := by
  intro before tokens pieces rest known sound read
  obtain ⟨early, middle, late, readFirst, readSecond, rfl⟩ := both_eq_some read
  obtain ⟨soundMiddle, soundEarly⟩ := keepsFirst known sound readFirst
  obtain ⟨soundRest, soundLate⟩ := keepsSecond known soundMiddle readSecond
  exact ⟨soundRest, List.forall_mem_append.mpr ⟨soundEarly, soundLate⟩⟩

/-- Reading as many items as there are keeps what reading one of them keeps, by induction on the
limit of the loop. -/
theorem many_keeps {item : Reader} (keeps : item.Keeps ofToken ofPiece) {before : List Piece}
    (known : ∀ piece ∈ before, ofPiece piece) (limit : Nat) {tokens : List Token}
    (sound : ∀ token ∈ tokens, ofToken token) :
    (∀ token ∈ (many item before limit tokens).2, ofToken token) ∧
      ∀ piece ∈ (many item before limit tokens).1, ofPiece piece := by
  induction limit generalizing tokens with
  | zero => exact ⟨sound, by simp [many]⟩
  | succ limit ih =>
      rw [many]
      split
      · exact ⟨sound, by simp⟩
      · rename_i pieces rest read
        obtain ⟨soundRest, soundPieces⟩ := keeps known sound read
        split
        · obtain ⟨soundAfter, soundMore⟩ := ih soundRest
          exact ⟨soundAfter, List.forall_mem_append.mpr ⟨soundPieces, soundMore⟩⟩
        · exact ⟨sound, by simp⟩

/-- Growing a piece by tails keeps what reading one tail keeps: at every step the pieces so far are
what stands before the tail. -/
theorem grow_keeps {tail : Reader} (keeps : tail.Keeps ofToken ofPiece) (limit : Nat)
    {before : List Piece} (known : ∀ piece ∈ before, ofPiece piece) {tokens : List Token}
    (sound : ∀ token ∈ tokens, ofToken token) :
    (∀ token ∈ (grow tail limit before tokens).2, ofToken token) ∧
      ∀ piece ∈ (grow tail limit before tokens).1, ofPiece piece := by
  induction limit generalizing before tokens with
  | zero => exact ⟨sound, known⟩
  | succ limit ih =>
      rw [grow]
      split
      · exact ⟨sound, known⟩
      · rename_i pieces rest read
        obtain ⟨soundRest, soundPieces⟩ := keeps known sound read
        split
        · exact ih soundPieces soundRest
        · exact ⟨sound, known⟩

end Reader

variable (passes : Passes admits ofToken ofPiece)

include passes

/-! ### Rules -/

/-- **What is made of admitted kinds has the property.** It holds of all that is read by a rule which
makes nodes of admitted kinds, if it holds of what the parts of the grammar read. -/
theorem Rule.keeps_read {limit : Nat} {part : Part → Reader}
    (parts : ∀ name, (part name).Keeps ofToken ofPiece) (rule : Rule)
    (makes : rule.makes admits = true) : (rule.read limit part).Keeps ofToken ofPiece := by
  induction rule with
  | nothing => exact Reader.keeps_nothing
  | leaf token kind => exact Reader.keeps_next passes _ makes
  | exact token key kind => exact Reader.keeps_next passes _ makes
  | wordExcept words => exact Reader.keeps_next passes _ makes
  | closed => exact Reader.keeps_check _
  | joined => exact Reader.keeps_check _
  | missing sign => exact Reader.keeps_missing passes makes
  | group => exact Reader.keeps_group
  | both first second ihFirst ihSecond =>
      obtain ⟨makesFirst, makesSecond⟩ := Bool.and_eq_true_iff.mp makes
      exact Reader.keeps_both (ihFirst makesFirst) (ihSecond makesSecond)
  | either first second ihFirst ihSecond =>
      obtain ⟨makesFirst, makesSecond⟩ := Bool.and_eq_true_iff.mp makes
      intro before tokens pieces rest known sound read
      simp only [Rule.read] at read
      split at read
      · rename_i reading readFirst
        cases read
        exact ihFirst makesFirst known sound readFirst
      · exact ihSecond makesSecond known sound read
  | many item ih =>
      intro before tokens pieces rest known sound read
      have keeps := Reader.many_keeps (ih makes) known limit sound
      rw [Option.some.inj read] at keeps
      exact keeps
  | ahead rule _ =>
      intro before tokens pieces rest known sound read
      simp only [Rule.read] at read
      split at read
      · cases read
        exact ⟨sound, by simp⟩
      · cases read
  | absent rule _ =>
      intro before tokens pieces rest known sound read
      simp only [Rule.read] at read
      split at read
      · cases read
      · cases read
        exact ⟨sound, by simp⟩
  | node kind parts ih =>
      obtain ⟨admitted, makesParts⟩ := Bool.and_eq_true_iff.mp makes
      intro before tokens pieces rest known sound read
      obtain ⟨inner, readParts, rfl⟩ := read_node_eq_some read
      obtain ⟨soundRest, soundInner⟩ := ih makesParts known sound readParts
      exact ⟨soundRest, passes.join admitted soundInner⟩
  | role given rule ih =>
      intro before tokens pieces rest known sound read
      obtain ⟨inner, readRule, rfl⟩ := read_role_eq_some read
      obtain ⟨soundRest, soundInner⟩ := ih makes known sound readRule
      refine ⟨soundRest, List.forall_mem_map.mpr ?_⟩
      intro piece member
      exact passes.titled given (soundInner piece member)
  | grow first tail ihFirst ihTail =>
      obtain ⟨makesFirst, makesTail⟩ := Bool.and_eq_true_iff.mp makes
      intro before tokens pieces rest known sound read
      simp only [Rule.read] at read
      split at read
      · cases read
      · rename_i early middle readFirst
        obtain ⟨soundMiddle, soundEarly⟩ := ihFirst makesFirst known sound readFirst
        have keeps := Reader.grow_keeps (ihTail makesTail) limit soundEarly soundMiddle
        rw [Option.some.inj read] at keeps
        exact keeps
  | around kind given rule ih =>
      obtain ⟨admitted, makesRule⟩ := Bool.and_eq_true_iff.mp makes
      intro before tokens pieces rest known sound read
      simp only [Rule.read] at read
      split at read
      · cases read
      · rename_i late after readRule
        obtain ⟨soundRest, soundLate⟩ := ih makesRule known sound readRule
        cases read
        refine ⟨soundRest, passes.join admitted (List.forall_mem_append.mpr ⟨?_, soundLate⟩)⟩
        cases given with
        | none => exact known
        | some title =>
            refine List.forall_mem_map.mpr ?_
            intro piece member
            exact passes.titled title (known piece member)
  | part name => exact parts name

/-- The parts of the grammar keep the property, however deep they are nested. -/
theorem keeps_grammar (makes : ∀ part, (grammar part).makes admits = true) (limit depth : Nat)
    (part : Part) : (grammar.read limit depth part).Keeps ofToken ofPiece := by
  induction depth generalizing part with
  | zero =>
      intro before tokens pieces rest _ _ read
      cases read
  | succ depth ih => exact Rule.keeps_read passes ih (grammar part) (makes part)

/-- The statements of a file have what passes from tokens to pieces, if the grammar makes admitted
nodes alone. -/
theorem readStatements_keeps (makes : ∀ part, (grammar part).makes admits = true)
    {tokens : List Token} (sound : ∀ token ∈ tokens, ofToken token) :
    (∀ token ∈ (readStatements tokens).2, ofToken token) ∧
      ∀ piece ∈ (readStatements tokens).1, ofPiece piece :=
  Reader.many_keeps (keeps_grammar passes makes _ _ .statement) (by simp) _ sound

/-- What stands before the first statement has what passes from tokens to pieces. -/
theorem readHeading_keeps (text : admits .text = true) (tag : admits .openingTag = true)
    {tokens : List Token} (sound : ∀ token ∈ tokens, ofToken token) :
    (∀ token ∈ (readHeading tokens).2, ofToken token) ∧
      ∀ piece ∈ (readHeading tokens).1, ofPiece piece := by
  induction tokens with
  | nil => exact ⟨sound, by simp [readHeading]⟩
  | cons token rest ih =>
      obtain ⟨first, others⟩ := List.forall_mem_cons.mp sound
      rw [readHeading]
      split
      · obtain ⟨soundRest, pieces⟩ := ih others
        exact ⟨soundRest, List.forall_mem_cons.mpr ⟨passes.leaf text first, pieces⟩⟩
      · exact ⟨others, List.forall_mem_singleton.mpr (passes.leaf tag first)⟩
      · exact ⟨sound, by simp⟩

end Passing

/-! ### Nodes -/

/-- A node of an admitted kind has the property if the nodes in it have it, and those in any node that
has it do, too; the role of a node does not count. -/
structure Builds (admits : Kind → Bool) (holds : Node → Prop) : Prop where
  around : ∀ {node : Node}, admits node.kind = true → (∀ child ∈ node.children, holds child) →
    holds node
  child : ∀ {node : Node}, holds node → ∀ child ∈ node.children, holds child
  titled : ∀ {node : Node} (role : Role), holds node → holds { node with role := some role }

/-- What stands before the token has the property. -/
def Token.LeadingHold (holds : Node → Prop) (token : Token) : Prop :=
  ∀ node ∈ token.leading, holds node

/-- A piece has the property: its node, and what stands before it. -/
structure Piece.Hold (holds : Node → Prop) (piece : Piece) : Prop where
  leading : ∀ node ∈ piece.leading, holds node
  node : holds piece.node

section Building

variable {admits : Kind → Bool} {holds : Node → Prop}

/-- The nodes of pieces that have a property have it, those in front of the pieces included. -/
theorem Piece.holds_of_mem_nodes {pieces : List Piece}
    (hold : ∀ piece ∈ pieces, piece.Hold holds) : ∀ node ∈ nodes pieces, holds node :=
  forall_mem_nodes (fun piece member => (hold piece member).leading)
    fun piece member => (hold piece member).node

theorem Builds.leaf (builds : Builds admits holds) {node : Node}
    (admitted : admits node.kind = true) (empty : node.children = []) : holds node :=
  builds.around admitted (by simp [empty])

/-- A property that is built up from the children of nodes passes from tokens to pieces. -/
theorem Builds.passes (builds : Builds admits holds) :
    Passes admits (Token.LeadingHold holds) (Piece.Hold holds) where
  leaf := fun admitted leading => ⟨leading, builds.leaf admitted rfl⟩
  missing := fun admitted _ => ⟨by simp, builds.leaf admitted rfl⟩
  titled := fun role hold => ⟨hold.leading, builds.titled role hold.node⟩
  join := by
    intro kind pieces admitted hold
    cases pieces with
    | nil => simp [Piece.join]
    | cons first rest =>
        obtain ⟨holdFirst, holdRest⟩ := List.forall_mem_cons.mp hold
        simp only [Piece.join, List.forall_mem_singleton]
        refine ⟨holdFirst.leading, builds.around admitted ?_⟩
        exact List.forall_mem_cons.mpr ⟨holdFirst.node, Piece.holds_of_mem_nodes holdRest⟩

variable (builds : Builds admits holds)

include builds

/-- What is left of a file becomes faults with nothing in them. -/
theorem holds_of_mem_remainder (fault : admits .error = true) {tokens : List Token}
    (sound : ∀ token ∈ tokens, token.LeadingHold holds) : ∀ node ∈ remainder tokens, holds node := by
  cases tokens with
  | nil => simp [remainder]
  | cons token rest =>
      have leading : ∀ node ∈ token.leading, holds node := sound token List.mem_cons_self
      rw [remainder]
      split
      · simp
      · split
        · exact leading
        · exact List.forall_mem_append.mpr
            ⟨leading, List.forall_mem_singleton.mpr (builds.leaf fault rfl)⟩

/-- Putting a fault in the place of a missing sign keeps the property. -/
theorem hold_settleMissing (fault : admits .error = true) {piece : Piece}
    (hold : piece.Hold holds) : (settleMissing piece).Hold holds := by
  unfold settleMissing
  dsimp only
  split
  · have children := builds.child hold.node
    exact ⟨hold.leading, builds.around fault children⟩
  · exact hold

/-- **What is made of admitted kinds holds of files.** The property holds of the syntax tree of a
text, if it holds of what stands between the tokens of the text. -/
theorem holds_ofCode (makes : ∀ part, (grammar part).makes admits = true)
    (others : ∀ kind ∈ [Kind.error, .text, .openingTag, .program], admits kind = true)
    {code : List Char} (sound : ∀ token ∈ Token.read code, token.LeadingHold holds) :
    holds (Node.ofCode code) := by
  have fault : admits .error = true := others .error (by simp)
  obtain ⟨soundRest, heading⟩ := readHeading_keeps builds.passes (others .text (by simp))
    (others .openingTag (by simp)) sound
  obtain ⟨soundLeft, statements⟩ := readStatements_keeps builds.passes makes soundRest
  refine builds.around (others .program (by simp)) (List.forall_mem_append.mpr ⟨?_, ?_⟩)
  · refine Piece.holds_of_mem_nodes (List.forall_mem_append.mpr ⟨heading, ?_⟩)
    exact List.forall_mem_map.mpr fun piece member =>
      hold_settleMissing builds fault (statements piece member)
  · exact holds_of_mem_remainder builds fault soundLeft

end Building

end PhpTestIndex.Php
