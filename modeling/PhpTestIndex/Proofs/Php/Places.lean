import PhpTestIndex.Proofs.Php.Making
import PhpTestIndex.Proofs.Php.Order

/-! # The places of nodes

Every node of the syntax tree of a file starts and ends between two characters
(`PhpTestIndex.Php.placed_ofCode`), so it has the text that stands between its start and its end
(`PhpTestIndex.Php.exists_text_of_placed`). A token starts and ends where a cursor has stood, and no
rule makes up a place: a node starts with the first of its pieces and ends with the last.
-/

namespace PhpTestIndex.Php

/-- The offset lies between two characters of a text, before the first one or after the last. -/
def IsPlace (code : List Char) (offset : Nat) : Prop :=
  ∃ before after, code = before ++ after ∧ byteLength before = offset

/-- The nodes of a tree start and end between characters. -/
inductive Node.IsPlaced (code : List Char) : Node → Prop
  | mk {node : Node} (start : IsPlace code node.start.offset)
      (stop : IsPlace code node.stop.offset)
      (children : ∀ child ∈ node.children, Node.IsPlaced code child) : Node.IsPlaced code node

variable {code : List Char}

namespace Node.IsPlaced

variable {node : Node}

/-- A node that is placed starts between characters. -/
theorem start (placed : node.IsPlaced code) : IsPlace code node.start.offset := by
  cases placed with
  | mk start _ _ => exact start

/-- A node that is placed ends between characters. -/
theorem stop (placed : node.IsPlaced code) : IsPlace code node.stop.offset := by
  cases placed with
  | mk _ stop _ => exact stop

/-- What stands in a node that is placed is placed. -/
theorem child {child : Node} (placed : node.IsPlaced code) (member : child ∈ node.children) :
    child.IsPlaced code := by
  cases placed with
  | mk _ _ children => exact children child member

/-- A node with nothing in it is placed if it starts and ends between characters. -/
theorem of_leaf (start : IsPlace code node.start.offset) (stop : IsPlace code node.stop.offset)
    (leaf : node.children = []) : node.IsPlaced code :=
  .mk start stop (by simp [leaf])

/-- The kind and the role of a node do not count. -/
theorem of_same {other : Node} (placed : node.IsPlaced code) (start : other.start = node.start)
    (stop : other.stop = node.stop) (children : other.children = node.children) :
    other.IsPlaced code := by
  refine .mk (start ▸ placed.start) (stop ▸ placed.stop) ?_
  intro child member
  rw [children] at member
  exact placed.child member

end Node.IsPlaced

/-! ### Tokens -/

/-- A token and what stands before it start and end between characters. -/
structure Token.IsPlaced (code : List Char) (token : Token) : Prop where
  start : IsPlace code token.start.offset
  stop : IsPlace code token.stop.offset
  leading : ∀ node ∈ token.leading, node.IsPlaced code

namespace Token

theorem Cursor.StandsAfter.isPlace {before : List Char} {cursor : Cursor}
    (stands : cursor.StandsAfter code before) : IsPlace code cursor.point.offset :=
  ⟨before, cursor.rest, stands.code, stands.offset.symm⟩

/-- Blanks and comments before a token start and end between characters, by induction on the fuel.
-/
theorem placed_readTrivia (fuel : Nat) {before : List Char} {cursor : Cursor}
    (stands : cursor.StandsAfter code before) :
    ∀ node ∈ (readTrivia fuel cursor).nodes, node.IsPlaced code := by
  induction fuel generalizing before cursor with
  | zero => simp [readTrivia]
  | succ fuel ih =>
      rw [readTrivia]
      rcases triviaLexeme cursor.rest with ⟨kind, length⟩
      dsimp only
      split
      · simp
      · have later := ih (stands.skip length)
        cases kind with
        | none => exact later
        | some kind =>
            refine List.forall_mem_cons.mpr ⟨?_, later⟩
            exact .of_leaf stands.isPlace (stands.skip length).isPlace rfl

theorem placed_endOfFile {trivia : Trivia} {opened : List Open} {last : Point}
    (start : IsPlace code last.offset) (stop : IsPlace code trivia.after.point.offset)
    (leading : ∀ node ∈ trivia.nodes, node.IsPlaced code) :
    (endOfFile trivia opened last).IsPlaced code :=
  ⟨start, stop, leading⟩

/-- All tokens from a cursor on are placed: every cut moves the cursor over whole characters. -/
theorem placed_readFrom (fuel : Nat) {opened : List Open} {before : List Char} {cursor : Cursor}
    (stands : cursor.StandsAfter code before) :
    ∀ token ∈ readFrom fuel opened cursor.point cursor, token.IsPlaced code := by
  induction fuel generalizing opened before cursor with
  | zero =>
      refine List.forall_mem_singleton.mpr ?_
      exact placed_endOfFile stands.isPlace stands.isPlace (by simp)
  | succ fuel ih =>
      rw [readFrom]
      generalize read : (if isCode opened then readTrivia (fuel + 1) cursor
        else ⟨[], false, cursor⟩) = trivia
      obtain ⟨leading, reached, after⟩ : (∀ node ∈ trivia.nodes, node.IsPlaced code) ∧
          ∃ reached, trivia.after.StandsAfter code reached := by
        rw [← read]
        split
        · obtain ⟨_, gap, after, _⟩ := readTrivia_stands (fuel + 1) stands
          exact ⟨placed_readTrivia (fuel + 1) stands, _, after⟩
        · exact ⟨by simp, before, stands⟩
      dsimp only
      split
      · refine List.forall_mem_singleton.mpr ?_
        exact placed_endOfFile stands.isPlace after.isPlace leading
      · split
        · refine List.forall_mem_cons.mpr ⟨⟨after.isPlace, after.isPlace, leading⟩, ?_⟩
          refine List.forall_mem_singleton.mpr ?_
          exact placed_endOfFile after.isPlace (after.skip _).isPlace (by simp)
        · rename_i cut made
          have stop := after.skip cut.length
          exact List.forall_mem_cons.mpr ⟨⟨after.isPlace, stop.isPlace, leading⟩, ih stop⟩

/-- All tokens of a text are placed. -/
theorem placed_read (code : List Char) : ∀ token ∈ read code, token.IsPlaced code := by
  have origin : Cursor.StandsAfter code [] ⟨code, .origin⟩ := ⟨rfl, rfl⟩
  have start := origin.skip (Lexeme.spaces code)
  have tag := origin.skip (Lexeme.plainText code)
  have inside := tag.skip
    (Lexeme.openingTag (Cursor.skip ⟨code, .origin⟩ (Lexeme.plainText code)).rest)
  rw [read]
  refine List.forall_mem_append.mpr ⟨?_, ?_⟩
  · split
    · exact List.forall_mem_singleton.mpr ⟨start.isPlace, tag.isPlace, by simp [ofStretch]⟩
    · simp
  · split
    · exact List.forall_mem_singleton.mpr (placed_endOfFile tag.isPlace tag.isPlace (by simp))
    · exact List.forall_mem_cons.mpr
        ⟨⟨tag.isPlace, inside.isPlace, by simp [ofStretch]⟩, placed_readFrom _ inside⟩

end Token

/-! ### Rules -/

/-- A piece and what stands before it start and end between characters. -/
structure Piece.IsPlaced (code : List Char) (piece : Piece) : Prop where
  leading : ∀ node ∈ piece.leading, node.IsPlaced code
  node : piece.node.IsPlaced code

namespace Piece

variable {pieces : List Piece}

theorem placed_ofToken {token : Token} (kind : Kind) (placed : token.IsPlaced code) :
    (ofToken kind token).IsPlaced code :=
  ⟨placed.leading, .of_leaf placed.start placed.stop rfl⟩

theorem placed_setRole {piece : Piece} (role : Role) (placed : piece.IsPlaced code) :
    (piece.setRole role).IsPlaced code :=
  ⟨placed.leading, placed.node.of_same rfl rfl rfl⟩

theorem placed_of_mem_nodes (placed : ∀ piece ∈ pieces, piece.IsPlaced code) :
    ∀ node ∈ nodes pieces, node.IsPlaced code :=
  forall_mem_nodes (fun piece member => (placed piece member).leading)
    fun piece member => (placed piece member).node

/-- A node around pieces starts with the first and ends with the last. -/
theorem placed_join (kind : Kind) (placed : ∀ piece ∈ pieces, piece.IsPlaced code) :
    ∀ piece ∈ join kind pieces, piece.IsPlaced code := by
  cases pieces with
  | nil => simp [join]
  | cons first rest =>
      obtain ⟨placedFirst, placedRest⟩ := List.forall_mem_cons.mp placed
      have last : (rest.getLast?.getD first).IsPlaced code := by
        cases found : rest.getLast? with
        | none => exact placedFirst
        | some last => exact placedRest last (List.mem_of_getLast? found)
      simp only [join, List.forall_mem_singleton]
      refine ⟨placedFirst.leading, .mk placedFirst.node.start last.node.stop ?_⟩
      exact List.forall_mem_cons.mpr ⟨placedFirst.node, placed_of_mem_nodes placedRest⟩

end Piece

/-- What a reader reads starts and ends between characters, and so do the tokens that it leaves. -/
def Reader.KeepsPlaces (code : List Char) (reader : Reader) : Prop :=
  ∀ {before : List Piece} {tokens : List Token} {pieces : List Piece} {rest : List Token},
    (∀ piece ∈ before, piece.IsPlaced code) → (∀ token ∈ tokens, token.IsPlaced code) →
    reader before tokens = some (pieces, rest) →
    (∀ token ∈ rest, token.IsPlaced code) ∧ ∀ piece ∈ pieces, piece.IsPlaced code

/-- **No rule makes up a place.** Whatever its kind, a node starts and ends where tokens do. -/
theorem passes_isPlaced :
    Passes (fun _ => true) (Token.IsPlaced code) (Piece.IsPlaced code) where
  leaf := fun _ placed => Piece.placed_ofToken _ placed
  missing := fun _ placed => ⟨by simp, .of_leaf placed.start placed.start rfl⟩
  titled := fun role placed => Piece.placed_setRole role placed
  join := fun _ placed => Piece.placed_join _ placed

theorem keepsPlaces_grammar (limit depth : Nat) (part : Part) :
    (grammar.read limit depth part).KeepsPlaces code :=
  keeps_grammar passes_isPlaced (fun part => (grammar part).makes_all) limit depth part

/-! ### Files -/

theorem placed_readHeading {tokens : List Token} (placed : ∀ token ∈ tokens, token.IsPlaced code) :
    (∀ token ∈ (readHeading tokens).2, token.IsPlaced code) ∧
      ∀ piece ∈ (readHeading tokens).1, piece.IsPlaced code :=
  readHeading_keeps passes_isPlaced rfl rfl placed

theorem placed_readStatements {tokens : List Token}
    (placed : ∀ token ∈ tokens, token.IsPlaced code) :
    (∀ token ∈ (readStatements tokens).2, token.IsPlaced code) ∧
      ∀ piece ∈ (readStatements tokens).1, piece.IsPlaced code :=
  Reader.many_keeps (keepsPlaces_grammar _ _ .statement) (by simp) _ placed

/-- A fault in the place of a missing sign is placed where the sign is missing. -/
theorem placed_settleMissing {piece : Piece} (placed : piece.IsPlaced code) :
    (settleMissing piece).IsPlaced code := by
  unfold settleMissing
  dsimp only
  split
  · exact ⟨placed.leading, placed.node.of_same rfl rfl rfl⟩
  · exact placed

/-- The faults that are made of what is left are placed. -/
theorem placed_remainder {tokens : List Token} (placed : ∀ token ∈ tokens, token.IsPlaced code) :
    ∀ node ∈ remainder tokens, node.IsPlaced code := by
  unfold remainder
  split
  · simp
  · rename_i token rest
    have first := placed token List.mem_cons_self
    split
    · simp
    · rename_i last found
      split
      · exact first.leading
      · refine List.forall_mem_append.mpr ⟨first.leading, List.forall_mem_singleton.mpr ?_⟩
        exact .of_leaf first.start (placed last (List.mem_of_getLast? found)).stop rfl

/-- **Nodes start and end between characters.** This holds in the syntax tree of every text. -/
theorem placed_ofCode (code : List Char) : (Node.ofCode code).IsPlaced code := by
  obtain ⟨afterHeading, heading⟩ := placed_readHeading (Token.placed_read code)
  obtain ⟨afterStatements, statements⟩ := placed_readStatements afterHeading
  have children : ∀ child ∈ (Node.ofCode code).children, child.IsPlaced code := by
    refine List.forall_mem_append.mpr ⟨Piece.placed_of_mem_nodes ?_,
      placed_remainder afterStatements⟩
    refine List.forall_mem_append.mpr ⟨heading, List.forall_mem_map.mpr ?_⟩
    intro piece member
    exact placed_settleMissing (statements piece member)
  have start : (Node.ofCode code).start =
      ((Node.ofCode code).children.head?.map Node.start).getD .origin := rfl
  refine .mk ?_ ⟨code, [], by simp, (stop_ofCode code).symm⟩ children
  rw [start]
  cases nodes : (Node.ofCode code).children with
  | nil => exact ⟨[], code, rfl, rfl⟩
  | cons first rest =>
      rw [nodes] at children
      exact (children first List.mem_cons_self).start

/-- Of two parts that a text begins with, the one with more bytes begins with the other. -/
theorem prefix_of_byteLength_le {chars first second : List Char} (starts : first <+: chars)
    (starts' : second <+: chars) (shorter : byteLength first ≤ byteLength second) :
    first <+: second := by
  rcases List.prefix_or_prefix_of_prefix starts starts' with isPrefix | ⟨rest, rfl⟩
  · exact isPrefix
  · have nothing : byteLength rest = 0 := by
      rw [byteLength_append] at shorter
      omega
    cases rest with
    | nil => exact (List.append_nil second).symm ▸ List.prefix_refl second
    | cons c rest =>
        have positive := c.utf8Size_pos
        rw [byteLength_cons] at nothing
        omega

/-- A node has the text between its start and its end. -/
theorem exists_text_of_placed {node : Node} (placed : node.IsPlaced code)
    (forward : node.start.offset ≤ node.stop.offset) :
    ∃ before after, code = before ++ node.text code ++ after ∧
      byteLength before = node.start.offset ∧
      byteLength (before ++ node.text code) = node.stop.offset := by
  obtain ⟨before, rest, whole, start⟩ := placed.start
  obtain ⟨upTo, after, whole', stop⟩ := placed.stop
  obtain ⟨middle, rfl⟩ : before <+: upTo :=
    prefix_of_byteLength_le ⟨rest, whole.symm⟩ ⟨after, whole'.symm⟩ (by omega)
  have text : node.text code = middle := Node.text_eq whole' start.symm stop.symm
  rw [text]
  exact ⟨before, after, whole', start, stop⟩

end PhpTestIndex.Php
