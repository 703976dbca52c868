import Mathlib.Order.Nat
import PhpTestIndex.Proofs.Php.Naming

/-! # The order of syntax trees

In the syntax tree of a file, the nodes in a node stand one after the other, between the start and
the end of it (`PhpTestIndex.Php.ordered_ofCode`). The tokens of a file are in order because each is
cut off where the one before it ends. A rule keeps what it reads in order, unless it puts what was
read before into a node after something else; that no rule of the grammar does is seen from the
rules themselves (`PhpTestIndex.Php.Rule.keepsOrder`), and checked once for each part of the grammar
(`PhpTestIndex.Php.grammar_keepsOrder`).
-/

namespace PhpTestIndex.Php

mutual

/-- The children of a node stand in order between its start and its end, and so do theirs. -/
inductive Node.Ordered : Node → Prop
  | mk {node : Node} (forward : node.start.offset ≤ node.stop.offset)
      (inside : InOrder node.start.offset node.children node.stop.offset) : Node.Ordered node

/-- The nodes stand one after the other between two offsets. -/
inductive InOrder : Nat → List Node → Nat → Prop
  | nil {low high : Nat} (forward : low ≤ high) : InOrder low [] high
  | cons {low high : Nat} {node : Node} {rest : List Node} (after : low ≤ node.start.offset)
      (ordered : node.Ordered) (later : InOrder node.stop.offset rest high) :
      InOrder low (node :: rest) high

end

section Nodes

variable {node : Node} {nodes more : List Node} {low low' high high' : Nat}

/-- An ordered node does not end before it starts. -/
theorem Node.Ordered.forward (ordered : node.Ordered) :
    node.start.offset ≤ node.stop.offset := by
  cases ordered with
  | mk forward _ => exact forward

/-- The children of an ordered node stand in order between its start and its end. -/
theorem Node.Ordered.inside (ordered : node.Ordered) :
    InOrder node.start.offset node.children node.stop.offset := by
  cases ordered with
  | mk _ inside => exact inside

/-- A node with a text is not empty. -/
theorem lt_of_text_ne_nil {code : List Char} (occupied : node.text code ≠ []) :
    node.start.offset < node.stop.offset := by
  by_contra reversed
  have nothing : node.stop.offset - node.start.offset = 0 := by omega
  apply occupied
  rw [Node.text, Text.slice, nothing]
  cases Text.dropBytes node.start.offset code <;> rfl

/-- A node with nothing in it is ordered if it does not end before it starts. -/
theorem Node.ordered_of_leaf (forward : node.start.offset ≤ node.stop.offset)
    (leaf : node.children = []) : node.Ordered := by
  refine .mk forward ?_
  rw [leaf]
  exact .nil forward

/-- The kind and the role of a node do not count. -/
theorem Node.Ordered.of_same {other : Node} (ordered : node.Ordered)
    (start : other.start = node.start) (stop : other.stop = node.stop)
    (children : other.children = node.children) : other.Ordered := by
  refine .mk ?_ ?_
  · rw [start, stop]
    exact ordered.forward
  · rw [start, stop, children]
    exact ordered.inside

/-- Nodes stand in order if the first one does and the others follow behind its end. -/
theorem inOrder_cons : InOrder low (node :: nodes) high ↔
    low ≤ node.start.offset ∧ node.Ordered ∧ InOrder node.stop.offset nodes high := by
  constructor
  · intro inOrder
    cases inOrder with
    | cons after ordered later => exact ⟨after, ordered, later⟩
  · rintro ⟨after, ordered, later⟩
    exact .cons after ordered later

/-- Nodes in order stand between bounds in order. -/
theorem InOrder.le (inOrder : InOrder low nodes high) : low ≤ high := by
  induction nodes generalizing low with
  | nil =>
      cases inOrder with
      | nil forward => exact forward
  | cons node rest ih =>
      obtain ⟨after, ordered, later⟩ := inOrder_cons.mp inOrder
      exact after.trans (ordered.forward.trans (ih later))

/-- Nodes in order between two bounds are in order between wider ones. -/
theorem InOrder.mono (inOrder : InOrder low nodes high) (below : low' ≤ low)
    (above : high ≤ high') : InOrder low' nodes high' := by
  induction nodes generalizing low low' with
  | nil => exact .nil (below.trans (inOrder.le.trans above))
  | cons node rest ih =>
      obtain ⟨after, ordered, later⟩ := inOrder_cons.mp inOrder
      exact .cons (below.trans after) ordered (ih later le_rfl)

/-- Two lists of nodes stand in order together exactly if some offset parts them. -/
theorem inOrder_append : InOrder low (nodes ++ more) high ↔
    ∃ mid, InOrder low nodes mid ∧ InOrder mid more high := by
  induction nodes generalizing low with
  | nil =>
      constructor
      · intro inOrder
        exact ⟨low, .nil le_rfl, inOrder⟩
      · rintro ⟨mid, before, after⟩
        exact after.mono before.le le_rfl
  | cons node rest ih =>
      rw [List.cons_append, inOrder_cons, ih]
      constructor
      · rintro ⟨after, ordered, mid, first, second⟩
        exact ⟨mid, .cons after ordered first, second⟩
      · rintro ⟨mid, first, second⟩
        obtain ⟨after, ordered, later⟩ := inOrder_cons.mp first
        exact ⟨after, ordered, mid, later, second⟩

/-- A node among nodes in order is ordered and lies between the bounds. -/
theorem InOrder.bounds (inOrder : InOrder low nodes high) (member : node ∈ nodes) :
    low ≤ node.start.offset ∧ node.Ordered ∧ node.stop.offset ≤ high := by
  induction nodes generalizing low with
  | nil => cases member
  | cons first rest ih =>
      obtain ⟨after, ordered, later⟩ := inOrder_cons.mp inOrder
      rcases List.mem_cons.mp member with rfl | further
      · exact ⟨after, ordered, later.le⟩
      · obtain ⟨beyond, orderedNode, within⟩ := ih later further
        exact ⟨after.trans (ordered.forward.trans beyond), orderedNode, within⟩

/-- Of nodes in order, each ends before the next ones start. -/
theorem InOrder.pairwise (inOrder : InOrder low nodes high) :
    nodes.Pairwise fun first second => first.stop.offset ≤ second.start.offset := by
  induction nodes generalizing low with
  | nil => exact .nil
  | cons first rest ih =>
      obtain ⟨_, _, later⟩ := inOrder_cons.mp inOrder
      exact .cons (fun second further => (later.bounds further).1) (ih later)

/-- Some of the nodes in order are in order. -/
theorem InOrder.sublist {some' : List Node} (inOrder : InOrder low nodes high)
    (part : some'.Sublist nodes) : InOrder low some' high := by
  induction part generalizing low with
  | slnil => exact inOrder
  | cons node _ ih =>
      obtain ⟨after, ordered, later⟩ := inOrder_cons.mp inOrder
      exact ih (later.mono (after.trans ordered.forward) le_rfl)
  | cons_cons node _ ih =>
      obtain ⟨after, ordered, later⟩ := inOrder_cons.mp inOrder
      exact .cons after ordered (ih later)

/-- Nodes in order go up to the end of the last one. -/
theorem InOrder.up_to_last {last : Node} (inOrder : InOrder low (nodes ++ [last]) high) :
    InOrder low (nodes ++ [last]) last.stop.offset ∧ last.stop.offset ≤ high := by
  obtain ⟨mid, before, ends⟩ := inOrder_append.mp inOrder
  obtain ⟨after, ordered, later⟩ := inOrder_cons.mp ends
  exact ⟨inOrder_append.mpr ⟨mid, before, .cons after ordered (.nil le_rfl)⟩, later.le⟩

end Nodes

mutual

/-- What goes over from a node to its children holds of all nodes of a tree. -/
theorem Node.forall_descendants {motive : Node → Prop}
    (step : ∀ {node : Node}, motive node → ∀ child ∈ node.children, motive child) :
    ∀ (node : Node) (before : Option Node), motive node →
      ∀ placed ∈ node.descendants before, motive placed.node
  | ⟨kind, role, start, stop, children⟩, before, holds, placed, member => by
    rw [Node.descendants] at member
    rcases List.mem_cons.mp member with rfl | below
    · exact holds
    · exact forall_siblingsDescendants step children none (step holds) placed below

/-- What passes from a node to its children holds of all nodes below some siblings that have it. -/
theorem forall_siblingsDescendants {motive : Node → Prop}
    (step : ∀ {node : Node}, motive node → ∀ child ∈ node.children, motive child) :
    ∀ (nodes : List Node) (before : Option Node), (∀ node ∈ nodes, motive node) →
      ∀ placed ∈ siblingsDescendants before nodes, motive placed.node
  | [], _, _, placed, member => by cases member
  | node :: rest, before, hold, placed, member => by
    obtain ⟨first, others⟩ := List.forall_mem_cons.mp hold
    rw [siblingsDescendants] at member
    rcases List.mem_append.mp member with here | later
    · exact Node.forall_descendants step node before first placed here
    · exact forall_siblingsDescendants step rest _ others placed later

end

/-- The nodes of a tree in order stand between its start and its end. -/
theorem Node.Ordered.within {node : Node} (ordered : node.Ordered) {before : Option Node}
    {placed : Placed} (member : placed ∈ node.descendants before) :
    node.start.offset ≤ placed.node.start.offset ∧ placed.node.Ordered ∧
      placed.node.stop.offset ≤ node.stop.offset := by
  let standsInside (inner : Node) : Prop :=
    node.start.offset ≤ inner.start.offset ∧ inner.Ordered ∧ inner.stop.offset ≤ node.stop.offset
  have step {parent : Node} (stands : standsInside parent) :
      ∀ child ∈ parent.children, standsInside child := by
    intro child among
    obtain ⟨after, orderedParent, inside⟩ := stands
    obtain ⟨beyond, orderedChild, up⟩ := orderedParent.inside.bounds among
    exact ⟨after.trans beyond, orderedChild, up.trans inside⟩
  exact Node.forall_descendants step node before ⟨le_rfl, ordered, le_rfl⟩ placed member

namespace Piece

variable {pieces more : List Piece} {low high : Nat}

/-- The nodes of a piece are what stands before it and its own node. -/
theorem nodes_cons (piece : Piece) (pieces : List Piece) :
    nodes (piece :: pieces) = piece.leading ++ piece.node :: nodes pieces := by
  rw [nodes, List.flatMap_cons, List.append_assoc]
  rfl

theorem nodes_append (pieces more : List Piece) :
    nodes (pieces ++ more) = nodes pieces ++ nodes more :=
  List.flatMap_append

/-- A change of pieces that keeps what counts for the order keeps the order. -/
theorem inOrder_map {change : Piece → Piece}
    (leading : ∀ piece, (change piece).leading = piece.leading)
    (start : ∀ piece, (change piece).node.start = piece.node.start)
    (stop : ∀ piece, (change piece).node.stop = piece.node.stop)
    (children : ∀ piece, (change piece).node.children = piece.node.children)
    (inOrder : InOrder low (nodes pieces) high) : InOrder low (nodes (pieces.map change)) high := by
  induction pieces generalizing low with
  | nil => exact inOrder
  | cons piece rest ih =>
      rw [nodes_cons] at inOrder
      obtain ⟨mid, before, ends⟩ := inOrder_append.mp inOrder
      obtain ⟨after, ordered, later⟩ := inOrder_cons.mp ends
      rw [List.map_cons, nodes_cons, leading]
      refine inOrder_append.mpr ⟨mid, before, .cons ?_ ?_ ?_⟩
      · rw [start]
        exact after
      · exact ordered.of_same (start piece) (stop piece) (children piece)
      · rw [stop]
        exact ih later

theorem inOrder_map_setRole (role : Role) (inOrder : InOrder low (nodes pieces) high) :
    InOrder low (nodes (pieces.map (setRole role))) high :=
  inOrder_map (fun _ => rfl) (fun _ => rfl) (fun _ => rfl) (fun _ => rfl) inOrder

/-- The nodes of some pieces, from the first one on, end with the node of the last one. -/
theorem exists_nodes_eq_append_last (first : Piece) (rest : List Piece) :
    ∃ early, first.node :: nodes rest = early ++ [(rest.getLast?.getD first).node] := by
  rcases List.eq_nil_or_concat rest with rfl | ⟨init, last, rfl⟩
  · exact ⟨[], rfl⟩
  · refine ⟨first.node :: (nodes init ++ last.leading), ?_⟩
    rw [List.concat_eq_append, nodes_append, nodes_cons]
    simp [nodes]

/-- A node around pieces in order is in order. -/
theorem inOrder_join (kind : Kind) (inOrder : InOrder low (nodes pieces) high) :
    InOrder low (nodes (join kind pieces)) high := by
  cases pieces with
  | nil => exact inOrder
  | cons first rest =>
      rw [nodes_cons] at inOrder
      obtain ⟨mid, before, ends⟩ := inOrder_append.mp inOrder
      obtain ⟨after, ordered, later⟩ := inOrder_cons.mp ends
      have inside : InOrder first.node.start.offset (first.node :: nodes rest) high :=
        .cons le_rfl ordered later
      obtain ⟨early, split⟩ := exists_nodes_eq_append_last first rest
      rw [split] at inside
      obtain ⟨exact, within⟩ := inside.up_to_last
      rw [← split] at exact
      simp only [join, nodes, List.flatMap_singleton]
      exact inOrder_append.mpr ⟨mid, before, .cons after (.mk exact.le exact) (.nil within)⟩

end Piece

/-- The tokens stand one after the other between two offsets, each after what stands before it; only
the token that ends the file begins before. -/
inductive Token.InOrder (high : Nat) : Nat → List Token → Prop
  | nil {low : Nat} (forward : low ≤ high) : Token.InOrder high low []
  | endOfFile {low : Nat} {token : Token} (kind : token.kind = .endOfFile)
      (after : low ≤ token.start.offset)
      (leading : Php.InOrder token.start.offset token.leading token.stop.offset)
      (within : token.stop.offset ≤ high) : Token.InOrder high low [token]
  | cons {low : Nat} {token : Token} {rest : List Token} (kind : token.kind ≠ .endOfFile)
      (leading : Php.InOrder low token.leading token.start.offset)
      (forward : token.start.offset ≤ token.stop.offset)
      (later : Token.InOrder high token.stop.offset rest) : Token.InOrder high low (token :: rest)

namespace Token

variable {low low' high : Nat} {token : Token} {rest tokens : List Token}

/-- Tokens in order stand between bounds in order. -/
theorem InOrder.le (inOrder : InOrder high low tokens) : low ≤ high := by
  induction inOrder with
  | nil forward => exact forward
  | endOfFile _ after leading within => exact after.trans (leading.le.trans within)
  | cons _ leading forward _ ih => exact leading.le.trans (forward.trans ih)

/-- Tokens that may start at an offset may start before it, too. -/
theorem InOrder.mono (inOrder : InOrder high low tokens) (below : low' ≤ low) :
    InOrder high low' tokens := by
  cases inOrder with
  | nil forward => exact .nil (below.trans forward)
  | endOfFile kind after leading within => exact .endOfFile kind (below.trans after) leading within
  | cons kind leading forward later => exact .cons kind (leading.mono below le_rfl) forward later

/-- Behind the first of some tokens in order the others are in order from the same offset on. -/
theorem InOrder.tail (inOrder : InOrder high low (token :: rest)) : InOrder high low rest := by
  have le := inOrder.le
  cases inOrder with
  | endOfFile _ _ _ _ => exact .nil le
  | cons _ leading forward later => exact later.mono (leading.le.trans forward)

end Token

/-- What a reader reads stands in order after what was read before; `around` says that it may stand
around it instead. -/
def Reader.KeepsOrder (around : Bool) (reader : Reader) : Prop :=
  ∀ {low mid high : Nat} {before : List Piece} {tokens : List Token} {pieces : List Piece}
    {rest : List Token}, InOrder low (Piece.nodes before) mid → Token.InOrder high mid tokens →
    reader before tokens = some (pieces, rest) →
    ∃ reached, InOrder (if around then low else mid) (Piece.nodes pieces) reached ∧
      Token.InOrder high reached rest

/-- Whatever is read by the rule stands in order after what was read before; `around` says that it
may stand around it instead. -/
def Rule.keepsOrder (around : Bool) : Rule → Bool
  | .leaf token _ => token ≠ .endOfFile
  | .exact token _ _ => token ≠ .endOfFile
  | .both first second => first.keepsOrder false && second.keepsOrder false
  | .either first second => first.keepsOrder around && second.keepsOrder around
  | .many item => item.keepsOrder false
  | .node _ parts => parts.keepsOrder false
  | .role _ rule => rule.keepsOrder false
  | .grow first tail => first.keepsOrder false && tail.keepsOrder true
  | .around _ _ rest => around && rest.keepsOrder false
  | _ => true

/-- No part of the grammar puts what was read before into a node after something else. -/
theorem grammar_keepsOrder (part : Part) : (grammar part).keepsOrder false = true := by
  cases part <;> decide

namespace Reader

variable {around : Bool}

/-- A reader that reads in order may stand where one that reads around is asked for. -/
theorem KeepsOrder.weaken {reader : Reader} (keeps : reader.KeepsOrder false) :
    reader.KeepsOrder around := by
  intro low mid high before tokens pieces rest known inOrder read
  obtain ⟨reached, stands, later⟩ := keeps known inOrder read
  cases around with
  | false => exact ⟨reached, stands, later⟩
  | true => exact ⟨reached, stands.mono known.le le_rfl, later⟩

/-- A reader that reads nothing keeps the order. -/
theorem keepsOrder_nothing : KeepsOrder around fun _ tokens => some ([], tokens) := by
  refine @KeepsOrder.weaken around (fun _ tokens => some ([], tokens)) ?_
  intro low mid high before tokens pieces rest _ inOrder read
  cases read
  exact ⟨mid, .nil le_rfl, inOrder⟩

/-- Reading one token keeps the order, unless it is the one that ends the file. -/
theorem keepsOrder_next {accepts : Token → Bool} (kind : Kind)
    (real : ∀ token, accepts token = true → token.kind ≠ .endOfFile) :
    (next accepts kind).KeepsOrder around := by
  refine KeepsOrder.weaken ?_
  intro low mid high before tokens pieces rest _ inOrder read
  obtain ⟨token, rfl, accepted, rfl⟩ := next_eq_some read
  cases inOrder with
  | endOfFile kind _ _ _ => exact absurd kind (real token accepted)
  | cons _ leading forward later =>
      refine ⟨token.stop.offset, ?_, later⟩
      have leaf : (Piece.ofToken kind token).node.Ordered := Node.ordered_of_leaf forward rfl
      rw [Piece.nodes_cons]
      exact inOrder_append.mpr ⟨_, leading, .cons le_rfl leaf (.nil le_rfl)⟩

/-- Looking at the next token keeps the order. -/
theorem keepsOrder_check (accepts : Token → Bool) : (check accepts).KeepsOrder around := by
  refine KeepsOrder.weaken ?_
  intro low mid high before tokens pieces rest _ inOrder read
  unfold check at read
  split at read
  · cases read
  · split at read
    · cases read
      exact ⟨mid, .nil le_rfl, inOrder⟩
    · cases read

/-- A missing sign takes no room, so it stands in order where it is missing. -/
theorem keepsOrder_missing (sign : String) : (missing sign).KeepsOrder around := by
  refine KeepsOrder.weaken ?_
  intro low mid high before tokens pieces rest _ inOrder read
  unfold missing at read
  split at read
  · rename_i key start stop leading isAfterTag
    cases read
    cases inOrder with
    | cons other _ _ _ => exact absurd rfl other
    | endOfFile kind after before within =>
        have leaf : (⟨.missing sign, none, start, start, []⟩ : Node).Ordered :=
          Node.ordered_of_leaf le_rfl rfl
        exact ⟨start.offset, .cons after leaf (.nil le_rfl), .endOfFile kind le_rfl before within⟩
  · cases read

/-- The tokens behind a group in brackets are in order. -/
theorem inOrder_afterGroup {low high depth : Nat} {tokens rest : List Token}
    (inOrder : Token.InOrder high low tokens) (read : afterGroup depth tokens = some rest) :
    Token.InOrder high low rest := by
  induction tokens generalizing depth with
  | nil => cases depth <;> cases read
  | cons token others ih =>
      have later {depth : Nat} (read : afterGroup depth others = some rest) :=
        ih inOrder.tail read
      have last (ended : others = rest) : Token.InOrder high low rest := ended ▸ inOrder.tail
      rw [afterGroup] at read
      split_ifs at read
      · exact later read
      · exact later read
      · exact last (Option.some.inj read)
      · exact later read
      · exact later read

/-- Passing over a group in brackets keeps the order. -/
theorem keepsOrder_group : group.KeepsOrder around := by
  refine KeepsOrder.weaken ?_
  intro low mid high before tokens pieces rest _ inOrder read
  obtain ⟨after, found, same⟩ := Option.map_eq_some_iff.mp read
  cases same
  exact ⟨mid, .nil le_rfl, inOrder_afterGroup inOrder found⟩

/-- Readers one after the other keep the order if each of them does, and neither looks back. -/
theorem keepsOrder_both {first second : Reader} (keepsFirst : first.KeepsOrder false)
    (keepsSecond : second.KeepsOrder false) : (both first second).KeepsOrder around := by
  refine KeepsOrder.weaken ?_
  intro low mid high before tokens pieces rest known inOrder read
  obtain ⟨early, middle, late, readFirst, readSecond, rfl⟩ := both_eq_some read
  obtain ⟨between, stands, inOrderMiddle⟩ := keepsFirst known inOrder readFirst
  obtain ⟨reached, follows, inOrderRest⟩ :=
    keepsSecond (known.mono le_rfl stands.le) inOrderMiddle readSecond
  refine ⟨reached, ?_, inOrderRest⟩
  rw [Piece.nodes_append]
  exact inOrder_append.mpr ⟨between, stands, follows⟩

/-- As many items as there are stand in order behind what was read, by induction on the limit of the
loop. -/
theorem many_inOrder {item : Reader} (keeps : item.KeepsOrder false) {before : List Piece}
    {low mid high : Nat} (known : InOrder low (Piece.nodes before) mid) (limit : Nat)
    {tokens : List Token} (inOrder : Token.InOrder high mid tokens) :
    ∃ reached, InOrder mid (Piece.nodes (many item before limit tokens).1) reached ∧
      Token.InOrder high reached (many item before limit tokens).2 := by
  induction limit generalizing mid tokens with
  | zero => exact ⟨mid, .nil le_rfl, inOrder⟩
  | succ limit ih =>
      rw [many]
      split
      · exact ⟨mid, .nil le_rfl, inOrder⟩
      · rename_i pieces rest read
        split
        · obtain ⟨between, stands, inOrderRest⟩ := keeps known inOrder read
          obtain ⟨reached, follows, inOrderAfter⟩ :=
            ih (known.mono le_rfl stands.le) inOrderRest
          refine ⟨reached, ?_, inOrderAfter⟩
          rw [Piece.nodes_append]
          exact inOrder_append.mpr ⟨between, stands, follows⟩
        · exact ⟨mid, .nil le_rfl, inOrder⟩

/-- Growing a piece keeps the order even where a tail goes around all that was read before it, since
what it goes around is in order already. -/
theorem grow_inOrder {tail : Reader} (keeps : tail.KeepsOrder true) {low high : Nat} (limit : Nat)
    {before : List Piece} {mid : Nat} (known : InOrder low (Piece.nodes before) mid)
    {tokens : List Token} (inOrder : Token.InOrder high mid tokens) :
    ∃ reached, InOrder low (Piece.nodes (grow tail limit before tokens).1) reached ∧
      Token.InOrder high reached (grow tail limit before tokens).2 := by
  induction limit generalizing before mid tokens with
  | zero => exact ⟨mid, known, inOrder⟩
  | succ limit ih =>
      rw [grow]
      split
      · exact ⟨mid, known, inOrder⟩
      · rename_i pieces rest read
        split
        · obtain ⟨between, stands, inOrderRest⟩ := keeps known inOrder read
          exact ih stands inOrderRest
        · exact ⟨mid, known, inOrder⟩

end Reader

/-- **A rule that keeps the order reads in order**, if the parts of the grammar do. -/
theorem Rule.keepsOrder_read {limit : Nat} {part : Part → Reader}
    (parts : ∀ name, (part name).KeepsOrder false) (rule : Rule) {around : Bool}
    (keeps : rule.keepsOrder around = true) : (rule.read limit part).KeepsOrder around := by
  induction rule generalizing around with
  | nothing => exact Reader.keepsOrder_nothing
  | leaf token kind =>
      refine Reader.keepsOrder_next kind ?_
      intro next accepted
      rw [of_decide_eq_true accepted]
      exact of_decide_eq_true keeps
  | exact token key kind =>
      refine Reader.keepsOrder_next kind ?_
      intro next accepted
      rw [of_decide_eq_true (Bool.and_eq_true_iff.mp accepted).1]
      exact of_decide_eq_true keeps
  | wordExcept words =>
      refine Reader.keepsOrder_next .name ?_
      intro next accepted
      rw [of_decide_eq_true (Bool.and_eq_true_iff.mp accepted).1]
      decide
  | closed => exact Reader.keepsOrder_check _
  | joined => exact Reader.keepsOrder_check _
  | missing sign => exact Reader.keepsOrder_missing sign
  | group => exact Reader.keepsOrder_group
  | both first second ihFirst ihSecond =>
      obtain ⟨keepsFirst, keepsSecond⟩ := Bool.and_eq_true_iff.mp keeps
      exact Reader.keepsOrder_both (ihFirst keepsFirst) (ihSecond keepsSecond)
  | either first second ihFirst ihSecond =>
      obtain ⟨keepsFirst, keepsSecond⟩ := Bool.and_eq_true_iff.mp keeps
      intro low mid high before tokens pieces rest known inOrder read
      simp only [Rule.read] at read
      split at read
      · rename_i reading readFirst
        cases read
        exact ihFirst keepsFirst known inOrder readFirst
      · exact ihSecond keepsSecond known inOrder read
  | many item ih =>
      refine Reader.KeepsOrder.weaken ?_
      intro low mid high before tokens pieces rest known inOrder read
      have stands := Reader.many_inOrder (ih keeps) known limit inOrder
      rw [Option.some.inj read] at stands
      exact stands
  | ahead rule _ =>
      refine Reader.KeepsOrder.weaken ?_
      intro low mid high before tokens pieces rest known inOrder read
      simp only [Rule.read] at read
      split at read
      · cases read
        exact ⟨mid, .nil le_rfl, inOrder⟩
      · cases read
  | absent rule _ =>
      refine Reader.KeepsOrder.weaken ?_
      intro low mid high before tokens pieces rest known inOrder read
      simp only [Rule.read] at read
      split at read
      · cases read
      · cases read
        exact ⟨mid, .nil le_rfl, inOrder⟩
  | node kind parts ih =>
      refine Reader.KeepsOrder.weaken ?_
      intro low mid high before tokens pieces rest known inOrder read
      obtain ⟨inner, readParts, rfl⟩ := read_node_eq_some read
      obtain ⟨reached, stands, later⟩ := ih keeps known inOrder readParts
      exact ⟨reached, Piece.inOrder_join kind stands, later⟩
  | role given rule ih =>
      refine Reader.KeepsOrder.weaken ?_
      intro low mid high before tokens pieces rest known inOrder read
      obtain ⟨inner, readRule, rfl⟩ := read_role_eq_some read
      obtain ⟨reached, stands, later⟩ := ih keeps known inOrder readRule
      exact ⟨reached, Piece.inOrder_map_setRole given stands, later⟩
  | grow first tail ihFirst ihTail =>
      obtain ⟨keepsFirst, keepsTail⟩ := Bool.and_eq_true_iff.mp keeps
      refine Reader.KeepsOrder.weaken ?_
      intro low mid high before tokens pieces rest known inOrder read
      simp only [Rule.read] at read
      split at read
      · cases read
      · rename_i early middle readFirst
        obtain ⟨between, stands, inOrderMiddle⟩ := ihFirst keepsFirst known inOrder readFirst
        have grown := Reader.grow_inOrder (ihTail keepsTail) limit stands inOrderMiddle
        rw [Option.some.inj read] at grown
        exact grown
  | around kind given rule ih =>
      obtain ⟨isAround, keepsRule⟩ := Bool.and_eq_true_iff.mp keeps
      subst isAround
      intro low mid high before tokens pieces rest known inOrder read
      simp only [Rule.read] at read
      split at read
      · cases read
      · rename_i late after readRule
        obtain ⟨reached, stands, later⟩ := ih keepsRule known inOrder readRule
        cases read
        refine ⟨reached, Piece.inOrder_join kind ?_, later⟩
        rw [Piece.nodes_append]
        cases given with
        | none => exact inOrder_append.mpr ⟨mid, known, stands⟩
        | some role =>
            exact inOrder_append.mpr ⟨mid, Piece.inOrder_map_setRole role known, stands⟩
  | part name => exact Reader.KeepsOrder.weaken (parts name)

/-- The parts of the grammar read in order, however deep they are nested. -/
theorem keepsOrder_grammar (limit depth : Nat) (part : Part) :
    (grammar.read limit depth part).KeepsOrder false := by
  induction depth generalizing part with
  | zero =>
      intro low mid high before tokens pieces rest _ _ read
      cases read
  | succ depth ih => exact Rule.keepsOrder_read ih (grammar part) (grammar_keepsOrder part)

namespace Token

/-- The offset at which the text of a cursor ends. -/
def Cursor.stop (cursor : Cursor) : Nat :=
  cursor.point.offset + byteLength cursor.rest

theorem Cursor.offset_skip (cursor : Cursor) (count : Nat) :
    (cursor.skip count).point.offset =
      cursor.point.offset + byteLength (cursor.rest.take count) :=
  Point.offset_read _ _

/-- A cursor does not move back. -/
theorem Cursor.le_skip (cursor : Cursor) (count : Nat) :
    cursor.point.offset ≤ (cursor.skip count).point.offset := by
  rw [Cursor.offset_skip]
  exact Nat.le_add_right _ _

@[simp] theorem Cursor.stop_skip (cursor : Cursor) (count : Nat) :
    (cursor.skip count).stop = cursor.stop := by
  have whole := congrArg byteLength (List.take_append_drop count cursor.rest)
  rw [byteLength_append] at whole
  unfold Cursor.stop
  rw [Cursor.offset_skip, Nat.add_assoc, ← whole]
  rfl

theorem Cursor.le_stop (cursor : Cursor) : cursor.point.offset ≤ cursor.stop :=
  Nat.le_add_right _ _

/-- What is read before a token stands in order up to the token. -/
theorem inOrder_readTrivia (fuel : Nat) (cursor : Cursor) :
    Php.InOrder cursor.point.offset (readTrivia fuel cursor).nodes
        (readTrivia fuel cursor).after.point.offset ∧
      (readTrivia fuel cursor).after.stop = cursor.stop := by
  induction fuel generalizing cursor with
  | zero => exact ⟨.nil le_rfl, rfl⟩
  | succ fuel ih =>
      rw [readTrivia]
      rcases triviaLexeme cursor.rest with ⟨kind, length⟩
      dsimp only
      split
      · exact ⟨.nil le_rfl, rfl⟩
      · obtain ⟨later, ends⟩ := ih (cursor.skip length)
        rw [Cursor.stop_skip] at ends
        cases kind with
        | none => exact ⟨later.mono (cursor.le_skip length) le_rfl, ends⟩
        | some kind =>
            have leaf :
                (⟨kind, none, cursor.point, (cursor.skip length).point, []⟩ : Node).Ordered :=
              Node.ordered_of_leaf (cursor.le_skip length) rfl
            exact ⟨.cons le_rfl leaf later, ends⟩

/-- What is cut in code does not end the file. -/
theorem kind_ne_of_cutCode {opened : List Open} {chars : List Char} {cut : Cut}
    (made : cutCode opened chars = some cut) : cut.kind ≠ .endOfFile := by
  unfold cutCode at made
  grind [Option.map_eq_some_iff]

/-- What is cut in a string with variables does not end the file. -/
theorem kind_ne_of_cutPart {quote : Option Char} {inside : List Open} {chars : List Char}
    {cut : Cut} (made : cutPart quote inside chars = some cut) : cut.kind ≠ .endOfFile := by
  unfold cutPart at made
  grind [Option.map_eq_some_iff]

/-- No token that is cut off a text ends the file. -/
theorem kind_ne_of_cut? {opened : List Open} {chars : List Char} {cut : Cut}
    (made : cut? opened chars = some cut) : cut.kind ≠ .endOfFile := by
  unfold cut? at made
  split at made
  · unfold cutQuoted at made
    split at made
    · cases made
      simp
    · exact kind_ne_of_cutPart made
  · unfold cutLabelled at made
    split at made
    · cases made
      simp
    · obtain ⟨part, read, rfl⟩ := Option.map_eq_some_iff.mp made
      have kind := kind_ne_of_cutPart read
      split <;> exact kind
  · exact kind_ne_of_cutCode made

theorem inOrder_endOfFile {trivia : Trivia} {opened : List Open} {last : Point} {high : Nat}
    (leading : Php.InOrder last.offset trivia.nodes trivia.after.point.offset)
    (within : trivia.after.point.offset ≤ high) :
    InOrder high last.offset [endOfFile trivia opened last] :=
  .endOfFile rfl le_rfl leading within

/-- The tokens that are read from a cursor on stand in order up to the end of the text. -/
theorem inOrder_readFrom (fuel : Nat) (opened : List Open) (cursor : Cursor) :
    InOrder cursor.stop cursor.point.offset (readFrom fuel opened cursor.point cursor) := by
  induction fuel generalizing opened cursor with
  | zero => exact inOrder_endOfFile (.nil le_rfl) cursor.le_stop
  | succ fuel ih =>
      rw [readFrom]
      generalize read : (if isCode opened then readTrivia (fuel + 1) cursor
        else ⟨[], false, cursor⟩) = trivia
      obtain ⟨leading, ends⟩ :
          Php.InOrder cursor.point.offset trivia.nodes trivia.after.point.offset ∧
            trivia.after.stop = cursor.stop := by
        rw [← read]
        split
        · exact inOrder_readTrivia (fuel + 1) cursor
        · exact ⟨.nil le_rfl, rfl⟩
      dsimp only
      split
      · refine inOrder_endOfFile leading ?_
        rw [← ends]
        exact trivia.after.le_stop
      · split
        · refine .cons (by simp) leading le_rfl (inOrder_endOfFile ?_ ?_)
          · exact .nil (trivia.after.le_skip _)
          · have within := (trivia.after.skip trivia.after.rest.length).le_stop
            rw [Cursor.stop_skip, ends] at within
            exact within
        · rename_i cut made
          have later := ih cut.opened (trivia.after.skip cut.length)
          rw [Cursor.stop_skip, ends] at later
          exact .cons (kind_ne_of_cut? made) leading (trivia.after.le_skip cut.length) later

/-- The tokens of a text stand in order from its start to its end. -/
theorem inOrder_read (code : List Char) : InOrder (byteLength code) 0 (read code) := by
  let origin : Cursor := ⟨code, .origin⟩
  let start := origin.skip (Lexeme.spaces code)
  let tag := origin.skip (Lexeme.plainText code)
  let inside := tag.skip (Lexeme.openingTag tag.rest)
  have whole : origin.stop = byteLength code := Nat.zero_add _
  have tagStop : tag.stop = byteLength code := (origin.stop_skip _).trans whole
  have insideStop : inside.stop = byteLength code := (tag.stop_skip _).trans tagStop
  have fromTag : InOrder (byteLength code) tag.point.offset
      (if tag.rest.isEmpty then [endOfFile ⟨[], false, tag⟩ [] tag.point]
      else ofStretch .openingTag tag.point inside.point ::
        readFrom (inside.rest.length + 1) [] inside.point inside) := by
    split
    · refine inOrder_endOfFile (.nil le_rfl) ?_
      rw [← tagStop]
      exact tag.le_stop
    · have later := inOrder_readFrom (inside.rest.length + 1) [] inside
      rw [insideStop] at later
      exact .cons (by simp [ofStretch]) (.nil le_rfl) (tag.le_skip _) later
  rw [read]
  split
  · rename_i moved
    exact .cons (by simp [ofStretch]) (.nil (Nat.zero_le _)) moved.le fromTag
  · exact fromTag.mono (Nat.zero_le _)

/-- The last token ends neither before what stands before the end of the first nor after the
text. -/
theorem le_last {start high : Nat} {token last : Token} {rest : List Token}
    (forward : start ≤ token.stop.offset) (later : InOrder high token.stop.offset rest)
    (found : (token :: rest).getLast? = some last) :
    start ≤ last.stop.offset ∧ last.stop.offset ≤ high := by
  induction rest generalizing token start with
  | nil =>
      cases found
      exact ⟨forward, later.le⟩
  | cons next others ih =>
      rw [List.getLast?_cons_cons] at found
      cases later with
      | endOfFile _ after leading within =>
          cases found
          exact ⟨forward.trans (after.trans leading.le), within⟩
      | cons _ leading onward others =>
          exact ih (forward.trans (leading.le.trans onward)) others found

end Token

section Files

variable {low high : Nat} {tokens : List Token} {pieces : List Piece}

/-- A token that does not end the file makes a piece that stands in order before the other tokens.
-/
theorem inOrder_ofToken {token : Token} {rest : List Token} (kind : Kind)
    (real : token.kind ≠ .endOfFile) (inOrder : Token.InOrder high low (token :: rest)) :
    InOrder low (Piece.nodes [Piece.ofToken kind token]) token.stop.offset ∧
      Token.InOrder high token.stop.offset rest := by
  cases inOrder with
  | endOfFile other _ _ _ => exact absurd other real
  | cons _ leading forward later =>
      have leaf : (Piece.ofToken kind token).node.Ordered := Node.ordered_of_leaf forward rfl
      rw [Piece.nodes_cons]
      exact ⟨inOrder_append.mpr ⟨_, leading, .cons le_rfl leaf (.nil le_rfl)⟩, later⟩

/-- What stands before the first statement is in order, and what is left follows behind it. -/
theorem readHeading_inOrder (inOrder : Token.InOrder high low tokens) :
    ∃ reached, InOrder low (Piece.nodes (readHeading tokens).1) reached ∧
      Token.InOrder high reached (readHeading tokens).2 := by
  induction tokens generalizing low with
  | nil => exact ⟨low, .nil le_rfl, inOrder⟩
  | cons token rest ih =>
      rw [readHeading]
      split
      · rename_i kind
        obtain ⟨stands, later⟩ := inOrder_ofToken .text (by simp [kind]) inOrder
        obtain ⟨reached, follows, after⟩ := ih later
        refine ⟨reached, ?_, after⟩
        exact (Piece.nodes_append [_] _) ▸ inOrder_append.mpr ⟨_, stands, follows⟩
      · rename_i kind
        obtain ⟨stands, later⟩ := inOrder_ofToken .openingTag (by simp [kind]) inOrder
        exact ⟨_, stands, later⟩
      · exact ⟨low, .nil le_rfl, inOrder⟩

/-- What is left of a file becomes faults in order. -/
theorem inOrder_remainder (inOrder : Token.InOrder high low tokens) :
    InOrder low (remainder tokens) high := by
  unfold remainder
  split
  · exact .nil inOrder.le
  · rename_i token rest
    split
    · exact .nil inOrder.le
    · rename_i last found
      split
      · rename_i ends
        cases inOrder with
        | endOfFile _ after leading within => exact leading.mono after within
        | cons kind _ _ _ => exact absurd ends kind
      · rename_i real
        cases inOrder with
        | endOfFile ends _ _ _ => exact absurd ends real
        | cons kind leading forward later =>
            obtain ⟨after, within⟩ := Token.le_last forward later found
            have leaf : (⟨.error, none, token.start, last.stop, []⟩ : Node).Ordered :=
              Node.ordered_of_leaf after rfl
            exact inOrder_append.mpr ⟨_, leading, .cons le_rfl leaf (.nil within)⟩

/-- Putting faults in the places of missing signs moves no node. -/
theorem inOrder_settleMissing (inOrder : InOrder low (Piece.nodes pieces) high) :
    InOrder low (Piece.nodes (pieces.map settleMissing)) high := by
  have kept (piece : Piece) : (settleMissing piece).leading = piece.leading ∧
      (settleMissing piece).node.start = piece.node.start ∧
      (settleMissing piece).node.stop = piece.node.stop ∧
      (settleMissing piece).node.children = piece.node.children := by
    unfold settleMissing
    dsimp only
    split <;> exact ⟨rfl, rfl, rfl, rfl⟩
  exact Piece.inOrder_map (fun piece => (kept piece).1) (fun piece => (kept piece).2.1)
    (fun piece => (kept piece).2.2.1) (fun piece => (kept piece).2.2.2) inOrder

/-- The statements of a file stand in order, and what is left follows behind them. -/
theorem readStatements_inOrder (inOrder : Token.InOrder high low tokens) :
    ∃ reached, InOrder low (Piece.nodes (readStatements tokens).1) reached ∧
      Token.InOrder high reached (readStatements tokens).2 := by
  have nothing : InOrder low (Piece.nodes []) low := .nil le_rfl
  exact Reader.many_inOrder (keepsOrder_grammar _ _ .statement) nothing _ inOrder

/-- A syntax tree ends with the text. -/
theorem stop_ofCode (code : List Char) : (Node.ofCode code).stop.offset = byteLength code := by
  change (Point.origin.read code).offset = byteLength code
  rw [Point.offset_read]
  exact Nat.zero_add _

/-- **Syntax trees are in order.** In the syntax tree of every text, the nodes in a node stand one
after the other between its start and its end. -/
theorem ordered_ofCode (code : List Char) : (Node.ofCode code).Ordered := by
  obtain ⟨between, heading, inOrderRest⟩ := readHeading_inOrder (Token.inOrder_read code)
  obtain ⟨reached, statements, inOrderLeft⟩ := readStatements_inOrder inOrderRest
  have children : InOrder 0 (Node.ofCode code).children (byteLength code) := by
    refine inOrder_append.mpr ⟨reached, ?_, inOrder_remainder inOrderLeft⟩
    rw [Piece.nodes_append]
    exact inOrder_append.mpr ⟨between, heading, inOrder_settleMissing statements⟩
  have stop := stop_ofCode code
  -- The root begins with its first child.
  have start : (Node.ofCode code).start =
      ((Node.ofCode code).children.head?.map Node.start).getD .origin := rfl
  have inside : InOrder (Node.ofCode code).start.offset (Node.ofCode code).children
      (Node.ofCode code).stop.offset := by
    rw [stop, start]
    cases nodes : (Node.ofCode code).children with
    | nil => exact .nil (Nat.zero_le _)
    | cons first rest =>
        rw [nodes] at children
        obtain ⟨_, ordered, later⟩ := inOrder_cons.mp children
        exact .cons le_rfl ordered later
  exact .mk inside.le inside

end Files

end PhpTestIndex.Php
