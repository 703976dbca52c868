import Mathlib.Algebra.GroupWithZero.Nat
import PhpTestIndex.Proofs.Pest.Assembly
import PhpTestIndex.Proofs.PhpUnit.Assembly
import PhpTestIndex.Proofs.Session.Identity
import PhpTestIndex.Proofs.Test.Assembly
import PhpTestIndex.Proofs.Text.Digits
import PhpTestIndex.Proofs.Text.Piece
import PhpTestIndex.Report

/-! # The outline of a forest

The text of a forest shows a node on a line, indented by its depth.  A line shows the depth, the
kind and the start of its node (`PhpTestIndex.Outline.readRow?_row`), and the trees are gathered
again from the depths of their nodes (`PhpTestIndex.Outline.gather_entries`).  Labels are written as
they are: a line feed in a label breaks the line of its node, so that the text is an outline of the
forest exactly if no label has one (`PhpTestIndex.Session.outlines_iff`).
-/

namespace PhpTestIndex

/-- What an outline shows of a tree: the kind of each node, the line where it starts, and the nodes
below it. -/
inductive Outline
  | node (kind : TestKind) (line : Nat) (children : List Outline)

/-- What a line of an outline shows of its node. -/
structure Outline.Entry where
  depth : Nat
  kind : TestKind
  line : Nat

namespace Definition

mutual

/-- The outline of a tree. -/
def outline : Definition → Outline
  | ⟨kind, _, _, _, _, _, _, _, span, _, _, children⟩ =>
    .node kind span.start.line.toNat (forestOutline children)

/-- The outlines of some trees. -/
def forestOutline : List Definition → List Outline
  | [] => []
  | definition :: rest => definition.outline :: forestOutline rest

end

/-- What the line of a node is to show. -/
def entry (node : Definition) : Outline.Entry :=
  ⟨node.depth, node.kind, node.span.start.line.toNat⟩

/-- A line begins with two blanks for each level above the node, and then the kind of the node. -/
def StartsLine (node : Definition) (line : List Char) : Prop :=
  List.replicate (2 * node.depth) ' ' ++ node.kind.name.toList <+: line

/-- Every node has one line of a text, in the order of the nodes, and nothing else is in it. -/
def OnLines (forest : List Definition) (text : List Char) : Prop :=
  ∃ lines, Text.lines text = lines ++ [[]] ∧ List.Forall₂ StartsLine (forestNodes forest) lines

end Definition

namespace Outline

/-! ### Reading an outline -/

/-- A line without a mark at its end. -/
def withoutMark (mark : String) (line : List Char) : List Char :=
  (Text.before? mark.toList line).getD line

/-- The digits before a closing parenthesis at the end of a line. -/
def endDigits (line : List Char) : List Char :=
  ((withoutMark ")" line).reverse.takeWhile Char.isDigit).reverse

/-- Read a line: its blanks tell the depth, its first word the kind, and the number at its end,
before the marks, the line where the node starts. -/
def readRow? (line : List Char) : Option Entry :=
  let blanks := (line.takeWhile (· == ' ')).length
  let name := (line.drop blanks).takeWhile (· != ' ')
  let digits := endDigits (withoutMark " [skipped]" (withoutMark " [incomplete]" line))
  (TestKind.ofName? (String.ofList name)).map fun kind =>
    ⟨blanks / 2, kind, Text.digitsValue 10 digits⟩

/-- Gather trees from the lines of their nodes: what is deeper than a node and follows it stands
below it.  A tree comes with the depth of its root. -/
def gather : List Entry → List (Nat × Outline)
  | [] => []
  | entry :: rest =>
    let later := gather rest
    let below := later.takeWhile fun tree => entry.depth < tree.1
    (entry.depth, .node entry.kind entry.line (below.map Prod.snd)) ::
      later.dropWhile fun tree => entry.depth < tree.1

/-- Read a text with an outline. -/
def read? (text : List Char) : Option (List Outline) :=
  ((Text.lines text).dropLast.mapM readRow?).map fun entries => (gather entries).map Prod.snd

end Outline

/-! ### Lines -/

/-- The line of a node, without its end. -/
def Definition.row (node : Definition) : List Char :=
  List.replicate (2 * node.depth) ' ' ++ (padTo 9 node.kind.name).toList ++
    ' ' :: node.label.toList ++ " (line ".toList ++
    Nat.toDigits 10 node.span.start.line.toNat ++ [')'] ++
    (if node.annotations.skipped then " [skipped]" else "").toList ++
    (if node.annotations.incomplete then " [incomplete]" else "").toList

theorem Definition.toList_line (node : Definition) : node.line.toList = node.row ++ ['\n'] := by
  simp [Definition.line, Definition.row]

/-- How a line begins. -/
theorem Definition.exists_row_eq (node : Definition) :
    ∃ rest, node.row =
      List.replicate (2 * node.depth) ' ' ++ (node.kind.name.toList ++ ' ' :: rest) := by
  obtain ⟨pad, padded⟩ : ∃ pad, (padTo 9 node.kind.name).toList =
      node.kind.name.toList ++ List.replicate pad ' ' := ⟨_, by simp [padTo]; rfl⟩
  cases pad with
  | zero => exact ⟨_, by simp [Definition.row, padded]; rfl⟩
  | succ pad => exact ⟨_, by simp [Definition.row, padded, List.replicate_succ]; rfl⟩

/-- How a line ends. -/
theorem Definition.exists_row_eq_append (node : Definition) :
    ∃ front, node.row =
      front ++ ' ' :: Nat.toDigits 10 node.span.start.line.toNat ++ [')'] ++
        (if node.annotations.skipped then " [skipped]" else "").toList ++
        (if node.annotations.incomplete then " [incomplete]" else "").toList :=
  ⟨List.replicate (2 * node.depth) ' ' ++ (padTo 9 node.kind.name).toList ++
    ' ' :: node.label.toList ++ " (line".toList, by simp [Definition.row]⟩

/-- A line feed stands in the line of a node exactly as often as in its label. -/
theorem Definition.count_row (node : Definition) :
    node.row.count '\n' = node.label.toList.count '\n' := by
  have kind : (padTo 9 node.kind.name).toList.count '\n' = 0 := by
    cases node.kind <;> decide
  have digits : (Nat.toDigits 10 node.span.start.line.toNat).count '\n' = 0 := by
    refine List.count_eq_zero.mpr fun member => ?_
    exact absurd (Text.isDigit_of_mem_toDigits member) (by decide)
  have skipped : (if node.annotations.skipped then " [skipped]" else "").toList.count '\n' = 0 := by
    split <;> decide
  have incomplete :
      (if node.annotations.incomplete then " [incomplete]" else "").toList.count '\n' = 0 := by
    split <;> decide
  have word : " (line ".toList.count '\n' = 0 := by decide
  simp only [Definition.row, List.count_append, List.count_cons, List.count_replicate, kind, digits,
    skipped, incomplete, word, List.count_nil]
  simp

namespace Outline

theorem withoutMark_append (mark : String) (line : List Char) :
    withoutMark mark (line ++ mark.toList) = line := by
  rw [withoutMark, Text.before?_append, Option.getD_some]

/-- A mark is not there if the line ends otherwise. -/
theorem withoutMark_of_not_suffix {mark : String} {finish : List Char}
    (other : ¬ finish <:+ mark.toList) (shorter : finish.length ≤ mark.toList.length)
    (line : List Char) : withoutMark mark (line ++ finish) = line ++ finish :=
  Text.getD_before?_of_not_suffix fun ends =>
    other (List.suffix_of_suffix_length_le (List.suffix_append line finish) ends shorter)

/-- Both marks are taken off from behind, whether they are there or not, since what is in front of
them ends in a bracket. -/
theorem withoutMark_marks (line : List Char) (skipped incomplete : Bool) :
    withoutMark " [skipped]" (withoutMark " [incomplete]" (line ++ [')'] ++
      (if skipped then " [skipped]" else "").toList ++
      (if incomplete then " [incomplete]" else "").toList)) = line ++ [')'] := by
  have closed {mark : String} (other : ¬ [')'] <:+ mark.toList)
      (occupied : 1 ≤ mark.toList.length) :
      withoutMark mark (line ++ [')']) = line ++ [')'] :=
    withoutMark_of_not_suffix other occupied line
  have noSkipped := @closed " [skipped]" (by decide) (by decide)
  cases incomplete with
  | true =>
      rw [if_pos rfl, withoutMark_append]
      cases skipped with
      | true => rw [if_pos rfl, withoutMark_append]
      | false => simpa using noSkipped
  | false =>
      cases skipped with
      | true =>
          have kept := @withoutMark_of_not_suffix " [incomplete]" " [skipped]".toList (by decide)
            (by decide) (line ++ [')'])
          simp only [if_true, Bool.false_eq_true, if_false, String.toList_empty, List.append_nil]
          rw [kept, withoutMark_append]
      | false =>
          have noIncomplete := @closed " [incomplete]" (by decide) (by decide)
          simp only [Bool.false_eq_true, if_false, String.toList_empty, List.append_nil]
          rw [noIncomplete, noSkipped]

/-- The number in the bracket at the end of a line is found from behind, whatever stands in front.
-/
theorem endDigits_append (front : List Char) (n : Nat) :
    endDigits (front ++ ' ' :: Nat.toDigits 10 n ++ [')']) = Nat.toDigits 10 n := by
  have closed := withoutMark_append ")" (front ++ ' ' :: Nat.toDigits 10 n)
  have digits : ∀ c ∈ (Nat.toDigits 10 n).reverse, c.isDigit = true := fun c member =>
    Text.isDigit_of_mem_toDigits (List.mem_reverse.mp member)
  rw [endDigits, show [')'] = ")".toList from rfl, closed, List.reverse_append, List.reverse_cons,
    List.append_assoc, List.takeWhile_append_of_pos digits]
  simp

/-- The line of a node shows what it is to show, whatever its label is. -/
theorem readRow?_row (node : Definition) : readRow? node.row = some node.entry := by
  obtain ⟨rest, begins⟩ := node.exists_row_eq
  obtain ⟨front, ends⟩ := node.exists_row_eq_append
  have number : endDigits (withoutMark " [skipped]" (withoutMark " [incomplete]" node.row)) =
      Nat.toDigits 10 node.span.start.line.toNat := by
    rw [ends, withoutMark_marks, endDigits_append]
  have first : ∃ c more, node.kind.name.toList = c :: more ∧ c ≠ ' ' := by
    cases node.kind <;> exact ⟨_, _, rfl, by decide⟩
  have blanks : node.row.takeWhile (· == ' ') = List.replicate (2 * node.depth) ' ' := by
    obtain ⟨c, more, name, shown⟩ := first
    rw [begins, List.takeWhile_append_of_pos (by simp), name, List.cons_append,
      List.takeWhile_cons_of_neg (by simpa using shown), List.append_nil]
  have word : (node.row.drop (2 * node.depth)).takeWhile (· != ' ') = node.kind.name.toList := by
    have noBlank : node.kind.name.toList.all (· != ' ') = true := by
      cases node.kind <;> rfl
    rw [begins, List.drop_left' (List.length_replicate),
      List.takeWhile_append_of_pos (List.all_eq_true.mp noBlank),
      List.takeWhile_cons_of_neg (by simp), List.append_nil]
  simp only [readRow?, number, blanks, List.length_replicate, word, String.ofList_toList,
    TestKind.ofName?_name, Option.map_some, Text.digitsValue_toDigits, Definition.entry]
  rw [Nat.mul_div_cancel_left _ (by decide)]

/-! ### Gathering the trees -/

open Definition

/-- A row takes the rows behind it that are deeper as its children; the others stay beside it. -/
theorem gather_cons (depth : Nat) (kind : TestKind) (line : Nat) (rest : List Entry) :
    gather (⟨depth, kind, line⟩ :: rest) =
      (depth,
          .node kind line (((gather rest).takeWhile fun tree => depth < tree.1).map Prod.snd)) ::
        (gather rest).dropWhile fun tree => depth < tree.1 :=
  rfl

/-- What follows is not deeper than a depth. -/
def Rises (depth : Nat) (rest : List Entry) : Prop :=
  ∀ tree ∈ (gather rest).head?, tree.1 ≤ depth

/-- The outline of a forest is made tree by tree. -/
theorem forestOutline_eq_map (forest : List Definition) :
    forestOutline forest = forest.map outline := by
  induction forest with
  | nil => rfl
  | cons definition rest ih => rw [forestOutline, ih, List.map_cons]

/-- Depths are not part of an outline. -/
theorem outline_assignDepth (depth : Nat) (definition : Definition) :
    (definition.assignDepth depth).outline =
      .node definition.kind definition.span.start.line.toNat
        (definition.children.map fun child => (child.assignDepth (depth + 1)).outline) := by
  rw [assignDepth_eq, outline, forestOutline_eq_map, List.map_map]
  rfl

/-- The trees below a node, if each of them is gathered from its lines. -/
theorem gather_forest {depth : Nat} {forest : List Definition} {rest : List Entry}
    (each : ∀ definition ∈ forest, ∀ rest, Rises depth rest →
      gather ((definition.assignDepth depth).nodes.map entry ++ rest) =
        (depth, (definition.assignDepth depth).outline) :: gather rest)
    (rises : Rises depth rest) :
    gather ((forestNodes (forest.map (assignDepth depth))).map entry ++ rest) =
      forest.map (fun definition => (depth, (definition.assignDepth depth).outline)) ++
        gather rest := by
  induction forest with
  | nil => rfl
  | cons definition forest ih =>
      have later := ih fun other member => each other (List.mem_cons_of_mem definition member)
      have risesToo : Rises depth
          ((forestNodes (forest.map (assignDepth depth))).map entry ++ rest) := by
        rw [Rises, later]
        cases forest with
        | nil => exact rises
        | cons next forest =>
            rintro tree ⟨⟩
            exact Nat.le_refl depth
      rw [List.map_cons, forestNodes_cons, List.map_append, List.append_assoc,
        each definition List.mem_cons_self _ risesToo, later, List.map_cons, List.cons_append]

/-- A tree is gathered from its lines: what stands below its root is deeper, and what follows is
not. -/
theorem gather_nodes (definition : Definition) (depth : Nat) {rest : List Entry}
    (rises : Rises depth rest) :
    gather ((definition.assignDepth depth).nodes.map entry ++ rest) =
      (depth, (definition.assignDepth depth).outline) :: gather rest := by
  induction definition using induction_children generalizing depth rest with
  | step definition ih =>
      have risesToo : Rises (depth + 1) rest := fun tree member =>
        (rises tree member).trans (Nat.le_succ depth)
      have below := @gather_forest (depth + 1) definition.children rest
        (fun child member rest rises => ih child member (depth + 1) rises) risesToo
      have deeper : ∀ tree ∈ definition.children.map fun child =>
          (depth + 1, (child.assignDepth (depth + 1)).outline), decide (depth < tree.1) = true := by
        intro tree member
        obtain ⟨child, -, rfl⟩ := List.mem_map.mp member
        exact decide_eq_true (Nat.lt_succ_self depth)
      have stops : (gather rest).takeWhile (fun tree => decide (depth < tree.1)) = [] ∧
          (gather rest).dropWhile (fun tree => decide (depth < tree.1)) = gather rest := by
        cases following : gather rest with
        | nil => exact ⟨rfl, rfl⟩
        | cons tree more =>
            have notDeeper : ¬ depth < tree.1 :=
              Nat.not_lt.mpr (rises tree (by rw [following]; rfl))
            simp [notDeeper]
      have root : (definition.assignDepth depth).entry =
          ⟨depth, definition.kind, definition.span.start.line.toNat⟩ := by
        rw [assignDepth_eq]
        rfl
      rw [nodes_eq, List.map_cons, List.cons_append, root, assignDepth_children, gather_cons, below,
        List.takeWhile_append_of_pos deeper, List.dropWhile_append_of_pos deeper, stops.1, stops.2,
        List.append_nil, List.map_map, outline_assignDepth]
      rfl

/-- The trees of a forest are gathered from its lines. -/
theorem gather_entries (ground : List Definition) :
    (gather ((forestNodes (assignForestDepth 0 ground)).map entry)).map Prod.snd =
      forestOutline (assignForestDepth 0 ground) := by
  have gathered := @gather_forest 0 ground []
    (fun definition _ rest rises => gather_nodes definition 0 rises) nofun
  rw [List.append_nil] at gathered
  rw [assignForestDepth_eq_map, gathered, forestOutline_eq_map]
  simp [gather, Function.comp_def]

end Outline

/-! ### Lines of a text -/

namespace Text

/-- Lines that have no line feed of their own, with a line feed after each. -/
theorem lines_flatMap {rows : List (List Char)} (whole : ∀ row ∈ rows, '\n' ∉ row) :
    lines (rows.flatMap fun row => row ++ ['\n']) = rows ++ [[]] := by
  induction rows with
  | nil => rfl
  | cons row rows ih =>
      obtain ⟨here, later⟩ := List.forall_mem_cons.mp whole
      rw [List.flatMap_cons, List.append_assoc, List.singleton_append, lines, split_append,
        split_of_not_mem here, ← lines, ih later, List.singleton_append, List.cons_append]

end Text

namespace Definition

theorem toList_renderForest (forest : List Definition) :
    (renderForest forest).toList =
      ((forestNodes forest).map row).flatMap fun row => row ++ ['\n'] := by
  simp [renderForest, String.toList_join, List.flatMap_map, toList_line]

/-- The text of a forest has a line for each node, and one more for each line feed in a label. -/
theorem length_lines_renderForest (forest : List Definition) :
    (Text.lines (renderForest forest).toList).length =
      (forestNodes forest).length +
        ((forestNodes forest).map fun node => node.label.toList.count '\n').sum + 1 := by
  have count (nodes : List Definition) :
      ((nodes.map row).flatMap fun row => row ++ ['\n']).count '\n' =
        nodes.length + (nodes.map fun node => node.label.toList.count '\n').sum := by
    induction nodes with
    | nil => rfl
    | cons node nodes ih =>
        simp only [List.map_cons, List.flatMap_cons, List.count_append, count_row, ih,
          List.count_singleton_self, List.length_cons, List.sum_cons]
        omega
  rw [Text.lines, Text.length_split, toList_renderForest, count]

/-- Every row is read back as the entry of its node, whatever the label says. -/
theorem mapM_readRow?_rows (nodes : List Definition) :
    (nodes.map row).mapM Outline.readRow? = some (nodes.map entry) := by
  induction nodes with
  | nil => rfl
  | cons node nodes ih =>
      rw [List.map_cons, List.mapM_cons, Outline.readRow?_row, ih]
      rfl

/-- The row of a node starts the line of the node. -/
theorem startsLine_row (node : Definition) : node.StartsLine node.row := by
  obtain ⟨rest, begins⟩ := node.exists_row_eq
  exact ⟨' ' :: rest, by rw [begins, List.append_assoc]⟩

/-- Without line feeds in labels, the text of a forest is its outline. -/
theorem onLines_renderForest {forest : List Definition}
    (whole : ∀ node ∈ forestNodes forest, '\n' ∉ node.label.toList) :
    Text.lines (renderForest forest).toList = (forestNodes forest).map row ++ [[]] := by
  rw [toList_renderForest]
  refine Text.lines_flatMap fun line member => ?_
  obtain ⟨node, among, rfl⟩ := List.mem_map.mp member
  rw [← List.count_eq_zero, count_row, List.count_eq_zero]
  exact whole node among

/-- A line feed in a label takes a line that no node has. -/
theorem whole_of_onLines {forest : List Definition}
    (shown : OnLines forest (renderForest forest).toList) :
    ∀ node ∈ forestNodes forest, '\n' ∉ node.label.toList := by
  intro node among
  obtain ⟨lines, cut, starts⟩ := shown
  have size := length_lines_renderForest forest
  rw [cut, List.length_append, List.length_singleton, ← starts.length_eq] at size
  have none : ((forestNodes forest).map fun node => node.label.toList.count '\n').sum = 0 := by
    omega
  have each := List.sum_eq_zero_iff_forall_eq_nat.mp none
  exact List.count_eq_zero.mp (each _ (List.mem_map_of_mem among))

end Definition

namespace Session

open Definition

/-- Every result is put together from classes with tests. -/
theorem assembled_of_result {session : Session} {directory file : String} {text : List Char}
    {forest : List Definition}
    (found : (session.read directory file text).result = .ok (some forest)) :
    Assembled file forest := by
  cases parsed : Php.Document.read text with
  | error fault =>
      rw [read_result, parsed] at found
      cases found
  | ok document =>
      rcases found_of_result parsed found with inClasses | ⟨-, byCalls⟩
      · exact PhpUnit.assembled_of_forest? (words_of_read parsed) inClasses
      · exact Pest.assembled_of_read byCalls

/-- **The text of a forest is an outline of it exactly if no label has a line feed.** Then every
node has one line, in the order of the nodes, which begins with two blanks for each level and the
kind of the node, and the shape of the forest, the kinds and the lines where the nodes start are
read back from the text.  Each line feed in a label adds a line that no node has. -/
theorem outlines_iff {session : Session} {directory file : String} {text : List Char}
    {forest : List Definition}
    (found : (session.read directory file text).result = .ok (some forest)) :
    (OnLines forest (renderForest forest).toList ∧
        Outline.read? (renderForest forest).toList = some (forestOutline forest) ↔
      ∀ node ∈ forestNodes forest, '\n' ∉ node.label.toList) ∧
      (Text.lines (renderForest forest).toList).length =
        (forestNodes forest).length +
          ((forestNodes forest).map fun node => node.label.toList.count '\n').sum + 1 := by
  refine ⟨⟨fun ⟨shown, _⟩ => whole_of_onLines shown, fun whole => ?_⟩,
    length_lines_renderForest forest⟩
  · have cut := onLines_renderForest whole
    refine ⟨⟨_, cut, ?_⟩, ?_⟩
    · exact List.forall₂_map_right_iff.mpr (List.forall₂_same.mpr fun node _ => startsLine_row node)
    · obtain ⟨ground, rfl⟩ := (assembled_of_result found).depths
      rw [Outline.read?, cut, List.dropLast_concat, mapM_readRow?_rows, Option.map_some,
        Outline.gather_entries]

/-- A class in a namespace, with a label of its own and a row of data. -/
def labelledRow : List Char :=
  ("<?php namespace A;class ATest\x7b#[TestDox('adds'),TestWith([1])]" ++
    "function testA()\x7b\x7d\x7d").toList

/-- A class with a label on two lines. -/
def brokenLabel : List Char :=
  "<?php class ATest\x7b#[TestDox('adds\nnumbers')]function testA()\x7b\x7d\x7d".toList

/-- A row with a label is shown on a line of its own, and the whole tree is read back. -/
theorem labelledRow_outlined :
    ∃ forest, ((start "").read "/" "f.php" labelledRow).result = .ok (some forest) ∧
      (forestNodes forest).map kind = [.namespaceSuite, .classSuite, .method, .dataSet] ∧
      (∀ node ∈ forestNodes forest, '\n' ∉ node.label.toList) ∧
      OnLines forest (renderForest forest).toList ∧
      Outline.read? (renderForest forest).toList = some (forestOutline forest) := by
  obtain ⟨_, forest, -, found, kinds, whole⟩ :=
    @exists_forest_of_check "/" "" "f.php" labelledRow
      (fun _ forest =>
        (forestNodes forest).map kind =
          [.namespaceSuite, .classSuite, .method, .dataSet] ∧
        ∀ node ∈ forestNodes forest, '\n' ∉ node.label.toList) _
      (by unfold labelledRow
          simp only [String.toList_append, String.reduceToList]
          decide +kernel)
  obtain ⟨shown, readBack⟩ := (outlines_iff found).1.mpr whole
  exact ⟨forest, found, kinds, whole, shown, readBack⟩

/-- The second line of the label is the line of no node. -/
theorem brokenLabel_not_outlined :
    ∃ forest, ((start "").read "/" "f.php" brokenLabel).result = .ok (some forest) ∧
      (forestNodes forest).map label = ["ATest", "adds\nnumbers"] ∧
      (Text.lines (renderForest forest).toList).length = 4 ∧
      ¬ OnLines forest (renderForest forest).toList := by
  obtain ⟨_, forest, -, found, labels⟩ :=
    @exists_forest_of_check "/" "" "f.php" brokenLabel
      (fun _ forest => (forestNodes forest).map label = ["ATest", "adds\nnumbers"]) _
      (by decide +kernel)
  refine ⟨forest, found, labels, ?_, fun shown => ?_⟩
  · have nodes : (forestNodes forest).length = 2 := by simpa using congrArg List.length labels
    have breaks : (forestNodes forest).map (fun node => node.label.toList.count '\n') = [0, 1] := by
      have counts := congrArg (List.map fun text : String => text.toList.count '\n') labels
      simpa [Function.comp_def] using counts
    rw [length_lines_renderForest, nodes, breaks]
    rfl
  · obtain ⟨node, among, isLabel⟩ : ∃ node ∈ forestNodes forest, node.label = "adds\nnumbers" :=
      List.mem_map.mp (by rw [labels]; simp)
    exact whole_of_onLines shown node among (by rw [isLabel]; decide)

end Session

end PhpTestIndex
