import PhpTestIndex.Proofs.Php.Documents
import PhpTestIndex.Proofs.PhpUnit.Identity
import PhpTestIndex.Proofs.PhpUnit.Situated
import PhpTestIndex.Proofs.Test.Runs

/-! # What the nodes of namespaces cover

Grouping sees the suites of a file only. So the node of a namespace covers a class of another
namespace exactly if this class stands between two suites of the namespace that no suite of another
namespace separates (`PhpTestIndex.PhpUnit.coversOwn_iff`). A block of another namespace without
suites does not begin a new node (`PhpTestIndex.PhpUnit.helperBetween_covers_foreign`).
-/

namespace PhpTestIndex

/-- A stretch of a file covers a node of its syntax tree. -/
def Span.Covers (span : Span) (node : Php.Node) : Prop :=
  span.start.offset ≤ node.start.offset ∧ node.stop.offset ≤ span.stop.offset

instance (span : Span) (node : Php.Node) : Decidable (span.Covers node) :=
  inferInstanceAs (Decidable (_ ∧ _))

namespace PhpUnit

/-- No node of a namespace covers a class of another namespace or of none. -/
def CoversOwn (document : Php.Document) (forest : List Definition) : Prop :=
  ∀ node ∈ Definition.forestNodes forest, node.kind = .namespaceSuite →
    ∀ situated ∈ situatedStatements document, situated.inNamespace ≠ node.inNamespace →
      ∀ declaration ∈ situated.classes, ¬ node.span.Covers declaration

instance (document : Php.Document) (forest : List Definition) :
    Decidable (CoversOwn document forest) :=
  inferInstanceAs (Decidable (∀ node ∈ Definition.forestNodes forest,
    node.kind = .namespaceSuite → ∀ situated ∈ situatedStatements document,
      situated.inNamespace ≠ node.inNamespace →
        ∀ declaration ∈ situated.classes, ¬ node.span.Covers declaration))

/-- Between two suites of a namespace, if only suites of this namespace stand there, no class of
another namespace or of none is declared. -/
def Uninterrupted (document : Php.Document) : Prop :=
  ∀ before first between last after,
    situatedStatements document = before ++ first :: (between ++ last :: after) →
    (first.suite? document).isSome → (last.suite? document).isSome →
    first.inNamespace ≠ none → last.inNamespace = first.inNamespace →
    (∀ situated ∈ between, (situated.suite? document).isSome →
      situated.inNamespace = first.inNamespace) →
    ∀ situated ∈ between, situated.inNamespace ≠ first.inNamespace → situated.classes = []

variable {document : Php.Document}

section Forests

variable {file : String} {forest : List Definition}

/-- The forest of a file is its suites, grouped by namespace. -/
theorem exists_classes_of_forest? (found : forest? document file = some forest) :
    ∃ classes, List.Forall₂ (IsSuiteNode document) (suites document) classes ∧
      forest = Definition.groupByNamespace file classes := by
  obtain ⟨classes, stand, ⟨_, absent⟩ | ⟨_, grouped⟩⟩ := exists_forest?_eq document file
  · rw [absent] at found
    cases found
  · exact ⟨classes, stand, Option.some.inj (found.symm.trans grouped)⟩

/-- Each root of the forest reaches from its first class to its last one. -/
theorem spansClasses_of_forest? (found : forest? document file = some forest) :
    ∀ root ∈ forest, root.SpansClasses := by
  obtain ⟨classes, stand, rfl⟩ := exists_classes_of_forest? found
  exact fun root => Definition.spansClasses_of_mem_groupByNamespace (kind_of_forall₂ stand)

/-- The node of a namespace goes from the first to the last one of some suites that follow each
other and are of this namespace. -/
theorem exists_run_of_namespace (words : Words document)
    (found : forest? document file = some forest) {node : Definition}
    (member : node ∈ Definition.forestNodes forest) (kind : node.kind = .namespaceSuite) :
    ∃ name before run after first last, node.inNamespace = some name ∧
      suites document = before ++ (run ++ after) ∧
      (∀ suite ∈ run, suite.inNamespace = some name) ∧
      run.head? = some first ∧ run.getLast? = some last ∧
      node.span = ⟨first.declaration.node.span.start, last.declaration.node.span.stop⟩ := by
  obtain ⟨stand, grouped⟩ := roots_of_forest? found
  rcases Definition.mem_forestNodes member with ⟨among, _⟩ | below
  · have isRoot := grouped node among
    obtain ⟨firstNode, lastNode, starts, ends, span⟩ :=
      spansClasses_of_forest? found node among kind
    obtain ⟨early, late, rfl⟩ := List.mem_iff_append.mp among
    have ofNode : node.members = node.children := if_pos kind
    rw [List.flatMap_append, List.flatMap_cons, ofNode] at stand
    obtain ⟨before, rest, split, _, later⟩ := exists_append_of_forall₂ stand
    obtain ⟨run, after, rfl, inRun, _⟩ := exists_append_of_forall₂ later
    obtain ⟨first, head, firstStands⟩ := exists_head?_left inRun starts
    obtain ⟨last, back, lastStands⟩ := exists_getLast?_left inRun ends
    cases isRoot with
    | classSuite other _ => simp [other] at kind
    | namespaceSuite name _ _ within =>
        refine ⟨name, before, run, after, first, last, rfl, split, ?_, head, back, ?_⟩
        · intro suite ofRun
          obtain ⟨child, inNode, stands⟩ := exists_left_of_mem_right inRun.flip ofRun
          exact stands.inNamespace.symm.trans (within child inNode).2
        · rw [span, firstStands.span, lastStands.span]
  · obtain ⟨spot, _, stands⟩ := exists_left_of_mem_right (forall₂_spots words stand) below
    exact absurd kind stands.kind

/-- In a tree that is in order, each suite ends before the next ones start. -/
theorem pairwise_suites (ordered : document.root.Ordered) :
    (suites document).Pairwise fun suite suite' =>
      suite.declaration.node.stop.offset ≤ suite'.declaration.node.start.offset := by
  rw [← filterMap_suite?, List.pairwise_filterMap]
  refine (pairwise_situatedStatements ordered).imp ?_
  intro situated situated' apart suite isSuite suite' isSuite'
  rw [(Situated.of_suite? isSuite).1, (Situated.of_suite? isSuite').1]
  exact apart

/-- A suite in an ordered tree does not end before it starts. -/
theorem forward_of_mem_suites (ordered : document.root.Ordered) {suite : Declared}
    (member : suite ∈ suites document) :
    suite.declaration.node.start.offset ≤ suite.declaration.node.stop.offset := by
  rw [← filterMap_suite?] at member
  obtain ⟨situated, among, isSuite⟩ := List.mem_filterMap.mp member
  rw [(Situated.of_suite? isSuite).1]
  exact (ordered_of_mem_situatedStatements ordered among).forward

/-- The node of a namespace covers its classes. -/
theorem bounds_of_mem_children (ordered : document.root.Ordered)
    (found : forest? document file = some forest) {root child : Definition}
    (member : root ∈ forest) (kind : root.kind = .namespaceSuite) (below : child ∈ root.children) :
    root.span.start.offset ≤ child.span.start.offset ∧
      child.span.stop.offset ≤ root.span.stop.offset := by
  have stand := (roots_of_forest? found).1
  obtain ⟨first, last, starts, ends, span⟩ := spansClasses_of_forest? found root member kind
  have ofRoot : root.members = root.children := if_pos kind
  have among : root.children.Sublist (forest.flatMap Definition.members) := by
    rw [List.flatMap_def, ← ofRoot]
    exact List.sublist_flatten_of_mem (List.mem_map_of_mem member)
  have apart : (forest.flatMap Definition.members).Pairwise fun item item' =>
      item.span.stop.offset ≤ item'.span.start.offset := by
    refine pairwise_of_forall₂ stand ?_ (pairwise_suites ordered)
    intro suite suite' item item' stands stands' before
    rw [stands.span, stands'.span]
    exact before
  have forward : ∀ item ∈ root.children, item.span.start.offset ≤ item.span.stop.offset := by
    intro item present
    obtain ⟨suite, inFile, stands⟩ := exists_left_of_mem_right stand (among.subset present)
    rw [stands.span]
    exact forward_of_mem_suites ordered inFile
  rw [span]
  exact Definition.bounds_of_pairwise (apart.sublist among) forward starts ends below

/-- Suites of one namespace that follow each other are covered by one node. -/
theorem exists_namespace_of_run (ordered : document.root.Ordered)
    (found : forest? document file = some forest) {name : String} {before run after : List Declared}
    (split : suites document = before ++ (run ++ after)) (occupied : run ≠ [])
    (within : ∀ suite ∈ run, suite.inNamespace = some name) :
    ∃ node ∈ Definition.forestNodes forest, node.kind = .namespaceSuite ∧
      node.inNamespace = some name ∧ ∀ suite ∈ run, node.span.Covers suite.declaration.node := by
  obtain ⟨classes, stand, rfl⟩ := exists_classes_of_forest? found
  have kinds := kind_of_forall₂ stand
  rw [split] at stand
  -- The classes are cut where the suites are.
  obtain ⟨early, rest, rfl, _, later⟩ := exists_append_of_forall₂ stand.flip
  obtain ⟨nodes, late, rfl, ofRun, _⟩ := exists_append_of_forall₂ later
  have present : nodes ≠ [] := by
    rintro rfl
    exact occupied (List.forall₂_nil_left_iff.mp ofRun)
  have inNamespace : ∀ node ∈ nodes, node.inNamespace = some name := by
    intro node member
    obtain ⟨suite, among, stands⟩ := exists_left_of_mem_right ofRun.flip member
    exact stands.inNamespace.trans (within suite among)
  rw [← List.append_assoc] at found kinds ⊢
  obtain ⟨root, among, kind, named, first, last, children⟩ :=
    @Definition.exists_node_of_run file name early nodes late kinds present inNamespace
  refine ⟨root, ?_, kind, named, ?_⟩
  · rw [Definition.forestNodes_eq_flatMap]
    refine List.mem_flatMap.mpr ⟨root, among, ?_⟩
    rw [Definition.nodes_eq]
    exact List.mem_cons_self
  · intro suite member
    obtain ⟨node, inNodes, stands⟩ := exists_left_of_mem_right ofRun member
    have below : node.assignDepth 1 ∈ root.children := by
      rw [children]
      exact List.mem_map_of_mem (by simp [inNodes])
    have bounds := bounds_of_mem_children ordered found among kind below
    rw [Definition.assignDepth_span, stands.span] at bounds
    exact bounds

/-- A class of another namespace that the node of a namespace covers stands between two suites. -/
theorem coversOwn_of_uninterrupted (ordered : document.root.Ordered)
    (wellNamed : Php.WellNamed document.code document.root)
    (found : forest? document file = some forest) (uninterrupted : Uninterrupted document) :
    CoversOwn document forest := by
  intro node member kind situated inFile foreign declaration among covers
  obtain ⟨name, before, run, after, first, last, named, split, within, starts, ends, span⟩ :=
    exists_run_of_namespace (words_of_wellNamed wellNamed) found member kind
  rw [span] at covers
  obtain ⟨fromFirst, toLast⟩ := covers
  obtain ⟨start, occupied, stop⟩ :=
    Situated.bounds_of_mem_classes ordered wellNamed inFile among
  have suiteOf {other : Situated} {suite : Declared} (ofRun : suite ∈ run)
      (isSuite : other.suite? document = some suite) : other.inNamespace = some name := by
    rw [← (Situated.of_suite? isSuite).2, within suite ofRun]
  -- A class is not empty, so its statement does not end where the first suite starts.
  have notBefore (opening : Situated) (isFirst : opening.suite? document = some first) :
      ¬ situated.statement.node.stop.offset ≤ opening.statement.node.start.offset := by
    rw [← (Situated.of_suite? isFirst).1]
    intro ended
    exact absurd (fromFirst.trans_lt (occupied.trans_le stop)) ended.not_gt
  have notAfter (closing : Situated) (isLast : closing.suite? document = some last) :
      ¬ closing.statement.node.stop.offset ≤ situated.statement.node.start.offset := by
    rw [← (Situated.of_suite? isLast).1]
    intro begun
    exact absurd (start.trans_lt (occupied.trans_le toLast)) begun.not_gt
  have notOfRun (suite : Declared) (ofRun : suite ∈ run) :
      situated.suite? document ≠ some suite := by
    intro isSuite
    exact foreign ((suiteOf ofRun isSuite).trans named.symm)
  obtain ⟨early, opening, between, closing, late, statements, isFirst, isLast, inBetween, only⟩ :=
    exists_between_of_run (pairwise_situatedStatements ordered)
      ((filterMap_suite? document).trans split) starts ends inFile notOfRun notBefore notAfter
  have opens := suiteOf (List.mem_of_head? starts) isFirst
  have closes := suiteOf (List.mem_of_getLast? ends) isLast
  have nothing : situated.classes = [] := by
    refine uninterrupted early opening between closing late statements (by simp [isFirst])
      (by simp [isLast]) (by simp [opens]) (closes.trans opens.symm) ?_ situated inBetween
      (by rwa [opens, ← named])
    intro other present isSome
    obtain ⟨suite, isSuite⟩ := Option.isSome_iff_exists.mp isSome
    exact (suiteOf (only other present suite isSuite) isSuite).trans opens.symm
  rw [nothing] at among
  cases among

/-- Two suites of one namespace that no suite of another one separates share a node. -/
theorem exists_namespace_of_statements (ordered : document.root.Ordered)
    (found : forest? document file = some forest) {before between after : List Situated}
    {opening closing : Situated}
    (statements : situatedStatements document =
      before ++ opening :: (between ++ closing :: after))
    (isFirst : (opening.suite? document).isSome) (isLast : (closing.suite? document).isSome)
    (named : opening.inNamespace ≠ none) (closes : closing.inNamespace = opening.inNamespace)
    (only : ∀ situated ∈ between, (situated.suite? document).isSome →
      situated.inNamespace = opening.inNamespace) :
    ∃ node ∈ Definition.forestNodes forest, node.kind = .namespaceSuite ∧
      node.inNamespace = opening.inNamespace ∧ node.span.Covers opening.statement.node ∧
      node.span.Covers closing.statement.node := by
  obtain ⟨first, isFirst⟩ := Option.isSome_iff_exists.mp isFirst
  obtain ⟨last, isLast⟩ := Option.isSome_iff_exists.mp isLast
  obtain ⟨name, opens⟩ := Option.ne_none_iff_exists'.mp named
  let run := first :: (between.filterMap (Situated.suite? document) ++ [last])
  have split : suites document = before.filterMap (Situated.suite? document) ++
      (run ++ after.filterMap (Situated.suite? document)) := by
    rw [← filterMap_suite?, statements]
    simp [run, isFirst, isLast]
  have within : ∀ suite ∈ run, suite.inNamespace = some name := by
    refine List.forall_mem_cons.mpr ⟨?_, List.forall_mem_append.mpr ⟨?_, ?_⟩⟩
    · rw [(Situated.of_suite? isFirst).2, opens]
    · intro suite member
      obtain ⟨other, present, isSuite⟩ := List.mem_filterMap.mp member
      rw [(Situated.of_suite? isSuite).2, only other present (by simp [isSuite]), opens]
    · rw [List.forall_mem_singleton, (Situated.of_suite? isLast).2, closes, opens]
  obtain ⟨node, member, kind, ofName, covers⟩ :=
    exists_namespace_of_run ordered found split (List.cons_ne_nil first _) within
  refine ⟨node, member, kind, ofName.trans opens.symm, ?_, ?_⟩
  · rw [← (Situated.of_suite? isFirst).1]
    exact covers first (by simp [run])
  · rw [← (Situated.of_suite? isLast).1]
    exact covers last (by simp [run])

/-- What stands between two suites that share a node is covered by it. -/
theorem uninterrupted_of_coversOwn (ordered : document.root.Ordered)
    (wellNamed : Php.WellNamed document.code document.root)
    (found : forest? document file = some forest) (coversOwn : CoversOwn document forest) :
    Uninterrupted document := by
  intro before opening between closing after statements isFirst isLast named closes only
    situated inBetween foreign
  obtain ⟨node, member, kind, ofName, ⟨fromFirst, _⟩, _, toLast⟩ :=
    exists_namespace_of_statements ordered found statements isFirst isLast named closes only
  have apart := pairwise_situatedStatements ordered
  have forward {other : Situated} (present : other ∈ situatedStatements document) :=
    (ordered_of_mem_situatedStatements ordered present).forward
  rw [statements] at apart forward
  obtain ⟨_, following, _⟩ := List.pairwise_append.mp apart
  obtain ⟨afterFirst, following⟩ := List.pairwise_cons.mp following
  have beforeLast := (List.pairwise_append.mp following).2.2 situated inBetween closing (by simp)
  have inFile : situated ∈ situatedStatements document := by
    rw [statements]
    simp [inBetween]
  rw [List.eq_nil_iff_forall_not_mem]
  intro declaration among
  obtain ⟨start, _, stop⟩ := Situated.bounds_of_mem_classes ordered wellNamed inFile among
  apply coversOwn node member kind situated inFile (by rwa [ofName]) declaration among
  constructor
  · calc node.span.start.offset
      _ ≤ opening.statement.node.start.offset := fromFirst
      _ ≤ opening.statement.node.stop.offset := forward (by simp)
      _ ≤ situated.statement.node.start.offset := afterFirst situated (by simp [inBetween])
      _ ≤ declaration.start.offset := start
  · calc declaration.stop.offset
      _ ≤ situated.statement.node.stop.offset := stop
      _ ≤ closing.statement.node.start.offset := beforeLast
      _ ≤ closing.statement.node.stop.offset := forward (by simp)
      _ ≤ node.span.stop.offset := toLast

/-- **What the nodes of namespaces cover.** In the forest of a file, no node of a namespace covers a
class of another namespace or of none, exactly if no such class is declared between two suites of a
namespace that no suite of another namespace separates. -/
theorem coversOwn_iff {text : List Char} (parsed : Php.Document.read text = .ok document)
    (found : forest? document file = some forest) :
    CoversOwn document forest ↔ Uninterrupted document := by
  have root := Php.root_of_read parsed
  have ordered : document.root.Ordered := root ▸ Php.ordered_ofCode document.code
  have wellNamed : Php.WellNamed document.code document.root :=
    root ▸ Php.wellNamed_ofCode document.code
  exact ⟨uninterrupted_of_coversOwn ordered wellNamed found,
    coversOwn_of_uninterrupted ordered wellNamed found⟩

end Forests

/-- A file that goes back to a namespace after a test of another one. -/
def testBetween : List Char :=
  ("<?php namespace A;class ATest\x7bfunction testA()\x7b\x7d\x7d" ++
    "namespace B;class BTest\x7bfunction testB()\x7b\x7d\x7d" ++
    "namespace A;class CTest\x7bfunction testC()\x7b\x7d\x7d").toList

/-- A namespace that is entered again after a suite of another one has two nodes, and each covers
only what is its own. -/
theorem testBetween_uninterrupted :
    ∃ document forest, Php.Document.read testBetween = .ok document ∧
      forest? document "f.php" = some forest ∧ forest.map Definition.id = ["A", "B", "A"] ∧
      CoversOwn document forest ∧ Uninterrupted document := by
  obtain ⟨document, parsed, forest, found, ids, coversOwn⟩ :=
    @Php.exists_document_of_check testBetween
      (fun document => ∃ forest ∈ forest? document "f.php",
        forest.map Definition.id = ["A", "B", "A"] ∧ CoversOwn document forest)
      _ (by decide +kernel)
  exact ⟨document, forest, parsed, found, ids, coversOwn,
    (coversOwn_iff parsed found).mp coversOwn⟩

/-- A file that goes back to a namespace after a class of another one that is no test. -/
def helperBetween : List Char :=
  ("<?php namespace A;class ATest\x7bfunction testA()\x7b\x7d\x7d" ++
    "namespace B;class Helper\x7b\x7d" ++
    "namespace A;class CTest\x7bfunction testC()\x7b\x7d\x7d").toList

/-- The two blocks of the namespace share a node, which covers the class between them. -/
theorem helperBetween_covers_foreign :
    ∃ document forest, Php.Document.read helperBetween = .ok document ∧
      forest? document "f.php" = some forest ∧ forest.map Definition.id = ["A"] ∧
      ¬ CoversOwn document forest := by
  obtain ⟨document, parsed, forest, found, ids, foreign⟩ :=
    @Php.exists_document_of_check helperBetween
      (fun document => ∃ forest ∈ forest? document "f.php",
        forest.map Definition.id = ["A"] ∧ ¬ CoversOwn document forest)
      _ (by decide +kernel)
  exact ⟨document, forest, parsed, found, ids, foreign⟩

end PhpUnit

end PhpTestIndex
