import PhpTestIndex.Proofs.PhpUnit.Assembly
import PhpTestIndex.Proofs.PhpUnit.Situated
import PhpTestIndex.Proofs.Test.Spans

/-! # Where tests in classes stand

In a syntax tree that is in order, what is read of a class stands where the class stands, and its
tests where the methods stand. So the classes of a file are laid out as the file is
(`PhpTestIndex.PhpUnit.exists_laidOut_of_forest?`).
-/

namespace PhpTestIndex.PhpUnit

variable {document : Php.Document} {file : String}

/-- A test stands where its method stands. -/
theorem laidOut_of_method? {parent node : Definition} {method : Php.Placed}
    (ordered : method.node.Ordered) (made : method? document parent method = some node) :
    Definition.LaidOut method.node.start.offset method.node.stop.offset [node] := by
  obtain ⟨nameNode, _, rfl⟩ := exists_eq_of_method? made
  refine Definition.LaidOut.test rfl rfl rfl ordered.forward ?_
  exact List.forall_mem_map.mpr fun index _ => ⟨rfl, rfl, rfl⟩

/-- Listing siblings with what stands before them keeps the siblings. -/
theorem map_node_place (before : Option Php.Node) (nodes : List Php.Node) :
    (Php.Node.place before nodes).map Php.Placed.node = nodes := by
  induction nodes generalizing before with
  | nil => rfl
  | cons node rest ih => rw [Php.Node.place, List.map_cons, ih]

/-- The tests of a class stand in its body as the methods do. -/
theorem laidOut_methods (suite : Definition) {body : Php.Node} (ordered : body.Ordered) :
    Definition.LaidOut body.start.offset body.stop.offset (methods document suite body) := by
  have part : ((body.placedChildren.filter fun member =>
      member.node.kind = .methodDeclaration).map Php.Placed.node).Sublist body.children := by
    have placed : body.placedChildren.map Php.Placed.node = body.namedChildren :=
      map_node_place none body.namedChildren
    refine List.Sublist.trans (List.filter_sublist.map _) ?_
    rw [placed]
    exact List.filter_sublist
  rw [methods, List.filterMap_eq_flatMap_toList]
  refine .flatMap (ordered.inside.sublist part) fun method _ orderedMethod => ?_
  cases made : method? document suite method with
  | none => exact .nil orderedMethod.forward
  | some node => exact laidOut_of_method? orderedMethod made

/-- What is read of a candidate stands where the class stands. -/
theorem laidOut_of_suite? {hierarchy : Hierarchy} {candidate : Candidate} {node : Definition}
    (ordered : candidate.declaration.node.Ordered)
    (read : suite? document hierarchy file candidate = some node) :
    Definition.LaidOut candidate.declaration.node.start.offset
      candidate.declaration.node.stop.offset [node] := by
  obtain ⟨body, found, _, rfl⟩ := exists_eq_of_suite? read
  have inside : body ∈ candidate.declaration.node.children := List.mem_of_find?_eq_some found
  obtain ⟨after, orderedBody, before⟩ := ordered.inside.bounds inside
  exact .around (.inl rfl) rfl rfl ((laidOut_methods _ orderedBody).mono after before)

/-- The candidates of a file stand in order. -/
theorem inOrder_candidates (ordered : document.root.Ordered) :
    Php.InOrder document.root.start.offset
      ((Survey.ofDocument document .start).candidates.map fun candidate =>
        candidate.declaration.node) document.root.stop.offset := by
  have kept {situated : Situated} {class' : Declared}
      (declared : situated.declared? document = some class') :
      class'.declaration.node = situated.statement.node := by
    rw [(Situated.of_declared? declared).1]
  have part := @map_filterMap_sublist _ _ _ (Situated.declared? document)
    (fun situated => situated.statement.node) (fun declared => declared.declaration.node) kept
    (situatedStatements document)
  rw [filterMap_situatedStatements, ← Survey.declared_ofDocument document .start,
    List.map_map] at part
  exact (inOrder_situatedAmong none none ordered.inside).sublist part

/-- The classes of a forest are laid out as the file is. -/
theorem exists_laidOut_of_forest? (ordered : document.root.Ordered) {forest : List Definition}
    (found : forest? document file = some forest) :
    ∃ suites, forest = Definition.groupByNamespace file suites ∧
      (∀ suite ∈ suites, suite.kind = .classSuite) ∧
      Definition.LaidOut document.root.start.offset document.root.stop.offset suites := by
  obtain ⟨suites, _, rfl, read, stand⟩ := exists_suites_of_forest? found
  refine ⟨suites, rfl, kind_of_forall₂ stand, ?_⟩
  rw [read, List.filterMap_eq_flatMap_toList]
  refine .flatMap (inOrder_candidates ordered) fun candidate _ orderedClass => ?_
  cases made : suite? document ((Survey.ofDocument document .start).hierarchy document) file
      candidate with
  | none => exact .nil orderedClass.forward
  | some node => exact laidOut_of_suite? orderedClass made

end PhpTestIndex.PhpUnit
