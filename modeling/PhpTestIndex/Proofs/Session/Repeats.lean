import Mathlib.Data.Finset.Card
import PhpTestIndex.Proofs.Php.Documents
import PhpTestIndex.Proofs.Session.Announcing

/-! # Which identifiers are reported

A node repeats an identifier if a node before it has the same one
(`PhpTestIndex.Definition.repeated`). Reading a file reports each node of its forest that does, in
the order of a visit and before any listener is told, and keeps the forest as it is
(`PhpTestIndex.Session.repeats_reported_first`).
-/

namespace PhpTestIndex

namespace Definition

/-- The identifier of the node at a position is one of those given, or a node before it has it. -/
def recurs (seen : List String) (nodes : List Definition) (entry : Definition × Nat) : Bool :=
  entry.1.id ∈ seen || (nodes.take entry.2).any fun earlier => earlier.id = entry.1.id

/-- The nodes of a list that have the identifier of a node before them, in order. -/
def repeated (nodes : List Definition) : List Definition :=
  (nodes.zipIdx.filter (recurs [] nodes)).map Prod.fst

/-- A node recurs behind another one as it would behind one identifier more that was seen. -/
theorem recurs_cons_succ (seen : List String) (node : Definition) (rest : List Definition)
    (entry : Definition × Nat) :
    recurs seen (node :: rest) (entry.1, entry.2 + 1) = recurs (node.id :: seen) rest entry := by
  rw [recurs, recurs, List.take_succ_cons, List.any_cons, ← Bool.or_assoc]
  congr 1
  rw [← Bool.decide_or]
  exact decide_eq_decide.mpr (by rw [List.mem_cons, or_comm, eq_comm])

/-- An identifier that is there already need not be remembered again. -/
theorem recurs_cons_of_mem {seen : List String} {id : String} (known : id ∈ seen) :
    recurs (id :: seen) = recurs seen := by
  funext nodes entry
  have same : entry.1.id ∈ id :: seen ↔ entry.1.id ∈ seen := by
    rw [List.mem_cons]
    exact ⟨fun either => either.elim (fun equal => equal ▸ known) fun member => member, .inr⟩
  rw [recurs, recurs, decide_eq_decide.mpr same]

/-- **The scan finds the repetitions.** Remembering the identifiers so far, it finds the nodes whose
identifier was remembered when it began or belongs to a node before them. -/
theorem repeatedIds_eq (seen : List String) (nodes : List Definition) :
    repeatedIds seen nodes = (nodes.zipIdx.filter (recurs seen nodes)).map Prod.fst := by
  induction nodes generalizing seen with
  | nil => rfl
  | cons node rest ih =>
      have later : ((rest.zipIdx 1).filter (recurs seen (node :: rest))).map Prod.fst =
          repeatedIds (node.id :: seen) rest := by
        rw [ih, List.zipIdx_succ, List.filter_map, List.map_map]
        congr 1
        exact List.filter_congr fun entry _ => recurs_cons_succ seen node rest entry
      have first : recurs seen (node :: rest) (node, 0) = decide (node.id ∈ seen) := by
        simp [recurs]
      rw [repeatedIds, List.zipIdx_cons, List.filter_cons, first]
      by_cases known : node.id ∈ seen
      · have kept : repeatedIds (node.id :: seen) rest = repeatedIds seen rest := by
          rw [ih, ih, recurs_cons_of_mem known]
        simp [known, later, kept]
      · simp [known, later]

/-- The nodes that repeat an identifier and the different identifiers make up all nodes. -/
theorem length_repeatedIds (seen : List String) (nodes : List Definition) :
    (repeatedIds seen nodes).length + ((nodes.map id).toFinset \ seen.toFinset).card =
      nodes.length := by
  induction nodes generalizing seen with
  | nil => simp [repeatedIds]
  | cons node rest ih =>
      rw [repeatedIds, List.map_cons, List.toFinset_cons, List.length_cons]
      by_cases known : node.id ∈ seen
      · have inSeen : node.id ∈ seen.toFinset := List.mem_toFinset.mpr known
        rw [if_pos (by simpa using known), Finset.insert_sdiff_of_mem _ inSeen, List.length_cons,
          ← ih seen]
        omega
      · have notInSeen : node.id ∉ seen.toFinset := fun member => known (List.mem_toFinset.mp member)
        have split : (insert node.id (rest.map id).toFinset \ seen.toFinset) =
            insert node.id ((rest.map id).toFinset \ (node.id :: seen).toFinset) := by
          ext other
          simp only [Finset.mem_sdiff, Finset.mem_insert, List.toFinset_cons]
          grind
        rw [if_neg (by simpa using known), split, Finset.card_insert_of_notMem (by simp),
          ← ih (node.id :: seen)]
        omega

/-- Visiting the trees of a forest one after the other visits the nodes of the forest in order. -/
theorem flatMap_visited (forest : List Definition) :
    (forest.flatMap fun tree => (Walk.ofTree tree).visited) = forestNodes forest := by
  rw [forestNodes_eq_flatMap]
  refine List.flatMap_congr fun tree _ => ?_
  rw [Walk.visited_eq, Walk.ofTree, forestNodes_cons, forestNodes_nil, List.append_nil]

end Definition

/-- A warning is about an identifier that occurs again. -/
def warnsOfRepeat (text : String) : Bool :=
  "duplicate test id '".toList.isPrefixOf text.toList

/-- Every warning about repeated identifiers can be told from the text of the warning. -/
theorem warnsOfRepeat_of_mem {file warning : String} {forest : List Definition}
    (said : warning ∈ duplicateWarnings file forest) : warnsOfRepeat warning = true := by
  obtain ⟨node, _, rfl⟩ := List.mem_map.mp said
  simp [warnsOfRepeat, String.toList_append]

/-- What is said about a listener that failed is about no identifier. -/
theorem not_warnsOfRepeat_warning (announcement : Announcement) :
    warnsOfRepeat announcement.warning = false := by
  rw [warnsOfRepeat, Announcement.warning]
  simp only [String.toList_append]
  cases announcement.node.kind <;> rfl

namespace Session

variable (session : Session) (directory file : String) (text : List Char)

/-- **Each repeated identifier is reported once, before anybody is told.** Reading a text that has a
forest first warns of each node whose identifier a node before it in the visit of the trees has, in
the order of the visit; then the listeners are told, and no other warning is about an identifier.
So there are as many of these warnings as there are nodes more than identifiers. The forest is given
back as it was found. -/
theorem repeats_reported_first {document : Php.Document} {forest : List Definition}
    (parsed : Php.Document.read text = .ok document)
    (found : document.forest? directory session.root file = some forest) :
    let outcome := session.read directory file text
    let nodes := forest.flatMap fun tree => (Definition.Walk.ofTree tree).visited
    let reports := (Definition.repeated nodes).map fun node =>
      "duplicate test id '" ++ node.id ++ "' in " ++ file
    outcome.result = .ok (some forest) ∧
      outcome.events = reports.map .warned ++
        (Announcement.due session.listeners forest).flatMap Event.ofAnnouncement ∧
      outcome.warnings.filter warnsOfRepeat = reports ∧
      reports.length + (nodes.map Definition.id).toFinset.card = nodes.length := by
  intro outcome nodes reports
  have visit : nodes = Definition.forestNodes forest := Definition.flatMap_visited forest
  have scanned : duplicateWarnings file forest = reports := by
    rw [duplicateWarnings, Definition.repeatedIds_eq, ← visit]
    rfl
  have happened : outcome = ⟨.ok (some forest),
      reports.map .warned ++ (session.announce forest).flatMap Event.ofAnnouncement⟩ := by
    rw [← scanned]
    simp only [outcome, read_eq, parsed, found]
  refine ⟨by rw [happened], ?_, ?_, ?_⟩
  · rw [happened, announce, Announcement.ofForest_eq_due]
  · have repeats : ∀ warning ∈ reports, warnsOfRepeat warning = true := by
      rw [← scanned]
      exact fun warning => warnsOfRepeat_of_mem
    have others : (Announcement.warnings (session.announce forest)).filter warnsOfRepeat = [] := by
      rw [List.filter_eq_nil_iff, Announcement.warnings, List.forall_mem_map]
      intro announcement _
      simp [not_warnsOfRepeat_warning]
    rw [happened, Outcome.warnings_mk_append, List.filter_append, others,
      List.filter_eq_self.mpr repeats, List.append_nil]
  · have counted := Definition.length_repeatedIds [] nodes
    rw [List.toFinset_nil, Finset.sdiff_empty, Definition.repeatedIds_eq] at counted
    rw [List.length_map]
    exact counted

/-- A file that declares one method of a class three times, and another one. -/
def sameMethod : List Char :=
  ("<?php class ATest\x7bfunction testA()\x7b\x7dfunction testA()\x7b\x7dfunction testB()\x7b\x7d" ++
    "function testA()\x7b\x7d\x7d").toList

/-- A listener that comes for tests and always fails. -/
def failingListener : Listener :=
  ⟨.method, fun _ _ => ["no"]⟩

/-- A method that is declared twice is reported before anything is announced, and the failing
listener is reported behind it. -/
theorem sameMethod_reported :
    ∃ document forest, Php.Document.read sameMethod = .ok document ∧
      document.forest? "/" "" "f.php" = some forest ∧
      (Definition.forestNodes forest).length = 5 ∧
      (let outcome := ((start "").listen failingListener).read "/" "f.php" sameMethod
       outcome.result = .ok (some forest) ∧
         outcome.warnings.filter warnsOfRepeat =
           ["duplicate test id 'ATest::testA' in f.php",
            "duplicate test id 'ATest::testA' in f.php"]) := by
  obtain ⟨document, parsed, checked⟩ := @Php.exists_document_of_check sameMethod
    (fun document => ((document.forest? "/" "" "f.php").map fun forest =>
      ((Definition.forestNodes forest).length,
        (Definition.repeated (Definition.forestNodes forest)).map Definition.id)) =
      some (5, ["ATest::testA", "ATest::testA"])) _ (by decide +kernel)
  obtain ⟨forest, found, numbers⟩ := Option.map_eq_some_iff.mp checked
  obtain ⟨count, ids⟩ := Prod.mk.inj numbers
  obtain ⟨result, _, reported, _⟩ :=
    repeats_reported_first ((start "").listen failingListener) "/" "f.php" sameMethod parsed
      found
  refine ⟨document, forest, parsed, found, count, result, ?_⟩
  rw [reported, Definition.flatMap_visited]
  have texts := congrArg
    (List.map fun id => "duplicate test id '" ++ id ++ "' in " ++ "f.php") ids
  rw [List.map_map] at texts
  exact texts.trans (by decide +kernel)

end Session

end PhpTestIndex
