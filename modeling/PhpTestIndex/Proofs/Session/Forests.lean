import PhpTestIndex.Proofs.Pest.Assembly
import PhpTestIndex.Proofs.Pest.Spans
import PhpTestIndex.Proofs.Php.Documents
import PhpTestIndex.Proofs.PhpUnit.Assembly
import PhpTestIndex.Proofs.PhpUnit.Spans
import PhpTestIndex.Proofs.Session.Identity
import PhpTestIndex.Proofs.Test.WellFormed

/-! # What every forest is like

Whatever a file holds and however deep its groups are nested, a forest that is read of it is named
by ancestry (`PhpTestIndex.Dialect.names_from_ancestry`), its spans nest and follow each other as the
nodes of the syntax tree do (`PhpTestIndex.Dialect.spans_nest`), and a result with tests is a
well-formed forest (`PhpTestIndex.Session.result_wellFormed`). A file that declares no test has none,
so there is no forest of containers alone.
-/

namespace PhpTestIndex

/-- A way to read a file, wherever its reader stands. -/
inductive Dialect
  | classes (context : Context)
  | calls (reader : Pest.Reader)

namespace Dialect

/-- The forest that is read of a file. -/
def forest? (dialect : Dialect) (directory : String) (document : Php.Document) (file : String) :
    Option (List Definition) :=
  match dialect with
  | classes context => (PhpUnit.read document file context).1
  | calls reader => (reader.read directory document file).1

/-- Two files declare tests of the same names, whatever labels and annotations they have. -/
def SameNames (dialect : Dialect) (document document' : Php.Document) : Prop :=
  match dialect with
  | classes _ => PhpUnit.suiteNames document = PhpUnit.suiteNames document'
  | calls _ => Pest.callNames document = Pest.callNames document'

variable {dialect : Dialect} {directory file : String} {text : List Char}
  {document : Php.Document} {forest : List Definition}

/-- What is read of a text that parses is put together from classes with tests. -/
theorem assembled (parsed : Php.Document.read text = .ok document)
    (found : dialect.forest? directory document file = some forest) :
    Definition.Assembled file forest := by
  cases dialect with
  | classes context =>
      exact PhpUnit.assembled_of_forest? (Session.words_of_read parsed) found
  | calls reader => exact Pest.assembled_of_read found

/-- **Names come from ancestry.** In every forest, what a node is called follows from the nodes
above it, and labels and annotations have no part in it: another file that declares the same names
gives the same identities in the same order. -/
theorem names_from_ancestry (parsed : Php.Document.read text = .ok document)
    (found : dialect.forest? directory document file = some forest) :
    (∀ lineage ∈ Definition.forestLineages [] forest, lineage.NamedByAncestry) ∧
      ∀ text' document' forest', Php.Document.read text' = .ok document' →
        dialect.forest? directory document' file = some forest' →
        dialect.SameNames document document' →
        Definition.identities forest = Definition.identities forest' := by
  refine ⟨(assembled parsed found).namedByAncestry, ?_⟩
  intro text' document' forest' parsed' found' same
  cases dialect with
  | classes context =>
      exact PhpUnit.identities_of_suiteNames_eq (Session.words_of_read parsed)
        (Session.words_of_read parsed') found found' same
  | calls reader => exact Pest.identities_of_callNames_eq found found' same

/-- A test with a label of its own and a row of data. -/
def labelled : List Char :=
  ("<?php namespace A;class ATest\x7b#[TestDox('adds'),TestWith([1])]" ++
    "function testA()\x7b\x7d\x7d").toList

/-- The same test without them. -/
def unlabelled : List Char :=
  "<?php namespace A;class ATest\x7bfunction testA()\x7b\x7d\x7d".toList

/-- A test with a label of its own and the same test without it are shown differently, and have the
same names and the same identities. -/
theorem labelled_names :
    ∃ document document' forest forest', Php.Document.read labelled = .ok document ∧
      Php.Document.read unlabelled = .ok document' ∧
      (classes .start).forest? "/" document "f.php" = some forest ∧
      (classes .start).forest? "/" document' "f.php" = some forest' ∧
      (Definition.forestNodes forest)[2]?.map Definition.label = some "adds" ∧
      (Definition.forestNodes forest')[2]?.map Definition.label = some "testA" ∧
      (∀ lineage ∈ Definition.forestLineages [] forest, lineage.NamedByAncestry) ∧
      Definition.identities forest = Definition.identities forest' := by
  obtain ⟨document, parsed, names, forest, found, label⟩ :=
    @Php.exists_document_of_check labelled
      (fun document => PhpUnit.suiteNames document = [⟨some "A", "ATest", [some "testA"]⟩] ∧
        ∃ forest ∈ PhpUnit.forest? document "f.php",
          (Definition.forestNodes forest)[2]?.map Definition.label = some "adds")
      _ (by decide +kernel)
  obtain ⟨document', parsed', names', forest', found', label'⟩ :=
    @Php.exists_document_of_check unlabelled
      (fun document => PhpUnit.suiteNames document = [⟨some "A", "ATest", [some "testA"]⟩] ∧
        ∃ forest ∈ PhpUnit.forest? document "f.php",
          (Definition.forestNodes forest)[2]?.map Definition.label = some "testA")
      _ (by decide +kernel)
  have foundHere : (classes .start).forest? "/" document "f.php" = some forest := found
  have foundThere : (classes .start).forest? "/" document' "f.php" = some forest' := found'
  obtain ⟨named, identities⟩ := names_from_ancestry parsed foundHere
  exact ⟨document, document', forest, forest', parsed, parsed', foundHere, foundThere, label,
    label', named,
    identities unlabelled document' forest' parsed' foundThere (names.trans names'.symm)⟩

/-- What is read of a syntax tree in order is grouped from suites that are laid out as the tree
is. -/
theorem exists_laidOut (ordered : document.root.Ordered)
    (found : dialect.forest? directory document file = some forest) :
    ∃ suites, forest = Definition.groupByNamespace file suites ∧
      (∀ suite ∈ suites, suite.kind = .classSuite) ∧
      Definition.LaidOut document.root.start.offset document.root.stop.offset suites := by
  cases dialect with
  | classes context => exact PhpUnit.exists_laidOut_of_forest? ordered found
  | calls reader => exact Pest.exists_laidOut_of_read ordered found

/-- **Spans nest and follow source order.** If the syntax tree of a file is in order, every node of a
forest stands inside its parent and siblings stand one after the other; a data set stands where its
test does, and a namespace goes from its first class to its last one. -/
theorem spans_nest (ordered : document.root.Ordered)
    (found : dialect.forest? directory document file = some forest) : Definition.Nested forest := by
  obtain ⟨suites, rfl, kinds, laidOut⟩ := exists_laidOut ordered found
  exact Definition.nested_groupByNamespace kinds laidOut

/-- Two classes of one namespace, the first with a row of data. -/
def neighbours : List Char :=
  ("<?php namespace A;class ATest\x7b#[TestWith([1])]function testA()\x7b\x7d\x7d" ++
    "class BTest\x7bfunction testB()\x7b\x7dfunction testC()\x7b\x7d\x7d").toList

/-- Two classes beside each other, with tests and rows, have spans that nest. -/
theorem neighbours_spans_nest :
    ∃ document forest, Php.Document.read neighbours = .ok document ∧ document.root.Ordered ∧
      (classes .start).forest? "/" document "f.php" = some forest ∧
      (Definition.forestNodes forest).length = 7 ∧ Definition.Nested forest := by
  obtain ⟨document, parsed, forest, found, size⟩ :=
    @Php.exists_document_of_check neighbours
      (fun document => ∃ forest ∈ PhpUnit.forest? document "f.php",
        (Definition.forestNodes forest).length = 7)
      _ (by decide +kernel)
  have ordered : document.root.Ordered :=
    Php.root_of_read parsed ▸ Php.ordered_ofCode document.code
  have foundHere : (classes .start).forest? "/" document "f.php" = some forest := found
  exact ⟨document, forest, parsed, ordered, foundHere, size, spans_nest ordered foundHere⟩

end Dialect

namespace Session

/-- A file declares a test, in a class or by a call. -/
def DeclaresTest (document : Php.Document) : Prop :=
  PhpUnit.suites document ≠ [] ∨ ∃ call ∈ Pest.reachedCalls document, call.IsTest

/-- A file has a forest exactly if it declares a test. -/
theorem forest?_eq_none_iff (document : Php.Document) (directory root file : String) :
    document.forest? directory root file = none ↔ ¬ DeclaresTest document := by
  have byCalls := Pest.read_eq_none_iff (Pest.Reader.start.setRoot root) directory document file
  rw [Php.Document.forest?, Option.or_eq_none_iff, PhpUnit.forest?_eq_none_iff,
    show Pest.forest? directory root document file = none ↔ _ from byCalls, DeclaresTest]
  simp only [ne_eq, not_or, not_not, not_exists, not_and]

/-- **Every result is a well-formed forest.** A text that parses has a forest exactly if it declares
a test, and then the forest is well-formed. -/
theorem result_wellFormed (session : Session) (directory file : String) (text : List Char) :
    match (session.read directory file text).result with
    | .error fault => Php.Document.read text = .error fault
    | .ok none => ∃ document, Php.Document.read text = .ok document ∧ ¬ DeclaresTest document
    | .ok (some forest) =>
      (∃ document, Php.Document.read text = .ok document ∧ DeclaresTest document) ∧
        Definition.WellFormed forest := by
  have result := session.read_result directory file text
  cases parsed : Php.Document.read text with
  | error fault =>
      rw [result, parsed]
      rfl
  | ok document =>
      have noForest := forest?_eq_none_iff document directory session.root file
      cases found : document.forest? directory session.root file with
      | none =>
          rw [result, parsed, Except.map, found]
          exact ⟨document, rfl, noForest.mp found⟩
      | some forest =>
          have given : (session.read directory file text).result = .ok (some forest) := by
            rw [result, parsed, Except.map, found]
          rw [given]
          refine ⟨⟨document, rfl, ?_⟩, ?_⟩
          · by_contra absent
            rw [noForest.mpr absent] at found
            cases found
          · rcases found_of_result parsed given with inClasses | ⟨_, byCalls⟩
            · exact (PhpUnit.assembled_of_forest? (words_of_read parsed) inClasses).wellFormed
            · exact (Pest.assembled_of_read byCalls).wellFormed

end Session

end PhpTestIndex
