import PhpTestIndex.Proofs.Pest.Identity
import PhpTestIndex.Proofs.Php.Documents
import PhpTestIndex.Proofs.PhpUnit.Identity
import PhpTestIndex.Proofs.Session.History

/-! # Which nodes of a forest have one identifier

Identifiers do not always tell the nodes of a forest apart. A file can go back to a namespace, a
class can be called like a namespace, and tests that are registered by calls can be registered twice
under the same descriptions or under descriptions that look like the marks in identifiers. In a file
that declares its classes and methods once, there is no other way for two nodes to have one identifier
(`PhpTestIndex.Session.result_shares_ids`).
-/

namespace PhpTestIndex.Session

/-- A text that parses is named by words and paths. -/
theorem words_of_read {text : List Char} {document : Php.Document}
    (parsed : Php.Document.read text = .ok document) : PhpUnit.Words document := by
  rw [Php.eq_ofTree_of_read parsed]
  exact PhpUnit.words_of_wellNamed (Php.wellNamed_ofCode (Php.separateTags text))

/-- The forest of a text that parses is made of its tests in classes, or else of its tests
registered by calls. -/
theorem found_of_result {session : Session} {directory file : String} {text : List Char}
    {document : Php.Document} {forest : List Definition}
    (parsed : Php.Document.read text = .ok document)
    (found : (session.read directory file text).result = .ok (some forest)) :
    PhpUnit.forest? document file = some forest ∨
      PhpUnit.forest? document file = none ∧
        Pest.forest? directory session.root document file = some forest := by
  rw [read_result, parsed] at found
  have found : document.forest? directory session.root file = some forest := Except.ok.inj found
  unfold Php.Document.forest? at found
  cases inClasses : PhpUnit.forest? document file with
  | none =>
      rw [inClasses, Option.none_or] at found
      exact .inr ⟨rfl, found⟩
  | some classes =>
      rw [inClasses, Option.some_or] at found
      exact .inl found

/-- A text parses and gives a forest that satisfies a condition, if this is checked. -/
theorem exists_forest_of_check {directory root file : String} {text : List Char}
    (condition : Php.Document → List Definition → Prop)
    [∀ document, DecidablePred (condition document)]
    (checked : (match Php.Document.read text with
      | .error _ => false
      | .ok document => (document.forest? directory root file).any fun forest =>
          condition document forest) = true) :
    ∃ document forest, Php.Document.read text = .ok document ∧
      ((start root).read directory file text).result = .ok (some forest) ∧
      condition document forest := by
  split at checked
  · cases checked
  · rename_i document parsed
    obtain ⟨forest, found, holds⟩ := (Option.any_eq_true ..).mp checked
    refine ⟨document, forest, parsed, ?_, of_decide_eq_true holds⟩
    rw [read_result, parsed]
    exact congrArg Except.ok found

/-- **Which identifiers coincide.** In a file that declares its classes and methods once, two nodes
of the forest have one identifier exactly if both are nodes of one namespace, or one is the node of
a namespace and the other says nothing but the name of a class called like it, or the tests are
registered by calls and the places of the nodes are worded alike. So the identifiers of classes,
methods and their data sets are different, and so are those of groups, tests and data sets that are
registered under different descriptions without marks in them. -/
theorem result_shares_ids (session : Session) (directory file : String) (text : List Char)
    {document : Php.Document} {forest : List Definition}
    (parsed : Php.Document.read text = .ok document) (once : PhpUnit.DeclaresOnce document)
    (found : (session.read directory file text).result = .ok (some forest)) :
    (Definition.forestLineages [] forest).Pairwise fun first second =>
      (first.node.id = second.node.id ↔
        Definition.SharesId
          (PhpUnit.forest? document file = none ∧
            Pest.Coincide first.node.className (Pest.placeOf first) (Pest.placeOf second))
          first.node second.node) := by
  rcases found_of_result parsed found with inClasses | ⟨noClasses, byCalls⟩
  · exact PhpUnit.pairwise_sharesId (words_of_read parsed) once inClasses
      fun _ _ byCalls => by simp [inClasses] at byCalls
  · exact Pest.pairwise_sharesId byCalls fun _ _ => and_iff_right noClasses

/-- A group with two tests, one of which has two rows of data. -/
def groupedTests : List Char :=
  "<?php describe('a',function()\x7bit('b')->with([[1],[2]]);test('b');\x7d);".toList

/-- Tests in groups of calls, where a group comes back, share their identifiers exactly as said. -/
theorem groupedTests_shares_ids :
    ∃ document forest, Php.Document.read groupedTests = .ok document ∧
      PhpUnit.DeclaresOnce document ∧
      ((start "").read "/" "f.php" groupedTests).result = .ok (some forest) ∧
      (Definition.forestLineages [] forest).Pairwise fun first second =>
        (first.node.id = second.node.id ↔
          Definition.SharesId
            (PhpUnit.forest? document "f.php" = none ∧
              Pest.Coincide first.node.className (Pest.placeOf first) (Pest.placeOf second))
            first.node second.node) := by
  obtain ⟨document, forest, parsed, found, once⟩ :=
    @exists_forest_of_check "/" "" "f.php" groupedTests
      (fun document _ => PhpUnit.DeclaresOnce document) _ (by decide +kernel)
  exact ⟨document, forest, parsed, once, found,
    result_shares_ids _ "/" "f.php" groupedTests parsed once found⟩

/-- Files, each with its name, that declare their classes and methods once. -/
def repeating : List (String × String) :=
  [ -- A namespace comes back after another one.
    ("f.php", "<?php namespace A;class ATest{function testA(){}}" ++
      "namespace B;class BTest{function testB(){}}namespace A;class CTest{function testC(){}}"),
    -- A class is called like a namespace.
    ("f.php", "<?php namespace A;class BTest{function testB(){}}" ++
      "namespace A\\BTest;class CTest{function testC(){}}"),
    -- Two groups have one description, two tests one label, and two data sets one row.
    ("f.php",
      "<?php describe('a',function()\x7bit('b');\x7d);describe('a',function()\x7bit('c');\x7d);"),
    ("f.php", "<?php it('a');test('it a');"),
    ("f.php", "<?php it('a')->with([[1],[1]]);"),
    -- A test is described by nothing.
    ("f.php", "<?php test('');"),
    -- A test is described by the name of a group, another one by that of a data set.
    ("f.php", "<?php describe('a',function()\x7bit('b');\x7d);test('\x60a\x60');"),
    ("f.php", "<?php test('a')->with([[1]]);test('a with data set \x22(1)\x22');"),
    -- A file has no name without its extension.
    ("...php", "<?php it('a');it('b');")]

/-- A document declares its classes and methods once, and yet two nodes of a forest have one
identifier. -/
def RepeatsId (document : Php.Document) (forest : List Definition) : Prop :=
  PhpUnit.DeclaresOnce document ∧ ¬ ((Definition.forestNodes forest).map Definition.id).Nodup

instance (document : Php.Document) : DecidablePred (RepeatsId document) := fun _ =>
  inferInstanceAs (Decidable (_ ∧ _))

/-- Each of the ways in which two nodes have one identifier is open to some file. -/
theorem repeating_repeat_ids :
    repeating.Forall fun file => ∃ document forest,
      Php.Document.read file.2.toList = .ok document ∧
      ((start "").read "/" file.1 file.2.toList).result = .ok (some forest) ∧
      RepeatsId document forest := by
  have checked : ∀ file ∈ repeating, (match Php.Document.read file.2.toList with
      | .error _ => false
      | .ok document => (document.forest? "/" "" file.1).any fun forest =>
          RepeatsId document forest) = true := by
    decide +kernel
  exact List.forall_iff_forall_mem.mpr fun file among =>
    exists_forest_of_check RepeatsId (checked file among)

end PhpTestIndex.Session
