import PhpTestIndex.Proofs.Pest.Faithful
import PhpTestIndex.Proofs.PhpUnit.Faithful
import PhpTestIndex.Proofs.Session.Forests

/-! # Whether a forest shows the placeholder

The placeholder is put into the code wherever a closing tag and an opening tag stand on successive
lines, also where they are no tags but a part of a string or a comment. As long as that does not
happen inside something that is read for a forest, no node shows the placeholder, and all
descriptions, rows and values are those that are written in the file
(`PhpTestIndex.Dialect.faithful_where_unbroken`). A string around such a place shows it.
-/

namespace PhpTestIndex.Dialect

/-- What tests are called after the place of their file shows no placeholder. -/
def PlaceIsClean (dialect : Dialect) (directory file : String) : Prop :=
  match dialect with
  | classes _ => True
  | calls reader =>
    Php.IsClean (Pest.syntheticClass directory reader.root file).1 ∧
      Php.IsClean (Pest.syntheticClass directory reader.root file).2

variable {dialect : Dialect} {directory file : String} {text : List Char}
  {document : Php.Document} {forest : List Definition}

/-- **The placeholder stays in the code,** unless tags are separated inside something that is read.
A file that does not show it has a forest that does not either, and what the forest says is written
in the file, if no name, comment, string, row or attribute stands around separated tags. The value
of a string that does stand around them shows the placeholder. -/
theorem faithful_where_unbroken (parsed : Php.Document.read text = .ok document)
    (absent : ¬ Php.placeholder <:+: text) (place : dialect.PlaceIsClean directory file)
    (found : dialect.forest? directory document file = some forest) :
    (Php.Unbroken text document →
      ∀ node ∈ Definition.forestNodes forest, node.IsFaithful text document) ∧
      ∀ literal value, document.root.Inside literal → literal.IsAround text →
        document.stringValue? literal = some value → ¬ Php.IsClean value := by
  constructor
  · intro unbroken
    cases dialect with
    | classes context => exact PhpUnit.isFaithful_of_forest? parsed absent unbroken found
    | calls reader => exact Pest.isFaithful_of_read parsed absent unbroken place.1 place.2 found
  · intro literal value inside around reads
    exact Php.not_isClean_of_isAround parsed inside around reads

/-- A class after separated tags, with a string and a comment. -/
def tagsBefore : List Char :=
  ("<?php\n?>\n<?php\nclass ATest\x7b/** @group a */#[TestDox('adds')]" ++
    "function testA()\x7b\x7d\x7d").toList

/-- Tags that are separated in front of a class leave its rows and groups faithful to the file. -/
theorem tagsBefore_faithful :
    ∃ document forest, Php.Document.read tagsBefore = .ok document ∧
      Php.changes tagsBefore = [8] ∧
      (classes .start).forest? "/" document "f.php" = some forest ∧
      (Definition.forestNodes forest).map (fun node => node.annotations.values) =
        [[], ["a", "adds"]] ∧
      ∀ node ∈ Definition.forestNodes forest, node.IsFaithful tagsBefore document := by
  obtain ⟨document, parsed, unbroken, forest, found, values⟩ :=
    @Php.exists_document_of_check tagsBefore
      (fun document => Php.Unbroken tagsBefore document ∧
        ∃ forest ∈ PhpUnit.forest? document "f.php",
          (Definition.forestNodes forest).map (fun node => node.annotations.values) =
            [[], ["a", "adds"]])
      _ (by decide +kernel)
  have foundHere : (classes .start).forest? "/" document "f.php" = some forest := found
  have place : (classes .start).PlaceIsClean "/" "f.php" := trivial
  exact ⟨document, forest, parsed, by decide +kernel, foundHere, values,
    (faithful_where_unbroken parsed (by decide +kernel) place foundHere).1 unbroken⟩

/-- A test with a text that goes around what looks like tags. -/
def tagsInside : List Char :=
  "<?php class ATest\x7b#[TestDox('a ?>\n<?php b')]function testA()\x7b\x7d\x7d".toList

/-- The placeholder is put into the text and shown in the label of the test. -/
theorem tagsInside_leaks :
    ∃ document forest, Php.Document.read tagsInside = .ok document ∧
      ¬ Php.placeholder <:+: tagsInside ∧
      (classes .start).forest? "/" document "f.php" = some forest ∧
      (Definition.forestNodes forest).map Definition.label =
        ["ATest", "a ?>\n___PSEUDO_INLINE_PLACEHOLDER___<?php b"] ∧
      ∃ node ∈ Definition.forestNodes forest,
        ¬ Php.IsClean node.label ∧ ∃ value ∈ node.annotations.values, ¬ Php.IsClean value := by
  obtain ⟨document, parsed, forest, found, labels, leaks⟩ :=
    @Php.exists_document_of_check tagsInside
      (fun document => ∃ forest ∈ PhpUnit.forest? document "f.php",
        (Definition.forestNodes forest).map Definition.label =
          ["ATest", "a ?>\n___PSEUDO_INLINE_PLACEHOLDER___<?php b"] ∧
        ∃ node ∈ Definition.forestNodes forest,
          ¬ Php.IsClean node.label ∧ ∃ value ∈ node.annotations.values, ¬ Php.IsClean value)
      _ (by decide +kernel)
  exact ⟨document, forest, parsed, by decide +kernel, found, labels, leaks⟩

end PhpTestIndex.Dialect
