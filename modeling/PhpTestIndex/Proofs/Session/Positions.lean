import PhpTestIndex.Proofs.Php.InlineTag
import PhpTestIndex.Proofs.Session.Forests

/-! # Where the nodes of a forest stand in a file

The offsets of a node count in the code that was parsed, which is the text of the file with adjacent
tags separated. So they lead to the declaration in the file as long as no tags are separated before
the end of it, and no further (`PhpTestIndex.Dialect.offsets_in_file`). After that the declaration
stands earlier in the file, by what was added before it.
-/

namespace PhpTestIndex

namespace Span

variable {span : Span} {text : List Char}

/-- The offsets of a stretch lead to the same bytes in a text and in its code. -/
def Addresses (span : Span) (text : List Char) : Prop :=
  Text.bytesBetween text span.start.offset span.stop.offset =
    Text.bytesBetween (Php.separateTags text) span.start.offset span.stop.offset

instance (span : Span) (text : List Char) : Decidable (span.Addresses text) :=
  inferInstanceAs (Decidable (_ = _))

/-- How a stretch of the code of a text is found in the text. -/
structure FoundIn (span : Span) (text : List Char) : Prop where
  /-- What ends before the first change is where the stretch says. -/
  before : (∀ change, Php.firstChange? text = some change → span.stop.offset ≤ change) →
    span.Addresses text
  /-- What goes around the first change is not. -/
  around : ∀ change, Php.firstChange? text = some change → span.start.offset ≤ change →
    change < span.stop.offset → ¬ span.Addresses text
  /-- What stands in a later run, or the part of it that does, stands earlier by what was added. -/
  after : ∀ low high added, span.start.offset ≤ low → high ≤ span.stop.offset →
    Php.MovedBy text low high added →
    Text.bytesBetween (Php.separateTags text) low high =
      Text.bytesBetween text (low - added) (high - added)

/-- Any stretch is found as described: where it says if it ends before the first change, elsewhere if
it goes around it, and moved by what was added if it stands behind. -/
theorem foundIn (span : Span) (text : List Char) : span.FoundIn text where
  before within := by
    cases changes : Php.firstChange? text with
    | none => rw [Addresses, Php.separateTags_of_firstChange? changes]
    | some change => exact Php.bytesBetween_of_le_change changes (within change changes)
  around _ changes low high := Php.bytesBetween_ne_of_change changes low high
  after _ _ _ _ _ moved := Php.bytesBetween_of_movedBy moved

/-- A stretch up to the end of the code is not found where tags are separated, because the text is
shorter. -/
theorem not_addresses_of_stop_eq (forward : span.start.offset < span.stop.offset)
    (ends : span.stop.offset = byteLength (Php.separateTags text))
    (adjacent : Php.hasAdjacentTags text = true) : ¬ span.Addresses text := by
  intro same
  have shorter := Php.byteLength_lt_separateTags adjacent
  have lengths := congrArg List.length same
  rw [Text.length_bytesBetween, Text.length_bytesBetween] at lengths
  omega

end Span

namespace Dialect

variable {dialect : Dialect} {directory file : String} {text : List Char}
  {document : Php.Document} {forest : List Definition}

/-- **Offsets count in the code.** Every node stands in the code. A node that ends before tags are
separated is where its offsets say in the file, and a node around the first such place is not; what
stands after such places stands 31 bytes earlier for each of them, or 30 bytes where a carriage
return is dropped. In a forest of calls, whose root goes to the end of the file, all nodes are where
their offsets say exactly if no tags are separated. -/
theorem offsets_in_file (parsed : Php.Document.read text = .ok document)
    (found : dialect.forest? directory document file = some forest) :
    (∀ node ∈ Definition.forestNodes forest,
      node.span.Between 0 (byteLength (Php.separateTags text)) ∧ node.span.FoundIn text) ∧
      ∀ reader, dialect = calls reader →
        ((∀ node ∈ Definition.forestNodes forest, node.span.Addresses text) ↔
          Php.hasAdjacentTags text = false) := by
  have root := Php.root_of_read parsed
  have ordered : document.root.Ordered := root ▸ Php.ordered_ofCode document.code
  have ends : document.root.stop.offset = byteLength (Php.separateTags text) := by
    rw [root, Php.stop_ofCode, Php.code_of_read parsed]
  constructor
  · obtain ⟨suites, rfl, kinds, laidOut⟩ := exists_laidOut ordered found
    intro node among
    obtain ⟨_, forward, before⟩ := Definition.between_groupByNamespace kinds laidOut node among
    exact ⟨⟨Nat.zero_le _, forward, before.trans ends.le⟩, node.span.foundIn text⟩
  · rintro reader rfl
    obtain ⟨⟨node, among, span⟩, forward⟩ := Pest.exists_root_of_read ordered found
    constructor
    · intro addressed
      by_contra adjacent
      rw [Bool.not_eq_false] at adjacent
      refine Span.not_addresses_of_stop_eq ?_ ?_ adjacent (addressed node among)
      · rw [span]
        exact forward
      · rw [span]
        exact ends
    · intro apart node _
      have unchanged := (Php.firstChange?_eq_none_iff text).mpr apart
      refine (node.span.foundIn text).before fun change changes => ?_
      rw [unchanged] at changes
      cases changes

/-- Two classes with separated tags between them. -/
def betweenClasses : List Char :=
  "<?php class ATest\x7bfunction testA()\x7b\x7d\x7d\n?>\n<?php class BTest\x7bfunction testB()\x7b\x7d\x7d".toList

/-- Tags between two classes leave the offsets of the first class right and move those of the
second. -/
theorem betweenClasses_offsets :
    ∃ document forest, Php.Document.read betweenClasses = .ok document ∧
      (classes .start).forest? "/" document "f.php" = some forest ∧
      (Definition.forestNodes forest).map (fun node => decide (node.span.Addresses betweenClasses)) =
        [true, true, false, false] ∧
      (∀ node ∈ Definition.forestNodes forest,
        node.span.Between 0 (byteLength (Php.separateTags betweenClasses)) ∧
          node.span.FoundIn betweenClasses) := by
  obtain ⟨document, parsed, forest, found, addressed⟩ :=
    @Php.exists_document_of_check betweenClasses
      (fun document => ∃ forest ∈ PhpUnit.forest? document "f.php",
        (Definition.forestNodes forest).map
            (fun node => decide (node.span.Addresses betweenClasses)) =
          [true, true, false, false])
      _ (by decide +kernel)
  have foundHere : (classes .start).forest? "/" document "f.php" = some forest := found
  obtain ⟨inFile, _⟩ := offsets_in_file parsed foundHere
  exact ⟨document, forest, parsed, foundHere, addressed, inFile⟩

/-- A class after separated tags. -/
def afterTags : List Char :=
  "<?php\n?>\n<?php\nclass ATest\x7bfunction testA()\x7b\x7d\x7d".toList

/-- The offsets of a class after separated tags lead elsewhere in the file, 31 bytes too far. -/
theorem afterTags_offsets_exceed :
    ∃ document forest, Php.Document.read afterTags = .ok document ∧
      (classes .start).forest? "/" document "f.php" = some forest ∧
      (Definition.forestNodes forest).map Definition.label = ["ATest", "testA"] ∧
      ∀ node ∈ Definition.forestNodes forest, ¬ node.span.Addresses afterTags ∧
        Text.bytesBetween (Php.separateTags afterTags) node.span.start.offset
            node.span.stop.offset =
          Text.bytesBetween afterTags (node.span.start.offset - 31)
            (node.span.stop.offset - 31) := by
  obtain ⟨document, parsed, forest, found, labels, elsewhere⟩ :=
    @Php.exists_document_of_check afterTags
      (fun document => ∃ forest ∈ PhpUnit.forest? document "f.php",
        (Definition.forestNodes forest).map Definition.label = ["ATest", "testA"] ∧
        ∀ node ∈ Definition.forestNodes forest, ¬ node.span.Addresses afterTags ∧
          Text.bytesBetween (Php.separateTags afterTags) node.span.start.offset
              node.span.stop.offset =
            Text.bytesBetween afterTags (node.span.start.offset - 31)
              (node.span.stop.offset - 31))
      _ (by decide +kernel)
  exact ⟨document, forest, parsed, found, labels, elsewhere⟩

end Dialect

end PhpTestIndex
