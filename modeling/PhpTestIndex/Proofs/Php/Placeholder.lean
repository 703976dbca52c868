import PhpTestIndex.Proofs.Php.Places
import PhpTestIndex.Proofs.Text.Parts

/-! # Where the placeholder is seen

A node stands apart if it ends before, or starts after, each place where separating tags puts the
placeholder (`PhpTestIndex.Php.Node.IsApart`). Then the same text stands in the file, on the same
line (`PhpTestIndex.Php.Node.isKept_of_isApart`), so it has no placeholder unless the file has one.
A node around such a place has it (`PhpTestIndex.Php.Node.placeholder_infix_of_isAround`).

The placeholder is a word in capitals, so no sign that is put between two texts is a part of it
(`PhpTestIndex.Php.IsForeign`), and undoing the escape sequences of a string does not make it.
-/

namespace PhpTestIndex.Php

/-! ### Texts without the placeholder -/

/-- The text does not show the placeholder. -/
def IsClean (text : String) : Prop :=
  ¬ placeholder <:+: text.toList

instance (text : String) : Decidable (IsClean text) :=
  inferInstanceAs (Decidable (¬ _))

/-- The placeholder has no character of the text. -/
def IsForeign (text : String) : Prop :=
  ∀ c ∈ text.toList, c ∉ placeholder

instance (text : String) : Decidable (IsForeign text) :=
  List.decidableBAll (· ∉ placeholder) text.toList

theorem IsClean.of_part {chars : List Char} {text : String} (absent : ¬ placeholder <:+: chars)
    (inside : text.toList <:+: chars) : IsClean text :=
  fun leaked => absent (leaked.trans inside)

/-- Texts that are put together with a sign between them show no placeholder if they do not. -/
theorem IsClean.glue {first glue second : String} (foreign : IsForeign glue) (occupied : glue ≠ "")
    (clean : IsClean first) (clean' : IsClean second) : IsClean (first ++ glue ++ second) := by
  intro leaked
  rw [String.toList_append, String.toList_append, List.append_assoc] at leaked
  cases signs : glue.toList with
  | nil => exact occupied (String.toList_eq_nil_iff.mp signs)
  | cons sign rest =>
      rw [IsForeign, signs] at foreign
      obtain ⟨first, others⟩ := List.forall_mem_cons.mp foreign
      rw [signs, List.cons_append] at leaked
      rcases Text.infix_or_infix_of_append_cons first leaked with before | after
      · exact clean before
      · exact clean' (Text.infix_of_infix_append others (by decide) after)

theorem isClean_empty : IsClean "" := by decide

/-- A clean text stays clean behind signs that the placeholder has none of. -/
theorem IsClean.after {glue text : String} (foreign : IsForeign glue) (occupied : glue ≠ "")
    (clean : IsClean text) : IsClean (glue ++ text) := by
  have glued := isClean_empty.glue foreign occupied clean
  rwa [String.empty_append] at glued

/-- A clean text stays clean before signs that the placeholder has none of. -/
theorem IsClean.before {glue text : String} (foreign : IsForeign glue) (occupied : glue ≠ "")
    (clean : IsClean text) : IsClean (text ++ glue) := by
  have glued := clean.glue foreign occupied isClean_empty
  rwa [String.append_empty] at glued

/-- A text that shares no character with the placeholder does not show it. -/
theorem IsForeign.isClean {text : String} (foreign : IsForeign text) : IsClean text := by
  by_cases empty : text = ""
  · exact empty ▸ isClean_empty
  · have after := isClean_empty.before foreign empty
    rwa [String.empty_append] at after

/-! ### Places of the placeholder -/

/-- Where a line ends between two tags; `place` is where the first one ends. -/
def changesFrom (place : Nat) : List Joint → List Nat
  | [] => []
  | joint :: rest => place :: changesFrom (place + byteLength joint.inCode) rest

/-- The offsets in the code of a text at which separating tags puts a line feed and the
placeholder. -/
def changes (text : List Char) : List Nat :=
  changesFrom (byteLength (cuts text).first) (cuts text).joints

/-- Nothing of the node stands where separating tags puts the placeholder, which takes 32 bytes
with its line feed. -/
def Node.IsApart (text : List Char) (node : Node) : Prop :=
  ∀ change ∈ changes text, node.stop.offset ≤ change ∨ change + 32 ≤ node.start.offset

instance (text : List Char) (node : Node) : Decidable (node.IsApart text) :=
  inferInstanceAs (Decidable (∀ change ∈ changes text, _))

/-- What stands at a node in the code of a text stands in the text as well, on the same line. -/
def Node.IsKept (text : List Char) (node : Node) : Prop :=
  ∃ before after before' after',
    separateTags text = before ++ node.text (separateTags text) ++ after ∧
    byteLength before = node.start.offset ∧
    text = before' ++ node.text (separateTags text) ++ after' ∧
    before'.count '\n' = before.count '\n'

/-- A part of the code that stands apart from all changes is a part of the text, on the same line.
The part is counted from `place`, where the run begins. -/
theorem exists_part_of_apart {place : Nat} {run before part after : List Char} {joints : List Joint}
    (code : run ++ joints.flatMap Joint.inCode = before ++ part ++ after)
    (apart : ∀ change ∈ changesFrom (place + byteLength run) joints,
      place + byteLength (before ++ part) ≤ change ∨ change + 32 ≤ place + byteLength before) :
    ∃ before' after', run ++ joints.flatMap Joint.inText = before' ++ part ++ after' ∧
      before'.count '\n' = before.count '\n' := by
  induction joints generalizing place run before with
  | nil => exact ⟨before, after, code, rfl⟩
  | cons joint rest ih =>
      obtain ⟨first, others⟩ := List.forall_mem_cons.mp apart
      rw [List.flatMap_cons] at code ⊢
      rcases first with early | late
      · -- The part ends in the run, which text and code have in common.
        have inRun : before ++ part <+: run := by
          apply prefix_of_byteLength_le ⟨after, code.symm⟩ (List.prefix_append run _)
          omega
        obtain ⟨between, rfl⟩ := inRun
        exact ⟨before, between ++ (joint.inText ++ rest.flatMap Joint.inText), by simp, rfl⟩
      · -- The part starts after the placeholder, so it stands in the rest.
        have inserted : byteLength ('\n' :: placeholder) = 32 := by decide
        have length : byteLength (run ++ '\n' :: placeholder) = byteLength run + 32 := by
          rw [byteLength_append, inserted]
        have started : run ++ '\n' :: placeholder <+: before := by
          have first : before <+: before ++ part ++ after := ⟨part ++ after, by simp⟩
          refine prefix_of_byteLength_le ?_ first (by omega)
          rw [← code]
          exact ⟨joint.run ++ rest.flatMap Joint.inCode, by simp [Joint.inCode]⟩
        obtain ⟨later, rfl⟩ := started
        have codeLater : joint.run ++ rest.flatMap Joint.inCode = later ++ part ++ after := by
          simpa [Joint.inCode] using code
        have moved : place + byteLength run + byteLength joint.inCode =
            place + byteLength (run ++ '\n' :: placeholder) + byteLength joint.run := by
          rw [length, Joint.inCode, byteLength_append, inserted]
          omega
        rw [moved] at others
        obtain ⟨before', after', textLater, lines⟩ := ih codeLater fun change among => by
          have apart := others change among
          rw [List.append_assoc, byteLength_append, byteLength_append _ later] at apart
          omega
        refine ⟨run ++ joint.lineEnd.chars ++ before', after', ?_, ?_⟩
        · rw [Joint.inText, List.append_assoc, textLater]
          simp
        · have oneLine : joint.lineEnd.chars.count '\n' = ('\n' :: placeholder).count '\n' := by
            cases joint.lineEnd <;> decide
          rw [List.count_append, List.count_append, List.count_append, List.count_append, lines,
            oneLine]

/-- **What stands apart is kept.** -/
theorem Node.isKept_of_isApart {text : List Char} {node : Node}
    (placed : node.IsPlaced (separateTags text))
    (forward : node.start.offset ≤ node.stop.offset) (apart : node.IsApart text) :
    node.IsKept text := by
  obtain ⟨before, after, whole, start, stop⟩ := exists_text_of_placed placed forward
  have code : (cuts text).first ++ (cuts text).joints.flatMap Joint.inCode =
      before ++ node.text (separateTags text) ++ after := by
    rw [← separateTags_eq, ← whole]
  obtain ⟨before', after', inText, lines⟩ := @exists_part_of_apart 0 _ _ _ _ _ code (by
    intro change among
    rw [Nat.zero_add] at among
    have apart := apart change among
    omega)
  refine ⟨before, after, before', after', whole, start, ?_, lines⟩
  rw [← inText]
  exact eq_of_cuts text

/-! ### Where the placeholder is seen -/

/-- The node stands around a place where separating tags puts the placeholder. -/
def Node.IsAround (text : List Char) (node : Node) : Prop :=
  ∃ change ∈ changes text, node.start.offset ≤ change ∧ change + 32 ≤ node.stop.offset

instance (text : List Char) (node : Node) : Decidable (node.IsAround text) :=
  inferInstanceAs (Decidable (∃ change ∈ changes text, _))

/-- At each change a line feed and the placeholder stand in the code. -/
theorem exists_of_mem_changesFrom {place change : Nat} {run : List Char} {joints : List Joint}
    (among : change ∈ changesFrom (place + byteLength run) joints) :
    ∃ before after, run ++ joints.flatMap Joint.inCode = before ++ '\n' :: placeholder ++ after ∧
      place + byteLength before = change := by
  induction joints generalizing place run with
  | nil => cases among
  | cons joint rest ih =>
      rw [List.flatMap_cons]
      rcases List.mem_cons.mp among with rfl | later
      · exact ⟨run, joint.run ++ rest.flatMap Joint.inCode, by simp [Joint.inCode], rfl⟩
      · obtain ⟨before, after, code, reached⟩ := ih later
        refine ⟨run ++ before, after, ?_, ?_⟩
        · rw [code]
          simp
        · rw [byteLength_append]
          omega

/-- **What stands around separated tags shows the placeholder.** -/
theorem Node.placeholder_infix_of_isAround {text : List Char} {node : Node}
    (placed : node.IsPlaced (separateTags text))
    (forward : node.start.offset ≤ node.stop.offset) (around : node.IsAround text) :
    placeholder <:+: node.text (separateTags text) := by
  obtain ⟨before, after, whole, start, stop⟩ := exists_text_of_placed placed forward
  obtain ⟨change, among, low, high⟩ := around
  rw [changes, ← Nat.zero_add (byteLength _)] at among
  obtain ⟨upTo, rest, code, reached⟩ := exists_of_mem_changesFrom among
  rw [← separateTags_eq] at code
  have inserted : byteLength ('\n' :: placeholder) = 32 := by decide
  obtain ⟨early, rfl⟩ : before <+: upTo := by
    apply prefix_of_byteLength_le ⟨node.text (separateTags text) ++ after, ?_⟩
      ⟨'\n' :: placeholder ++ rest, ?_⟩
    · omega
    · exact separateTags text
    · rw [← List.append_assoc, ← whole]
    · rw [← List.append_assoc, ← code]
  obtain ⟨late, upToStop⟩ : before ++ early ++ '\n' :: placeholder <+:
      before ++ node.text (separateTags text) := by
    apply prefix_of_byteLength_le ⟨rest, code.symm⟩ ⟨after, whole.symm⟩
    rw [byteLength_append _ ('\n' :: placeholder)]
    omega
  refine ⟨early ++ ['\n'], late, ?_⟩
  rw [List.append_assoc, List.append_assoc] at upToStop
  rw [← List.append_cancel_left upToStop]
  simp

/-- What a kept node says is a part of the text. -/
theorem Node.IsKept.text_isInfix {text : List Char} {node : Node} (kept : node.IsKept text) :
    node.text (separateTags text) <:+: text := by
  obtain ⟨_, _, before, after, _, _, inText, _⟩ := kept
  exact ⟨before, after, inText.symm⟩

end PhpTestIndex.Php
