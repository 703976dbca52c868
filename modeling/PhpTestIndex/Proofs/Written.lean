import PhpTestIndex.PhpUnit.Marker
import PhpTestIndex.Proofs.Php.Documents
import PhpTestIndex.Proofs.Php.Inside
import PhpTestIndex.Proofs.Php.Placeholder

/-! # Values that are written in a file

Names, descriptions, rows of data and what documentation says are read off nodes of the syntax tree
(`PhpTestIndex.Php.ReadOff`). The nodes off which something is read are few
(`PhpTestIndex.Php.Node.IsSource`), and a file is unbroken if none of them stands around separated
tags. In an unbroken file what is read off a node is written in the file itself
(`PhpTestIndex.Php.Written`), and if the file does not show the placeholder, the value does not
either (`PhpTestIndex.Php.Written.isClean`).
-/

namespace PhpTestIndex.Php

/-! ### Sources -/

/-- Something may be read off the node or off a node inside it. -/
def Node.IsSource (node : Node) : Prop :=
  node.role = some .name ∨
    node.kind ∈ [.comment, .plainString, .interpolatedString, .arrayElement, .attributeItem]

instance : DecidablePred Node.IsSource := fun _ => inferInstanceAs (Decidable (_ ∨ _))

/-- No tags are separated inside a name, a comment, a string, a row of data or an attribute. -/
def Unbroken (text : List Char) (document : Document) : Prop :=
  ∀ placed ∈ document.root.descendants none, placed.node.IsSource → placed.node.IsApart text

instance (text : List Char) (document : Document) : Decidable (Unbroken text document) :=
  inferInstanceAs (Decidable (∀ placed ∈ document.root.descendants none, _))

/-- A node inside a source of a file. -/
def Document.HasSource (document : Document) (node : Node) : Prop :=
  ∃ source, document.root.Inside source ∧ source.IsSource ∧ source.Inside node

section Sources

variable {text : List Char} {document : Document} (parsed : Document.read text = .ok document)

include parsed

/-- The nodes of a file that parses start and end between characters of its code, and do not end
before they start. -/
theorem placed_of_inside {node : Node} (inside : document.root.Inside node) :
    node.IsPlaced (separateTags text) ∧ node.Ordered := by
  have root : document.root = Node.ofCode (separateTags text) := by
    rw [root_of_read parsed, code_of_read parsed]
  constructor
  · apply inside.holds
    · rw [root]
      exact placed_ofCode _
    · intro parent child placed among
      exact placed.child among
  · have ordered : document.root.Ordered := root ▸ ordered_ofCode _
    exact (inside.within ordered).2.1

/-- **What sources show is written in the file.** -/
theorem isKept_of_unbroken (unbroken : Unbroken text document) {node : Node}
    (ofSource : document.HasSource node) : node.IsKept text := by
  obtain ⟨source, inTree, isSource, within⟩ := ofSource
  obtain ⟨placed, ordered⟩ := placed_of_inside parsed (inTree.trans within)
  apply Node.isKept_of_isApart placed ordered.forward
  -- The source keeps clear of every change, and the node stands in the source.
  obtain ⟨_, among⟩ := inTree.exists_mem_descendants
  obtain ⟨after, _, upTo⟩ := within.within (placed_of_inside parsed inTree).2
  intro change isChange
  rcases unbroken _ among isSource change isChange with early | late
  · exact .inl (upTo.trans early)
  · exact .inr (late.trans after)

end Sources

/-! ### Values -/

/-- A value is what can be read off a node: its text, the string that it is, the class that it
names, or what it says as a comment. -/
inductive ReadOff (document : Document) (node : Node) : String → Prop
  | text : ReadOff document node (document.string node)
  | string {value : String} (found : document.stringValue? node = some value) :
      ReadOff document node value
  | className {value : String} (found : document.className? node = some value) :
      ReadOff document node value
  | docTag {tag : PhpUnit.DocTag} {value : String}
      (among : tag ∈ PhpUnit.docTags (Comment.ofNode document.code node).normalize.text)
      (said : value ∈ tag.texts) : ReadOff document node value
  | docWord {tag : PhpUnit.DocTag} {value : String}
      (among : tag ∈ PhpUnit.docTags (Comment.ofNode document.code node).normalize.text)
      (said : tag.firstWord? = some value) : ReadOff document node value

/-- The value is read off a node that stands in the text as it does in the code, or joined from a
class and a method of which this is so. -/
inductive Written (text : List Char) (document : Document) : String → Prop
  | read {node : Node} {value : String} (inside : document.root.Inside node)
      (kept : node.IsKept text) (off : ReadOff document node value) : Written text document value
  | method {className method : String} (first : Written text document className)
      (second : Written text document method) :
      Written text document (className ++ "::" ++ method)

/-- What is read off a source of an unbroken file is written in it. -/
theorem written_of_hasSource {text : List Char} {document : Document}
    (parsed : Document.read text = .ok document) (unbroken : Unbroken text document) {node : Node}
    {value : String} (ofSource : document.HasSource node) (off : ReadOff document node value) :
    Written text document value := by
  have kept := isKept_of_unbroken parsed unbroken ofSource
  obtain ⟨source, inTree, _, within⟩ := ofSource
  exact .read (inTree.trans within) kept off

section Values

variable {text part : List Char} {document : Document} {node : Node}

/-- Taking off the mark of a binary string leaves a part of the text. -/
theorem withoutBinaryMark_isInfix (text : List Char) : withoutBinaryMark text <:+: text := by
  unfold withoutBinaryMark
  split
  · split
    · exact (List.suffix_cons _ _).isInfix
    · exact List.infix_rfl
  · exact List.infix_rfl

/-- What stands between quotes is a part of the text. -/
theorem infix_of_betweenQuotes? {quote : Char} (found : betweenQuotes? quote text = some part) :
    part <:+: text := by
  obtain ⟨rest, opened, closed⟩ := Option.bind_eq_some_iff.mp found
  exact (Text.infix_of_before? closed).trans (Text.infix_of_after? opened)

/-- No sign that delimits a string or that an escape sequence stands for is part of the
placeholder. -/
theorem signs_not_mem_placeholder :
    '\\' ∉ placeholder ∧ '\'' ∉ placeholder ∧ '$' ∉ placeholder ∧ '\x22' ∉ placeholder := by
  decide

/-- A string shows the placeholder only if its text does: what escape sequences stand for is no part
of it. -/
theorem infix_of_stringValue? {kind : Kind} {value : List Char}
    (found : stringValue? kind text = some value) (leaked : placeholder <:+: value) :
    placeholder <:+: text := by
  obtain ⟨backslash, apostrophe, dollar, quote⟩ := signs_not_mem_placeholder
  have unmarked := withoutBinaryMark_isInfix text
  unfold stringValue? at found
  split at found
  · obtain ⟨quoted, between, rfl⟩ := Option.map_eq_some_iff.mp found
    have once := Text.infix_of_infix_replacePair backslash leaked
    have twice := Text.infix_of_infix_replacePair apostrophe once
    exact twice.trans ((infix_of_betweenQuotes? between).trans unmarked)
  · obtain ⟨quoted, between, rfl⟩ := Option.map_eq_some_iff.mp found
    have once := Text.infix_of_infix_replacePair backslash leaked
    have twice := Text.infix_of_infix_replacePair dollar once
    have thrice := Text.infix_of_infix_replacePair quote twice
    exact thrice.trans ((infix_of_betweenQuotes? between).trans unmarked)
  · cases found

/-- Undoing escape sequences makes no placeholder where there was none. -/
theorem isClean_of_stringValue? {value : String} (absent : ¬ placeholder <:+: document.text node)
    (found : document.stringValue? node = some value) : IsClean value := by
  obtain ⟨chars, read, rfl⟩ := Option.map_eq_some_iff.mp found
  intro leaked
  rw [String.toList_ofList] at leaked
  exact absent (infix_of_stringValue? read leaked)

/-- What stands between quotes keeps the parts without a quote. -/
theorem infix_betweenQuotes? {quote : Char} {quoted : List Char}
    (foreign : quote ∉ part) (occupied : part ≠ [])
    (found : betweenQuotes? quote text = some quoted) (inside : part <:+: text) :
    part <:+: quoted := by
  obtain ⟨rest, opened, closed⟩ := Option.bind_eq_some_iff.mp found
  rw [Text.eq_of_after? opened, Text.eq_of_before? closed] at inside
  have afterOpening : part <:+: quoted ++ [quote] :=
    Text.infix_of_infix_append (List.forall_mem_singleton.mpr foreign) occupied inside
  rcases Text.infix_or_infix_of_append_cons foreign afterOpening with here | nowhere
  · exact here
  · exact absurd (List.eq_nil_of_infix_nil nowhere) occupied

/-- The mark of a binary string is no part of a placeholder. -/
theorem infix_withoutBinaryMark (leaked : placeholder <:+: text) :
    placeholder <:+: withoutBinaryMark text := by
  unfold withoutBinaryMark
  split
  · rename_i mark quote rest
    split
    · rename_i isMarked
      have isMark : mark = 'b' ∨ mark = 'B' := by
        simp only [Bool.and_eq_true, Bool.or_eq_true, decide_eq_true_eq] at isMarked
        exact isMarked.1
      have foreign : mark ∉ placeholder := by
        rcases isMark with rfl | rfl <;> decide
      have leaked : placeholder <:+: [mark] ++ quote :: rest := leaked
      exact Text.infix_of_infix_append (List.forall_mem_singleton.mpr foreign) (by decide) leaked
    · exact leaked
  · exact leaked

/-- The value of a string shows the placeholder that its text shows. -/
theorem not_isClean_of_stringValue? {value : String}
    (found : document.stringValue? node = some value)
    (leaked : placeholder <:+: document.text node) : ¬ IsClean value := by
  obtain ⟨backslash, apostrophe, dollar, quote⟩ := signs_not_mem_placeholder
  obtain ⟨chars, reads, rfl⟩ := Option.map_eq_some_iff.mp found
  rw [IsClean, not_not, String.toList_ofList]
  have unmarked := infix_withoutBinaryMark leaked
  unfold stringValue? at reads
  split at reads
  · obtain ⟨quoted, between, rfl⟩ := Option.map_eq_some_iff.mp reads
    have inside := infix_betweenQuotes? apostrophe (by decide) between unmarked
    apply Text.infix_replacePair backslash backslash
    exact Text.infix_replacePair backslash apostrophe inside
  · obtain ⟨quoted, between, rfl⟩ := Option.map_eq_some_iff.mp reads
    have inside := infix_betweenQuotes? quote (by decide) between unmarked
    apply Text.infix_replacePair backslash backslash
    apply Text.infix_replacePair backslash dollar
    exact Text.infix_replacePair backslash quote inside
  · cases reads

/-- A comment without its line break is a part of the comment. -/
theorem normalize_text_isInfix (comment : Comment) : comment.normalize.text <:+: comment.text := by
  have withoutBreak : Comment.withoutLineBreak comment.text <:+: comment.text :=
    (Text.getD_before?_isInfix _ _).trans (Text.getD_before?_isInfix _ _)
  unfold Comment.normalize
  dsimp only
  split
  · exact List.infix_rfl
  · exact withoutBreak

/-- A value shows the placeholder only if the text of the node does. -/
theorem ReadOff.isClean {value : String} (off : ReadOff document node value)
    (absent : ¬ placeholder <:+: document.text node) : IsClean value := by
  cases off with
  | text => exact .of_part absent (String.toList_ofList ▸ List.infix_rfl)
  | string found => exact isClean_of_stringValue? absent found
  | className found =>
      unfold Document.className? at found
      split at found
      · obtain ⟨name, before, rfl⟩ := Option.map_eq_some_iff.mp found
        apply IsClean.of_part absent
        rw [String.toList_ofList]
        exact (Text.dropWhile_isInfix _ name).trans (Text.infix_of_before? before)
      · exact isClean_of_stringValue? absent found
  | docTag among said =>
      exact .of_part absent
        ((PhpUnit.infix_of_mem_docTags among said).trans (normalize_text_isInfix _))
  | docWord among said =>
      obtain ⟨word, first, rfl⟩ := Option.map_eq_some_iff.mp said
      have inBlock := PhpUnit.infix_of_mem_docTags among List.mem_cons_self
      apply IsClean.of_part absent
      rw [String.toList_ofList]
      exact (Text.infix_of_firstWord? first).trans (inBlock.trans (normalize_text_isInfix _))

/-- **What is written shows no placeholder,** unless the file does. -/
theorem Written.isClean {value : String} (written : Written text document value)
    (code : document.code = separateTags text) (absent : ¬ placeholder <:+: text) :
    IsClean value := by
  induction written with
  | @read node value _ kept off =>
      apply off.isClean
      rw [Document.text, code]
      exact fun leaked => absent (leaked.trans kept.text_isInfix)
  | method _ _ first second => exact first.glue (by decide) (by decide) second

end Values

/-- **A string around separated tags leaks.** -/
theorem not_isClean_of_isAround {text : List Char} {document : Document}
    (parsed : Document.read text = .ok document) {node : Node}
    (inside : document.root.Inside node) (around : node.IsAround text) {value : String}
    (found : document.stringValue? node = some value) : ¬ IsClean value := by
  obtain ⟨placed, ordered⟩ := placed_of_inside parsed inside
  apply not_isClean_of_stringValue? found
  rw [Document.text, code_of_read parsed]
  exact Node.placeholder_infix_of_isAround placed ordered.forward around

/-! ### Documentation -/

/-- A comment that is found is one of those that were searched. -/
theorem mem_of_searchComments {comments : Array Comment} {offset low high : Nat}
    {comment : Comment}
    (found : Document.searchComments comments offset low high = some comment) :
    comment ∈ comments := by
  fun_induction Document.searchComments comments offset low high with
  | case1 => cases found
  | case2 _ _ _ _ comment' isMiddle =>
      rw [← Option.some.inj found]
      exact Array.mem_of_getElem? isMiddle
  | case3 _ _ _ _ _ _ _ _ ih => exact ih found
  | case4 _ _ _ _ _ _ _ _ ih => exact ih found
  | case5 => cases found

/-- The documentation of a declaration is a comment of the file. -/
theorem exists_comment_of_docBlock? {text block : List Char} {document : Document}
    (parsed : Document.read text = .ok document) {declaration : Placed}
    (found : document.docBlock? declaration = some block) :
    ∃ node, document.HasSource node ∧
      block = (Comment.ofNode document.code node).normalize.text := by
  unfold Document.docBlock? at found
  split at found
  · cases found
  · split at found
    · obtain ⟨comment, isDoc, rfl⟩ := Option.map_eq_some_iff.mp found
      have member := mem_of_searchComments (Option.filter_eq_some_iff.mp isDoc).1
      have comments : document.comments = (document.root.comments.map fun node =>
          (Comment.ofNode document.code node).normalize).toArray := by
        rw [eq_ofTree_of_read parsed]
        rfl
      rw [comments, List.mem_toArray] at member
      obtain ⟨node, among, rfl⟩ := List.mem_map.mp member
      obtain ⟨inside, isComment⟩ := Node.inside_of_mem_comments among
      exact ⟨node, ⟨node, inside, .inr (by simp [isComment]), .root⟩, rfl⟩
    · cases found

end PhpTestIndex.Php
