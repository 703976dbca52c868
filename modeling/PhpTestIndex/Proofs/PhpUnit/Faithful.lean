import PhpTestIndex.Proofs.PhpUnit.Assembly
import PhpTestIndex.Proofs.Test.Faithful

/-! # Tests in classes say what is written

What a class or a method is called is the text of a name, and what is said about it comes from the
tags of its documentation and from the values of its attributes
(`PhpTestIndex.PhpUnit.written_of_markers`). So the forest of an unbroken file is faithful to it
(`PhpTestIndex.PhpUnit.isFaithful_of_forest?`).
-/

namespace PhpTestIndex.PhpUnit

/-- The texts that a mark carries. -/
def Mark.texts : Mark → List String
  | .dataProvider name => [name]
  | .depends name => [name]
  | .group name => [name]
  | .testdox text => [text]
  | .testWith row => [row]
  | _ => []

section Marks

variable {markers : Markers} {mark : Mark} {marks : List Mark} {value : String}

theorem mem_values_add (said : value ∈ (markers.add mark).annotations.values) :
    value ∈ markers.annotations.values ∨ value ∈ mark.texts := by
  cases mark <;> simp [Markers.add, Annotations.values, Mark.texts] at said ⊢ <;> tauto

/-- Some marks add no other values than their texts. -/
theorem mem_values_foldl (said : value ∈ (marks.foldl Markers.add markers).annotations.values) :
    value ∈ markers.annotations.values ∨ ∃ mark ∈ marks, value ∈ mark.texts := by
  induction marks generalizing markers with
  | nil => exact .inl said
  | cons first rest ih =>
      rcases ih said with early | ⟨mark, among, carried⟩
      · rcases mem_values_add early with before | here
        · exact .inl before
        · exact .inr ⟨first, List.mem_cons_self, here⟩
      · exact .inr ⟨mark, List.mem_cons_of_mem first among, carried⟩

/-- The values of some marks are what the marks carry. -/
theorem exists_mark_of_mem_values (said : value ∈ (Markers.ofMarks marks).annotations.values) :
    ∃ mark ∈ marks, value ∈ mark.texts := by
  rcases mem_values_foldl said with nothing | carried
  · simp [Markers.none, Annotations.none, Annotations.values] at nothing
  · exact carried

/-- A mark that is made of a name carries the name. -/
theorem eq_some_of_made {name? : Option String} {make : String → Mark}
    (texts : ∀ name, (make name).texts = [name]) (among : mark ∈ (name?.map make).toList)
    (carried : value ∈ mark.texts) : name? = some value := by
  obtain ⟨name, found, rfl⟩ := Option.map_eq_some_iff.mp (Option.mem_toList.mp among)
  rw [texts, List.mem_singleton] at carried
  rw [carried, found]

/-- A mark without a text says nothing. -/
theorem not_mem_texts_of_bare {sign : Mark} (bare : sign.texts = []) (among : mark ∈ [sign]) :
    value ∉ mark.texts := by
  rw [List.mem_singleton.mp among, bare]
  exact List.not_mem_nil

/-- Of a mark that may name something and a mark without a text, only the first one can say a value.
-/
theorem eq_some_of_signed {name? : Option String} {make : String → Mark} {sign : Mark}
    (texts : ∀ name, (make name).texts = [name]) (bare : sign.texts = [])
    (among : mark ∈ (name?.map make).toList ++ [sign]) (carried : value ∈ mark.texts) :
    name? = some value := by
  rcases List.mem_append.mp among with made | isSign
  · exact eq_some_of_made texts made carried
  · exact absurd carried (not_mem_texts_of_bare bare isSign)

/-- The marks of a tag carry its value, the first word of the value, or the rows below it. -/
theorem mem_texts_of_docTag {tag : DocTag} (among : mark ∈ tag.marks)
    (carried : value ∈ mark.texts) : value ∈ tag.texts ∨ tag.firstWord? = some value := by
  unfold DocTag.marks at among
  dsimp only at among
  split at among
  case h_2 => exact .inr (eq_some_of_made (fun _ => rfl) among carried)
  case h_3 => exact .inr (eq_some_of_made (fun _ => rfl) among carried)
  case h_4 => exact .inr (eq_some_of_signed (fun _ => rfl) rfl among carried)
  case h_5 => exact .inr (eq_some_of_signed (fun _ => rfl) rfl among carried)
  case h_6 =>
    rcases List.mem_cons.mp among with rfl | isSign
    · exact .inl (List.mem_singleton.mp carried ▸ List.mem_cons_self)
    · exact absurd carried (not_mem_texts_of_bare rfl isSign)
  case h_7 =>
    obtain ⟨row, present, rfl⟩ := List.mem_map.mp among
    exact .inl (List.mem_singleton.mp carried ▸ (List.mem_filter.mp present).1)
  all_goals
    first
      | exact absurd carried (not_mem_texts_of_bare rfl among)
      | cases among

end Marks

section Sources

variable {document : Php.Document}

/-- The name of a declaration is a source. -/
theorem hasSource_of_name {declaration name : Php.Node}
    (inside : document.root.Inside declaration) (found : declaration.child? .name = some name) :
    document.HasSource name := by
  have role : name.role = some .name := by simpa using List.find?_some found
  exact ⟨name, inside.child? found, .inl role, .root⟩

/-- The values of an attribute stand in the attribute. -/
theorem hasSource_of_attribute {declaration value : Php.Node} {attr : Attribute}
    (inside : document.root.Inside declaration)
    (among : attr ∈ Attribute.ofDeclaration document declaration) (given : value ∈ attr.values) :
    document.HasSource value := by
  obtain ⟨list, isList, inList⟩ := List.mem_flatMap.mp among
  obtain ⟨group, isGroup, inGroup⟩ := List.mem_flatMap.mp inList
  obtain ⟨item, isItem, made⟩ := List.mem_filterMap.mp inGroup
  obtain ⟨name, _, rfl⟩ := Option.map_eq_some_iff.mp made
  have kind : item.kind = .attributeItem := by simpa using (List.mem_filter.mp isItem).2
  have itemInside := ((inside.childOf isList).namedChild isGroup).childOf isItem
  exact ⟨item, itemInside, .inr (by simp [kind]), Php.Node.Inside.root.givenValue given⟩

end Sources

section Written

variable {text : List Char} {document : Php.Document} {file : String}

/-- What the values of an attribute say is written, if all that can be read off them is. -/
theorem written_of_attribute {attr : Attribute} {mark : Mark} {value : String}
    (written : ∀ node ∈ attr.values, ∀ value, Php.ReadOff document node value →
      Php.Written text document value)
    (among : mark ∈ attr.marks document) (carried : value ∈ mark.texts) :
    Php.Written text document value := by
  have string {index : Nat} {name : String} (found : attr.string? document index = some name) :
      Php.Written text document name := by
    obtain ⟨node, present, read⟩ := Option.bind_eq_some_iff.mp found
    exact written node (List.mem_of_getElem? present) name (.string read)
  have ofClass {name : String} (found : attr.class? document = some name) :
      Php.Written text document name := by
    obtain ⟨node, present, read⟩ := Option.bind_eq_some_iff.mp found
    exact written node (List.mem_of_head? present) name (.className read)
  have external {name : String} (found : attr.external? document = some name) :
      Php.Written text document name := by
    unfold Attribute.external? at found
    split at found
    · rename_i isClass isMethod
      rw [← Option.some.inj found]
      exact .method (ofClass isClass) (string isMethod)
    · cases found
  unfold Attribute.marks at among
  dsimp only at among
  split at among
  case h_1 => exact absurd carried (not_mem_texts_of_bare rfl among)
  case h_13 => exact string (eq_some_of_signed (fun _ => rfl) rfl among carried)
  case h_14 => exact string (eq_some_of_signed (fun _ => rfl) rfl among carried)
  case h_15 => exact string (eq_some_of_signed (fun _ => rfl) rfl among carried)
  case h_16 =>
    obtain ⟨node, present, rfl⟩ := Option.map_eq_some_iff.mp (Option.mem_toList.mp among)
    rw [List.mem_singleton.mp carried]
    exact written node (List.mem_of_head? present) _ .text
  case h_18 =>
    split at among
    · exact absurd carried (not_mem_texts_of_bare rfl among)
    · cases among
  -- What is left carries one string, one class, or one method of a class.
  all_goals
    first
      | exact string (eq_some_of_made (fun _ => rfl) among carried)
      | exact external (eq_some_of_made (fun _ => rfl) among carried)
      | exact ofClass (eq_some_of_made (fun _ => rfl) among carried)

section Unbroken

variable (parsed : Php.Document.read text = .ok document)
  (unbroken : Php.Unbroken text document)

include parsed unbroken

/-- **What markers say is written.** -/
theorem written_of_markers {declaration : Php.Placed}
    (inside : document.root.Inside declaration.node) {value : String}
    (said : value ∈ (Markers.ofDeclaration document declaration).annotations.values) :
    Php.Written text document value := by
  obtain ⟨mark, among, carried⟩ := exists_mark_of_mem_values said
  rcases List.mem_append.mp among with inBlock | inAttribute
  · obtain ⟨tag, isTag, ofTag⟩ := List.mem_flatMap.mp inBlock
    cases found : document.docBlock? declaration with
    | none =>
        rw [found] at isTag
        cases isTag
    | some block =>
        obtain ⟨node, ofSource, rfl⟩ := Php.exists_comment_of_docBlock? parsed found
        rw [found] at isTag
        rcases mem_texts_of_docTag ofTag carried with whole | word
        · exact Php.written_of_hasSource parsed unbroken ofSource (.docTag isTag whole)
        · exact Php.written_of_hasSource parsed unbroken ofSource (.docWord isTag word)
  · obtain ⟨attr, isAttribute, ofAttribute⟩ := List.mem_flatMap.mp inAttribute
    refine written_of_attribute ?_ ofAttribute carried
    intro node given value off
    have ofSource := hasSource_of_attribute inside isAttribute given
    exact Php.written_of_hasSource parsed unbroken ofSource off

/-- The name of a declaration is written. -/
theorem written_of_name {declaration name : Php.Node}
    (inside : document.root.Inside declaration) (found : declaration.child? .name = some name) :
    Php.Written text document (document.string name) :=
  Php.written_of_hasSource parsed unbroken (hasSource_of_name inside found) .text

end Unbroken

/-- A test is labelled by a value of its marks or by its name, so its label is written if these are.
-/
theorem written_labelOf {annotations : Annotations} {name : String}
    (values : ∀ value ∈ annotations.values, Php.Written text document value)
    (named : Php.Written text document name) :
    Php.Written text document (labelOf annotations name) := by
  unfold labelOf
  cases given : annotations.testdox with
  | nil => exact named
  | cons label rest => exact values label (by simp [Annotations.values, given])

/-- A class only says its groups and its texts. -/
theorem values_suiteHead (document : Php.Document) (file : String) (candidate : Candidate) :
    (suiteHead document file candidate).annotations.values =
      (Markers.ofDeclaration document candidate.declaration).annotations.group ++
        (Markers.ofDeclaration document candidate.declaration).annotations.testdox := by
  simp only [Annotations.values, suiteHead, Annotations.none, List.nil_append, List.append_nil]

/-- The label of a numbered data set has no placeholder in it. -/
theorem isClean_dataSetLabel (index : Nat) : Php.IsClean (Identifier.dataSetLabel index) := by
  have noDigit : Php.placeholder.any Char.isDigit = false := by decide
  have foreign : Php.IsForeign (toString index) := by
    intro c among ofPlaceholder
    rw [show (toString index).toList = Nat.toDigits 10 index from String.toList_ofList] at among
    have digit : c.isDigit = true := Nat.isDigit_of_mem_toDigits (by decide) (by decide) among
    exact List.any_eq_false.mp noDigit c ofPlaceholder digit
  exact foreign.isClean.after (by decide) (by decide)

/-! ### Forests -/

section Forests

variable (parsed : Php.Document.read text = .ok document)
  (absent : ¬ Php.placeholder <:+: text) (unbroken : Php.Unbroken text document)

include parsed absent unbroken

/-- What is made of a method says what is written. -/
theorem isFaithful_of_method? {parent node : Definition} {method : Php.Placed}
    (ofParent : parent.IsClean) (inside : document.root.Inside method.node)
    (made : method? document parent method = some node) :
    ∀ below ∈ node.nodes, below.IsFaithful text document := by
  obtain ⟨nameNode, found, rfl⟩ := exists_eq_of_method? made
  have code := Php.code_of_read parsed
  have values {value : String} (said :
      value ∈ (Markers.ofDeclaration document method).annotations.values) :
      Php.Written text document value := written_of_markers parsed unbroken inside said
  have named := written_of_name parsed unbroken inside found
  have label := written_labelOf (fun _ => values) named
  have clean (children : List Definition) := @Definition.isClean_member _ method.node.span _
    ofParent .method (named.isClean code absent) _ (label.isClean code absent) _
    (fun value said => (values said).isClean code absent) children
  rw [Definition.nodes_eq]
  refine List.forall_mem_cons.mpr ⟨⟨clean _, fun _ => values, fun isGroup => ?_, fun _ => ?_⟩, ?_⟩
  · cases isGroup
  · exact ⟨_, label, List.mem_cons_self⟩
  · refine Definition.isFaithful_dataSets (clean []) (List.forall_mem_map.mpr ?_)
    intro index _
    exact ⟨_, isClean_dataSetLabel index, rfl⟩

/-- What a candidate is read as says what is written. -/
theorem isFaithful_of_suite? {hierarchy : Hierarchy} {candidate : Candidate} {node : Definition}
    (inside : document.root.Inside candidate.declaration.node)
    (named : Php.Written text document candidate.name)
    (inNamespace : ∀ name ∈ candidate.inNamespace, Php.Written text document name)
    (read : suite? document hierarchy file candidate = some node) :
    ∀ below ∈ node.nodes, below.IsFaithful text document := by
  obtain ⟨body, found, _, rfl⟩ := exists_eq_of_suite? read
  have code := Php.code_of_read parsed
  have values {value : String} (said :
      value ∈ (Markers.ofDeclaration document candidate.declaration).annotations.values) :
      Php.Written text document value := written_of_markers parsed unbroken inside said
  have label := written_labelOf (fun _ => values) named
  have kept {value : String}
      (said : value ∈ (suiteHead document file candidate).annotations.values) :
      Php.Written text document value := by
    rw [values_suiteHead] at said
    apply values
    rcases List.mem_append.mp said with group | testdox
    · simp [Annotations.values, group]
    · simp [Annotations.values, testdox]
  have cleanNamespace : ∀ name ∈ candidate.inNamespace, Php.IsClean name :=
    fun name found => (inNamespace name found).isClean code absent
  have cleanValues : ∀ value ∈ (suiteHead document file candidate).annotations.values,
      Php.IsClean value := fun value said => (kept said).isClean code absent
  have clean (children : List Definition) :
      Definition.IsClean { suiteHead document file candidate with children := children } :=
    @Definition.isClean_ofClass candidate.name file candidate.declaration.node.span _ cleanNamespace
      (named.isClean code absent) _ (label.isClean code absent) _ cleanValues children
  rw [Definition.nodes_eq]
  refine List.forall_mem_cons.mpr
    ⟨⟨clean _, fun _ => kept, fun isGroup => ?_, fun isTest => ?_⟩, ?_⟩
  · cases isGroup
  · cases isTest
  · intro below among
    rw [Definition.forestNodes_eq_flatMap] at among
    obtain ⟨test, present, inTest⟩ := List.mem_flatMap.mp among
    obtain ⟨method, isMember, made⟩ := List.mem_filterMap.mp present
    have inBody := (List.mem_filter.mp (mem_placed (List.mem_filter.mp isMember).1)).1
    have methodInside := (inside.child? found).child inBody
    exact isFaithful_of_method? parsed absent unbroken (clean []) methodInside made below inTest

/-- **Tests in classes say what is written.** -/
theorem isFaithful_of_forest? {forest : List Definition}
    (found : forest? document file = some forest) :
    ∀ node ∈ Definition.forestNodes forest, node.IsFaithful text document := by
  obtain ⟨suites, _, rfl, read, stand⟩ := exists_suites_of_forest? found
  have holds : Holds document document.root.Inside
      fun inNamespace => ∀ name ∈ inNamespace, Php.Written text document name := by
    refine ⟨fun inside among => inside.child among, by simp, ?_⟩
    intro definition inside _ name named
    obtain ⟨mapped, _⟩ := Option.filter_eq_some_iff.mp named
    obtain ⟨nameNode, isName, rfl⟩ := Option.map_eq_some_iff.mp mapped
    exact written_of_name parsed unbroken inside isName
  refine Definition.isFaithful_groupByNamespace (kind_of_forall₂ stand) ?_
  rw [read]
  intro suite among
  obtain ⟨candidate, present, made⟩ := List.mem_filterMap.mp among
  have declared : candidate.declared ∈ declaredClasses document := by
    rw [← Survey.declared_ofDocument document .start]
    exact List.mem_map_of_mem present
  obtain ⟨inside, _, ⟨nameNode, isName, named⟩, inNamespace⟩ :=
    holds_of_mem_declaredClasses holds .root declared
  refine isFaithful_of_suite? parsed absent unbroken inside ?_ inNamespace made
  have written := written_of_name parsed unbroken inside isName
  rw [← named] at written
  exact written

end Forests

end Written

end PhpTestIndex.PhpUnit
