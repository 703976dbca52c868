import PhpTestIndex.PhpUnit.Marker
import PhpTestIndex.Proofs.Correspondence
import PhpTestIndex.Proofs.Php.DoubleQuoted
import PhpTestIndex.Proofs.PhpUnit.DocBlock

/-! # Markings in both forms

A class or a method can be marked by tags in its documentation and by attributes. What both forms
can say is a `PhpTestIndex.PhpUnit.Marker`. An attribute says what the tag says exactly if its name
is not relative to the namespace and its value is read from the literal
(`PhpTestIndex.PhpUnit.markings_agree`), and a declaration with both forms is marked by its tags and
then by its attributes.
-/

namespace PhpTestIndex.PhpUnit

/-- What a tag and an attribute can say alike. -/
inductive MarkerKind
  | test
  | dataProvider
  | depends
  | group
  | ticket
  | testdox
  | testWith
deriving DecidableEq

namespace MarkerKind

def tagName : MarkerKind → String
  | test => "test"
  | dataProvider => "dataProvider"
  | depends => "depends"
  | group => "group"
  | ticket => "ticket"
  | testdox => "testdox"
  | testWith => "testWith"

def attributeName : MarkerKind → String
  | test => "Test"
  | dataProvider => "DataProvider"
  | depends => "Depends"
  | group => "Group"
  | ticket => "Ticket"
  | testdox => "TestDox"
  | testWith => "TestWithJson"

/-- The value is the name of a method or a group. -/
def namesOne : MarkerKind → Bool
  | dataProvider | depends | group | ticket => true
  | test | testdox | testWith => false

/-- What is said with a value, if there is one. -/
def marks (kind : MarkerKind) (value? : Option String) : List Mark :=
  match kind with
  | test => [.isTest]
  | dataProvider => (value?.map .dataProvider).toList
  | depends => (value?.map .depends).toList
  | group | ticket => (value?.map .group).toList ++ [.isTestCase]
  | testdox => (value?.map .testdox).toList ++ [.isTestCase]
  | testWith => (value?.map .testWith).toList

end MarkerKind

/-- A marking with its value; a test has none. -/
structure Marker where
  kind : MarkerKind
  value : String

namespace Marker

/-- The marking can be written: its value can stand on a line of a comment, there is one unless it
only says that a method is a test, and a name is one word. -/
structure IsWritable (marker : Marker) : Prop where
  isText : IsText marker.value.toList
  valued : marker.value = "" ↔ marker.kind = .test
  word : marker.kind.namesOne → ∀ c ∈ marker.value.toList, Text.isBlank c = false

/-- The marking as a tag. -/
def tag (marker : Marker) : DocTag :=
  ⟨marker.kind.tagName, marker.value, []⟩

/-- What the marking says. -/
def marks (marker : Marker) : List Mark :=
  marker.kind.marks (some marker.value)

end Marker

section Tags

variable {marker : Marker}

/-- The first word of a word is the whole word. -/
theorem firstWord?_of_word {chars : List Char} (occupied : chars ≠ [])
    (word : ∀ c ∈ chars, Text.isBlank c = false) : Text.firstWord? chars = some chars := by
  have start : Text.trimStart chars = chars :=
    Text.trimStart_of_head? fun c first => word c (List.mem_of_head? first)
  have whole : chars.takeWhile (fun c => !Text.isBlank c) = chars :=
    List.takeWhile_eq_self_iff.mpr fun c member => by simp [word c member]
  obtain ⟨c, rest, rfl⟩ := List.exists_cons_of_ne_nil occupied
  rw [Text.firstWord?, start, whole]

/-- The tag of a marker that can be written can be written. -/
theorem isWritable_tag (writable : marker.IsWritable) : marker.tag.IsWritable := by
  refine ⟨?_, writable.isText, by simp [Marker.tag]⟩
  obtain ⟨kind, value⟩ := marker
  cases kind <;> simp [Marker.tag, MarkerKind.tagName, IsTagName, IsNameCharacter]

/-- A tag says what the marking says. -/
theorem marks_tag (writable : marker.IsWritable) : marker.tag.marks = marker.marks := by
  obtain ⟨kind, value⟩ := marker
  have occupied (noTest : kind ≠ .test) : value ≠ "" :=
    fun empty => noTest (writable.valued.mp empty)
  have named (names : kind.namesOne) (noTest : kind ≠ .test) :
      DocTag.firstWord? ⟨kind.tagName, value, []⟩ = some value := by
    have characters : value.toList ≠ [] := by simpa using occupied noTest
    rw [DocTag.firstWord?, firstWord?_of_word characters (writable.word names), Option.map_some,
      String.ofList_toList]
  cases kind with
  | test | testdox => rfl
  | dataProvider | depends | group | ticket =>
      have word := named rfl (by decide)
      simp only [MarkerKind.tagName] at word
      simp [Marker.tag, DocTag.marks, Marker.marks, MarkerKind.marks, MarkerKind.tagName, word]
  | testWith =>
      have row := occupied (by decide)
      simp [Marker.tag, DocTag.marks, Marker.marks, MarkerKind.marks, MarkerKind.tagName, row]

end Tags

section Attributes

/-! ### Attributes -/

/-- How an attribute is written: with which kind of name, and with which literal between quotes, if
its value stands between quotes. -/
structure AttributeForm where
  nameKind : Php.Kind
  literal : Option Php.Literal

/-- What can stand before the last part of a name. -/
def IsQualifier (path : List Char) : Prop :=
  path = [] ∨ path.getLast? = some '\\'

/-- The values that an attribute is given. -/
def givenValues (item : Php.Node) : List Php.Node :=
  ((item.child? .arguments).map Php.argumentValues).getD []

namespace AttributeForm

/-- The argument is the value, as a literal between quotes that means it or as a text between
lines. -/
def Gives (form : AttributeForm) (document : Php.Document) (value : String)
    (argument : Php.Node) : Prop :=
  match form.literal with
  | some literal =>
    argument.kind = literal.quote.kind ∧ document.text argument = literal.text ∧
      literal.Means value.toList
  | none => argument.kind = .expression ∧ "<<<".toList <+: document.text argument

/-- The attribute is the marking written so: its name is alone, with namespaces before it or
relative to the namespace of the file, and the value is what it is given first. -/
structure Writes (form : AttributeForm) (document : Php.Document) (marker : Marker)
    (item : Php.Node) : Prop where
  isName : form.nameKind ∈ [.name, .qualifiedName, .relativeName]
  name : ∃ written rest path, item.namedChildren.filter (·.kind ≠ .comment) = written :: rest ∧
    written.kind = form.nameKind ∧ (∀ other ∈ rest, other.kind = .arguments) ∧
    IsQualifier path ∧ document.text written = path ++ marker.kind.attributeName.toList
  value : marker.kind ≠ .test →
    ∃ argument, (givenValues item).head? = some argument ∧
      form.Gives document marker.value argument

/-- The name is not relative, and the value stands between quotes with no escape sequence but those
that stand for the character after the backslash. -/
def IsRead (form : AttributeForm) (marker : Marker) : Prop :=
  form.nameKind ≠ .relativeName ∧
    (marker.kind ≠ .test → ∃ literal ∈ form.literal, literal.IsPlain)

end AttributeForm

/-- The attributes of a declaration, in lists and groups. -/
def attributeItems (declaration : Php.Node) : List Php.Node :=
  (declaration.childrenOf .attributeList).flatMap fun list =>
    list.namedChildren.flatMap fun group => group.childrenOf .attributeItem

/-- What an attribute is read as saying. -/
def attributeMarks (document : Php.Document) (item : Php.Node) : List Mark :=
  ((Attribute.ofNode? document item).map (Attribute.marks document)).getD []

variable {document : Php.Document} {marker : Marker} {form : AttributeForm} {item : Php.Node}

/-- The last part of a name is what stands after the namespaces. -/
theorem shortName_append {path name : List Char} (isQualifier : IsQualifier path)
    (alone : '\\' ∉ name) : Php.shortName (path ++ name) = name := by
  rw [Php.shortName, Text.afterLast_append_of_not_mem alone]
  rcases isQualifier with rfl | ends
  · rfl
  · obtain ⟨before, rfl⟩ := List.getLast?_eq_some_iff.mp ends
    rw [Text.afterLast_append_of_mem List.mem_cons_self]
    rfl

/-- An attribute makes the mark of its kind from the string that it is given first. -/
theorem marks_ofAttribute (document : Php.Document) (kind : MarkerKind) (values : List Php.Node) :
    Attribute.marks document ⟨kind.attributeName, values⟩ =
      kind.marks (values.head?.bind document.stringValue?) := by
  have first : values[0]? = values.head? := List.head?_eq_getElem?.symm
  cases kind <;>
    simp [Attribute.marks, MarkerKind.attributeName, MarkerKind.marks, Attribute.string?, first]

/-- The name of an attribute is found among its parts, unless it is relative. -/
theorem ofNode?_of_writes (writes : form.Writes document marker item) :
    Attribute.ofNode? document item =
      if form.nameKind = .relativeName then none
      else some ⟨marker.kind.attributeName, givenValues item⟩ := by
  obtain ⟨written, rest, path, parts, kind, arguments, isQualifier, text⟩ := writes.name
  let isFound (child : Php.Node) : Bool := child.kind = .name || child.kind = .qualifiedName
  have found : item.namedChildren.find? isFound = (written :: rest).find? isFound := by
    rw [← parts, List.find?_filter]
    congr 1
    funext child
    by_cases isComment : child.kind = .comment <;> simp [isFound, isComment]
  have alone : '\\' ∉ marker.kind.attributeName.toList := by
    cases marker.kind <;> decide +kernel
  have name :
      String.ofList (Php.shortName (document.text written)) = marker.kind.attributeName := by
    rw [text, shortName_append isQualifier alone, String.ofList_toList]
  have notInRest : rest.find? isFound = none := by
    rw [List.find?_eq_none]
    intro other member
    simp [isFound, arguments other member]
  have kinds := writes.isName
  rw [Attribute.ofNode?]
  change Option.map _ (item.namedChildren.find? isFound) = _
  rw [found]
  by_cases isRelative : form.nameKind = .relativeName
  · have other : ¬ isFound written = true := by simp [isFound, kind, isRelative]
    rw [if_pos isRelative, List.find?_cons_of_neg other, notInRest, Option.map_none]
  · have isWritten : isFound written = true := by
      simpa [isFound, kind, isRelative] using kinds
    rw [if_neg isRelative, List.find?_cons_of_pos isWritten, Option.map_some, name]
    rfl

/-- What is read of the value is the value exactly if it stands between quotes without other
sequences. -/
theorem stringValue?_of_gives {value : String} {argument : Php.Node}
    (gives : form.Gives document value argument) :
    document.stringValue? argument = some value ↔ ∃ literal ∈ form.literal, literal.IsPlain := by
  unfold AttributeForm.Gives at gives
  split at gives
  · rename_i literal found
    obtain ⟨kind, text, means⟩ := gives
    have read : document.stringValue? argument = some (String.ofList literal.value) := by
      rw [Php.Document.stringValue?, kind, text, Php.stringValue?_text, Option.map_some]
    rw [read, found, Option.some_inj, ← String.toList_inj, String.toList_ofList,
      Php.value_eq_iff_isPlain means]
    simp
  · rename_i absent
    have read : document.stringValue? argument = none := by
      rw [Php.Document.stringValue?, gives.1]
      rfl
    rw [read, absent]
    simp

theorem marks_eq_iff (kind : MarkerKind) (value : String) (value? : Option String) :
    kind.marks value? = kind.marks (some value) ↔ (kind ≠ .test → value? = some value) := by
  cases kind <;> cases value? <;> simp [MarkerKind.marks]

/-- **An attribute says what the tag says** exactly if its name and its value are read. -/
theorem attributeMarks_eq_iff (writes : form.Writes document marker item) :
    attributeMarks document item = marker.marks ↔ form.IsRead marker := by
  rw [attributeMarks, ofNode?_of_writes writes]
  by_cases isRelative : form.nameKind = .relativeName
  · have said : marker.marks ≠ [] := by
      rw [Marker.marks]
      cases marker.kind <;> simp [MarkerKind.marks]
    rw [if_pos isRelative]
    exact iff_of_false (Ne.symm said) fun isRead => isRead.1 isRelative
  · rw [if_neg isRelative, Option.map_some, Option.getD_some, marks_ofAttribute, Marker.marks,
      marks_eq_iff, AttributeForm.IsRead, and_iff_right isRelative]
    refine imp_congr_right fun noTest => ?_
    obtain ⟨argument, first, gives⟩ := writes.value noTest
    rw [first, Option.bind_some, stringValue?_of_gives gives]

end Attributes

section Both

/-! ### Both forms -/

variable {document : Php.Document} {declaration : Php.Placed} {marks others : List Mark}

/-- What the documentation of a declaration is read as saying. -/
def tagMarks (document : Php.Document) (declaration : Php.Placed) : List Mark :=
  (((document.docBlock? declaration).map docTags).getD []).flatMap DocTag.marks

/-- A declaration is marked by the tags of its docblock, and then by its attributes in order. -/
theorem ofDeclaration_eq (document : Php.Document) (declaration : Php.Placed) :
    Markers.ofDeclaration document declaration =
      Markers.ofMarks (tagMarks document declaration ++
        (attributeItems declaration.node).flatMap (attributeMarks document)) := by
  have items : Attribute.ofDeclaration document declaration.node =
      (attributeItems declaration.node).filterMap (Attribute.ofNode? document) := by
    rw [Attribute.ofDeclaration, attributeItems]
    simp only [List.filterMap_flatMap]
  have said (items : List Php.Node) :
      (items.filterMap (Attribute.ofNode? document)).flatMap (Attribute.marks document) =
        items.flatMap (attributeMarks document) := by
    induction items with
    | nil => rfl
    | cons item rest ih =>
        rw [List.flatMap_cons, ← ih, attributeMarks]
        cases found : Attribute.ofNode? document item with
        | none => rw [List.filterMap_cons_none found]; rfl
        | some attr => rw [List.filterMap_cons_some found]; rfl
  rw [Markers.ofDeclaration, items, said, tagMarks]

namespace Markers

/-- What is said after what was said before: lists go on, and what has been said once stays. -/
def followedBy (markers later : Markers) : Markers :=
  ⟨markers.isTest || later.isTest, markers.isTestCase || later.isTestCase,
    { dataProvider := markers.annotations.dataProvider ++ later.annotations.dataProvider
      depends := markers.annotations.depends ++ later.annotations.depends
      group := markers.annotations.group ++ later.annotations.group
      testdox := markers.annotations.testdox ++ later.annotations.testdox
      testWith := markers.annotations.testWith ++ later.annotations.testWith
      skipped := markers.annotations.skipped || later.annotations.skipped
      incomplete := markers.annotations.incomplete || later.annotations.incomplete }⟩

theorem followedBy_none (markers : Markers) : markers.followedBy none = markers := by
  simp [followedBy, none, Annotations.none]

theorem add_followedBy (markers later : Markers) (mark : Mark) :
    (markers.followedBy later).add mark = markers.followedBy (later.add mark) := by
  cases mark <;> simp [followedBy, add]

/-- Marks that are added to markers behind others are added behind all of them. -/
theorem foldl_add_followedBy (markers later : Markers) (marks : List Mark) :
    marks.foldl add (markers.followedBy later) = markers.followedBy (marks.foldl add later) := by
  induction marks generalizing later with
  | nil => rfl
  | cons mark rest ih => rw [List.foldl_cons, add_followedBy, ih, List.foldl_cons]

/-- The markers of two lists of marks are those of the first, followed by those of the second. -/
theorem ofMarks_append (marks others : List Mark) :
    ofMarks (marks ++ others) = (ofMarks marks).followedBy (ofMarks others) := by
  rw [ofMarks, List.foldl_append, ← ofMarks]
  conv_lhs => rw [← followedBy_none (ofMarks marks)]
  rw [foldl_add_followedBy, ofMarks, ofMarks]

end Markers

/-- The declaration without its attributes. -/
def withoutAttributes (declaration : Php.Placed) : Php.Placed :=
  { declaration with
    node := { declaration.node with
      children := declaration.node.children.filter fun child => child.kind ≠ .attributeList } }

/-- The declaration without what stands before it. -/
def withoutComment (declaration : Php.Placed) : Php.Placed :=
  { declaration with before := none }

/-- A declaration is marked by its tags and then by its attributes. -/
theorem ofDeclaration_eq_followedBy (document : Php.Document) (declaration : Php.Placed) :
    Markers.ofDeclaration document declaration =
      (Markers.ofDeclaration document (withoutAttributes declaration)).followedBy
        (Markers.ofDeclaration document (withoutComment declaration)) := by
  have noItems : attributeItems (withoutAttributes declaration).node = [] := by
    have none : (withoutAttributes declaration).node.childrenOf .attributeList = [] := by
      simp [withoutAttributes, Php.Node.childrenOf]
    rw [attributeItems, none, List.flatMap_nil]
  have noTags : tagMarks document (withoutComment declaration) = [] := rfl
  have sameTags : tagMarks document (withoutAttributes declaration) =
      tagMarks document declaration := rfl
  have sameItems : attributeItems (withoutComment declaration).node =
      attributeItems declaration.node := rfl
  rw [ofDeclaration_eq, ofDeclaration_eq, ofDeclaration_eq, noItems, noTags, sameTags, sameItems,
    List.flatMap_nil, List.append_nil, List.nil_append, Markers.ofMarks_append]

/-- The declaration carries markings as tags in its documentation, and no attributes. -/
structure CarriesTags (document : Php.Document) (markers : List Marker)
    (declaration : Php.Placed) : Prop where
  documented : ∃ block description, document.docBlock? declaration = some block ∧
    (∀ text ∈ description, IsText text ∧ ¬ IsTagLine text) ∧
    IsCommentOf (description ++ (markers.map Marker.tag).flatMap DocTag.lineTexts) block
  noAttributes : attributeItems declaration.node = []

/-- The declaration carries markings as attributes, and no tags in its documentation. -/
structure CarriesAttributes (document : Php.Document) (markings : List (Marker × AttributeForm))
    (declaration : Php.Placed) : Prop where
  noTags : ∀ block ∈ document.docBlock? declaration, docTags block = []
  attributes : List.Forall₂ (fun marking item => marking.2.Writes document marking.1 item) markings
    (attributeItems declaration.node)

theorem isWritable_of_mem_tags {markers : List Marker}
    (writable : ∀ marker ∈ markers, marker.IsWritable) :
    ∀ tag ∈ markers.map Marker.tag, tag.IsWritable :=
  List.forall_mem_map.mpr fun marker among => isWritable_tag (writable marker among)

/-- A docblock with the tags of some markers marks the declaration as these markers say. -/
theorem CarriesTags.ofDeclaration_eq {markers : List Marker}
    (writable : ∀ marker ∈ markers, marker.IsWritable)
    (carries : CarriesTags document markers declaration) :
    Markers.ofDeclaration document declaration =
      Markers.ofMarks (markers.flatMap Marker.marks) := by
  obtain ⟨block, description, found, described, isComment⟩ := carries.documented
  have tags : docTags block = markers.map Marker.tag :=
    docTags_of_isCommentOf (isWritable_of_mem_tags writable) described isComment
  have said : tagMarks document declaration = markers.flatMap Marker.marks := by
    rw [tagMarks, found, Option.map_some, Option.getD_some, tags, List.flatMap_map]
    exact List.flatMap_congr fun marker among => marks_tag (writable marker among)
  rw [PhpUnit.ofDeclaration_eq, said, carries.noAttributes, List.flatMap_nil, List.append_nil]

/-- Attributes for some markers that are all read mark the declaration as these markers say. -/
theorem CarriesAttributes.ofDeclaration_eq {markings : List (Marker × AttributeForm)}
    (read : ∀ marking ∈ markings, marking.2.IsRead marking.1)
    (carries : CarriesAttributes document markings declaration) :
    Markers.ofDeclaration document declaration =
      Markers.ofMarks (markings.flatMap fun marking => marking.1.marks) := by
  have noMarks : tagMarks document declaration = [] := by
    rw [tagMarks]
    cases found : document.docBlock? declaration with
    | none => rfl
    | some block =>
        rw [Option.map_some, Option.getD_some, carries.noTags block found, List.flatMap_nil]
  have said : (attributeItems declaration.node).map (attributeMarks document) =
      markings.map fun marking => marking.1.marks := by
    refine (map_eq_map_of_forall₂ carries.attributes ?_).symm
    intro marking member item writes
    exact ((attributeMarks_eq_iff writes).mpr (read marking member)).symm
  rw [PhpUnit.ofDeclaration_eq, noMarks, List.nil_append, List.flatMap_def, said,
    ← List.flatMap_def]

/-- An attribute as it is written: the kinds and the texts of its parts and of the values that it is
given. -/
structure WrittenAttribute where
  parts : List (Php.Kind × List Char)
  values : List (Php.Kind × List Char)
deriving DecidableEq

def writtenAttribute (document : Php.Document) (item : Php.Node) : WrittenAttribute where
  parts := (item.namedChildren.filter (·.kind ≠ .comment)).map fun part =>
    (part.kind, document.text part)
  values := (givenValues item).map fun value => (value.kind, document.text value)

/-- An attribute is the marking that its name shows, if it is given the value. -/
theorem writes_of_parts {document : Php.Document} {marker : Marker} {form : AttributeForm}
    {item : Php.Node} {path : List Char} {others : List (Php.Kind × List Char)}
    (isName : form.nameKind ∈ [.name, .qualifiedName, .relativeName])
    (isQualifier : IsQualifier path)
    (parts : (writtenAttribute document item).parts =
      (form.nameKind, path ++ marker.kind.attributeName.toList) :: others)
    (arguments : ∀ other ∈ others, other.1 = .arguments)
    (value : marker.kind ≠ .test →
      ∃ argument, (givenValues item).head? = some argument ∧
        form.Gives document marker.value argument) :
    form.Writes document marker item := by
  obtain ⟨written, rest, split, first, areOthers⟩ := List.map_eq_cons_iff.mp parts
  obtain ⟨kind, text⟩ := Prod.mk.inj first
  refine ⟨isName, ⟨written, rest, path, split, kind, fun other member => ?_, isQualifier, text⟩,
    value⟩
  exact arguments (other.kind, document.text other) (areOthers ▸ List.mem_map_of_mem member)

/-- An attribute with one argument is the marking that its parts show. -/
theorem writes_of_writtenAttribute {document : Php.Document} {marker : Marker} {nameKind : Php.Kind}
    {literal : Php.Literal} {item : Php.Node} {path arguments : List Char}
    (isName : nameKind ∈ [Php.Kind.name, .qualifiedName, .relativeName])
    (isQualifier : IsQualifier path) (means : literal.Means marker.value.toList)
    (isWritten : writtenAttribute document item =
      ⟨[(nameKind, path ++ marker.kind.attributeName.toList), (.arguments, arguments)],
        [(literal.quote.kind, literal.text)]⟩) :
    AttributeForm.Writes ⟨nameKind, some literal⟩ document marker item := by
  obtain ⟨parts, given⟩ := WrittenAttribute.mk.inj isWritten
  refine writes_of_parts isName isQualifier parts (List.forall_mem_singleton.mpr rfl) fun _ => ?_
  obtain ⟨argument, rest, split, first, _⟩ := List.map_eq_cons_iff.mp given
  obtain ⟨kind, text⟩ := Prod.mk.inj first
  exact ⟨argument, by rw [split]; rfl, kind, text, means⟩

/-- To see that attributes carry markers, it is enough to look at them as they are written. -/
theorem carriesAttributes_of_written {markings : List (Marker × AttributeForm)}
    {written : List WrittenAttribute} (noBlock : document.docBlock? declaration = none)
    (items : (attributeItems declaration.node).map (writtenAttribute document) = written)
    (writes : List.Forall₂ (fun marking parts => ∀ item, writtenAttribute document item = parts →
      marking.2.Writes document marking.1 item) markings written) :
    CarriesAttributes document markings declaration := by
  refine ⟨by simp [noBlock], ?_⟩
  rw [← items, List.forall₂_map_right_iff] at writes
  exact writes.imp fun marking item ofItem => ofItem item rfl

/-- The comment that is usually written for some markings. -/
def usualComment (markers : List Marker) : List Char :=
  blockOf ((markers.map Marker.tag).flatMap DocTag.lineTexts)

/-- The usual comment with the tags of some markers carries the markers. -/
theorem carriesTags_of_usualComment {markers : List Marker}
    (writable : ∀ marker ∈ markers, marker.IsWritable)
    (block : document.docBlock? declaration = some (usualComment markers))
    (noItems : attributeItems declaration.node = []) :
    CarriesTags document markers declaration := by
  have areWritable := isWritable_of_mem_tags writable
  exact ⟨⟨_, [], block, by simp,
    isCommentOf_blockOf (isText_of_mem_lineTexts areWritable) (ne_nil_of_mem_lineTexts areWritable)⟩,
    noItems⟩

/-- **Tags and attributes mark alike.** A declaration that carries markings as tags is marked as one
that carries them as attributes, in whatever lists and groups and with whatever namespaces before
their names, if the attributes are read; an attribute says what the tag says exactly in this case.
A declaration with both forms is marked by its tags and then by its attributes. -/
theorem markings_agree {document document' : Php.Document} {tagged attributed : Php.Placed}
    {markings : List (Marker × AttributeForm)}
    (writable : ∀ marking ∈ markings, marking.1.IsWritable)
    (carriesTags : CarriesTags document (markings.map Prod.fst) tagged)
    (carriesAttributes : CarriesAttributes document' markings attributed) :
    ((∀ marking ∈ markings, marking.2.IsRead marking.1) →
      Markers.ofDeclaration document tagged = Markers.ofDeclaration document' attributed) ∧
    (∀ (document : Php.Document) (marker : Marker) (form : AttributeForm) (item : Php.Node),
      marker.IsWritable → form.Writes document marker item →
        (attributeMarks document item = marker.tag.marks ↔ form.IsRead marker)) ∧
    ∀ (document : Php.Document) (declaration : Php.Placed),
      Markers.ofDeclaration document declaration =
        (Markers.ofDeclaration document (withoutAttributes declaration)).followedBy
          (Markers.ofDeclaration document (withoutComment declaration)) := by
  refine ⟨fun read => ?_, fun document marker form item writable writes => ?_,
    ofDeclaration_eq_followedBy⟩
  · have areWritable : ∀ marker ∈ markings.map Prod.fst, marker.IsWritable :=
      List.forall_mem_map.mpr writable
    rw [carriesTags.ofDeclaration_eq areWritable, carriesAttributes.ofDeclaration_eq read,
      List.flatMap_map]
  · rw [marks_tag writable]
    exact attributeMarks_eq_iff writes

/-- Two methods that are marked alike, one by tags and one by attributes. -/
def markedTwice : List Char :=
  ("<?php class A\x7b/**\n * @group a\n * @testdox It's\n */function f()\x7b\x7d" ++
    "#[\\PHPUnit\\Framework\\Attributes\\Group('a')] #[TestDox(\"It's\")]" ++
    "function g()\x7b\x7d\x7d").toList

theorem isWritable_group : Marker.IsWritable ⟨.group, "a"⟩ :=
  ⟨by decide +kernel, by decide +kernel, fun _ => List.forall_mem_singleton.mpr (by decide)⟩

def quotedGroup : Php.Literal :=
  ⟨[], .single, "a".toList, List.mem_cons_self⟩

def quotedTestdox : Php.Literal :=
  ⟨[], .double, "It's".toList, List.mem_cons_self⟩

def groupAndTestdox : List (Marker × AttributeForm) :=
  [(⟨.group, "a"⟩, ⟨.qualifiedName, some quotedGroup⟩),
    (⟨.testdox, "It's"⟩, ⟨.name, some quotedTestdox⟩)]

/-- Two classes with a group and a description, one in a docblock and one in attributes, are marked
alike. -/
theorem markedTwice_agree :
    ∃ document, Php.Document.read markedTwice = .ok document ∧
      ∃ tagged ∈ document.root.descendants none, ∃ attributed ∈ document.root.descendants none,
        CarriesTags document (groupAndTestdox.map Prod.fst) tagged ∧
        CarriesAttributes document groupAndTestdox attributed ∧
        (Markers.ofDeclaration document tagged).annotations.testdox = ["It's"] ∧
        Markers.ofDeclaration document tagged = Markers.ofDeclaration document attributed := by
  have writable : ∀ marking ∈ groupAndTestdox, marking.1.IsWritable :=
    List.forall_mem_cons.mpr ⟨isWritable_group,
      List.forall_mem_singleton.mpr ⟨by decide +kernel, by decide +kernel, nofun⟩⟩
  have read : ∀ marking ∈ groupAndTestdox, marking.2.IsRead marking.1 := by
    refine List.forall_mem_cons.mpr ⟨⟨by decide, fun _ => ⟨quotedGroup, rfl, nofun⟩⟩,
      List.forall_mem_singleton.mpr ⟨by decide, fun _ => ⟨quotedTestdox, rfl, fun _ => ?_⟩⟩⟩
    decide +kernel
  have meansGroup : quotedGroup.Means "a".toList := by
    change Php.unescape Php.Quote.single.hides "a".toList = "a".toList
    decide +kernel
  have meansTestdox : quotedTestdox.Means "It's".toList := by
    change Php.evaluate "It's".toList = some (Text.bytes "It's".toList)
    decide +kernel
  obtain ⟨document, parsed, tagged, isTagged, block, noItems, attributed, isAttributed, noBlock,
      items, said⟩ :=
    @Php.exists_document_of_check markedTwice
      (fun document => ∃ tagged ∈ document.root.descendants none,
        document.docBlock? tagged = some (usualComment (groupAndTestdox.map Prod.fst)) ∧
        (attributeItems tagged.node).map (writtenAttribute document) = [] ∧
        ∃ attributed ∈ document.root.descendants none,
          document.docBlock? attributed = none ∧
          (attributeItems attributed.node).map (writtenAttribute document) =
            [⟨[(.qualifiedName, "\\PHPUnit\\Framework\\Attributes\\".toList ++ "Group".toList),
                (.arguments, "('a')".toList)], [(.plainString, quotedGroup.text)]⟩,
              ⟨[(.name, [] ++ "TestDox".toList), (.arguments, "(\"It's\")".toList)],
                [(.interpolatedString, quotedTestdox.text)]⟩] ∧
          (Markers.ofDeclaration document tagged).annotations.testdox = ["It's"])
      _ (by decide +kernel)
  have carriesTags : CarriesTags document (groupAndTestdox.map Prod.fst) tagged :=
    carriesTags_of_usualComment (List.forall_mem_map.mpr writable) block
      (List.map_eq_nil_iff.mp noItems)
  have carriesAttributes : CarriesAttributes document groupAndTestdox attributed := by
    refine carriesAttributes_of_written noBlock items (.cons ?_ (.cons ?_ .nil))
    · intro item isWritten
      have qualified : IsQualifier "\\PHPUnit\\Framework\\Attributes\\".toList :=
        .inr (by decide +kernel)
      exact writes_of_writtenAttribute (by decide) qualified meansGroup isWritten
    · intro item isWritten
      exact writes_of_writtenAttribute (by decide) (.inl rfl) meansTestdox isWritten
  exact ⟨document, parsed, tagged, isTagged, attributed, isAttributed, carriesTags,
    carriesAttributes, said, (markings_agree writable carriesTags carriesAttributes).1 read⟩

/-- Two methods that are marked alike, where an attribute has an escape sequence by number in its
value and another one a name relative to the namespace. -/
def markedApart : List Char :=
  ("<?php namespace PHPUnit\\Framework\\Attributes;class A\x7b" ++
    "/**\n * @group a\n * @test\n */function f()\x7b\x7d" ++
    "#[Group(\"\\x61\"), namespace\\Test]function g()\x7b\x7d\x7d").toList

def numberedGroup : Php.Literal :=
  ⟨[], .double, "\\x61".toList, List.mem_cons_self⟩

def groupAndTest : List (Marker × AttributeForm) :=
  [(⟨.group, "a"⟩, ⟨.name, some numberedGroup⟩), (⟨.test, ""⟩, ⟨.relativeName, none⟩)]

/-- **A relative name is passed over, and an escape sequence by number is kept.** The tags say that
the method is a test of the group `a`, and the attributes say neither. -/
theorem markedApart_disagree :
    ∃ document, Php.Document.read markedApart = .ok document ∧
      ∃ tagged ∈ document.root.descendants none, ∃ attributed ∈ document.root.descendants none,
        (∀ marking ∈ groupAndTest, marking.1.IsWritable) ∧
        CarriesTags document (groupAndTest.map Prod.fst) tagged ∧
        CarriesAttributes document groupAndTest attributed ∧
        (Markers.ofDeclaration document tagged).isTest = true ∧
        (Markers.ofDeclaration document tagged).annotations.group = ["a"] ∧
        (Markers.ofDeclaration document attributed).isTest = false ∧
        (Markers.ofDeclaration document attributed).annotations.group = ["\\x61"] := by
  have writable : ∀ marking ∈ groupAndTest, marking.1.IsWritable :=
    List.forall_mem_cons.mpr ⟨isWritable_group,
      List.forall_mem_singleton.mpr ⟨by decide +kernel, by decide +kernel, nofun⟩⟩
  have meansGroup : numberedGroup.Means "a".toList := by
    change Php.evaluate "\\x61".toList = some (Text.bytes "a".toList)
    decide +kernel
  obtain ⟨document, parsed, tagged, isTagged, block, noItems, isTest, inGroup, attributed,
      isAttributed, noBlock, items, noTest, otherGroup⟩ :=
    @Php.exists_document_of_check markedApart
      (fun document => ∃ tagged ∈ document.root.descendants none,
        document.docBlock? tagged = some (usualComment (groupAndTest.map Prod.fst)) ∧
        (attributeItems tagged.node).map (writtenAttribute document) = [] ∧
        (Markers.ofDeclaration document tagged).isTest = true ∧
        (Markers.ofDeclaration document tagged).annotations.group = ["a"] ∧
        ∃ attributed ∈ document.root.descendants none,
          document.docBlock? attributed = none ∧
          (attributeItems attributed.node).map (writtenAttribute document) =
            [⟨[(.name, [] ++ "Group".toList), (.arguments, "(\"\\x61\")".toList)],
                [(.interpolatedString, numberedGroup.text)]⟩,
              ⟨[(.relativeName, "namespace\\".toList ++ "Test".toList)], []⟩] ∧
          (Markers.ofDeclaration document attributed).isTest = false ∧
          (Markers.ofDeclaration document attributed).annotations.group = ["\\x61"])
      _ (by decide +kernel)
  have carriesTags : CarriesTags document (groupAndTest.map Prod.fst) tagged :=
    carriesTags_of_usualComment (List.forall_mem_map.mpr writable) block
      (List.map_eq_nil_iff.mp noItems)
  have carriesAttributes : CarriesAttributes document groupAndTest attributed := by
    refine carriesAttributes_of_written noBlock items (.cons ?_ (.cons ?_ .nil))
    · intro item isWritten
      exact writes_of_writtenAttribute (by decide) (.inl rfl) meansGroup isWritten
    · intro item isWritten
      have qualified : IsQualifier "namespace\\".toList := .inr (by decide +kernel)
      exact writes_of_parts (by decide) qualified (congrArg WrittenAttribute.parts isWritten)
        (by simp) fun noTest => absurd rfl noTest
  exact ⟨document, parsed, tagged, isTagged, attributed, isAttributed, writable, carriesTags,
    carriesAttributes, isTest, inGroup, noTest, otherGroup⟩

end Both

end PhpTestIndex.PhpUnit
