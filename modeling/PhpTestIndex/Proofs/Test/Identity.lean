import Mathlib.Tactic.MkIffOfInductiveProp
import PhpTestIndex.Proofs.Php.Naming
import PhpTestIndex.Proofs.Test.Lineage

/-! # What an identifier is put together from

The identifier of a node that is not a namespace is the name of its class with its namespace, and
after it what `PhpTestIndex.Definition.tail` says: the name of the method, and the label of the
data set (`PhpTestIndex.Identifier.unique_getD`). So two nodes have one identifier only in the ways
of `PhpTestIndex.Definition.SharesId` (`PhpTestIndex.Definition.pairwise_sharesId`). If the names
of classes and methods have no separators and no blanks, as words have none, the name of the class,
its namespace and the rest can be told from the whole
(`PhpTestIndex.Identifier.qualifiedClass_append_inj`).
-/

namespace PhpTestIndex

namespace Identifier

/-- What an identifier says of a method; without a class the method does not count. -/
def memberPart (className methodName : Option String) : String :=
  match present className, present methodName with
  | some _, some name => "::" ++ name
  | _, _ => ""

theorem present_eq_some_iff {part : Option String} {text : String} :
    present part = some text ↔ part = some text ∧ text ≠ "" := by
  simp [present, Option.filter_eq_some_iff]

theorem present_present (part : Option String) : present (present part) = present part := by
  simp [present, Option.filter_filter]

/-- Without a method nothing follows the name of the class. -/
theorem memberPart_none (className : Option String) : memberPart className none = "" := by
  unfold memberPart
  cases present className <;> rfl

theorem memberPart_some {className methodName : String} (named : className ≠ "")
    (named' : methodName ≠ "") :
    memberPart (some className) (some methodName) = "::" ++ methodName := by
  rw [memberPart, present_eq_some_iff.mpr ⟨rfl, named⟩, present_eq_some_iff.mpr ⟨rfl, named'⟩]

theorem qualifiedClass_present (inNamespace className : Option String) :
    qualifiedClass (present inNamespace) className = qualifiedClass inNamespace className := by
  rw [qualifiedClass, qualifiedClass, present_present]

theorem unique_present (inNamespace className methodName : Option String) :
    unique (present inNamespace) className methodName =
      unique inNamespace className methodName := by
  simp only [unique, present_present, qualifiedClass_present]

/-- An identifier is the name of a class and what it says of the method. -/
theorem unique_getD (inNamespace className methodName : Option String) :
    (unique inNamespace className methodName).getD "" =
      qualifiedClass inNamespace className ++ memberPart className methodName := by
  unfold unique memberPart
  cases named : present className with
  | none =>
      simp only [qualifiedClass, named]
      cases present inNamespace <;> simp
  | some text =>
      obtain ⟨rfl, _⟩ := present_eq_some_iff.mp named
      dsimp only
      cases present methodName <;> simp [String.append_assoc]

end Identifier

namespace Definition

/-- What the identifier of a node says after the name of the class. -/
def tail (node : Definition) : String :=
  Identifier.memberPart node.className node.methodName ++
    if node.kind = .dataSet then " " ++ node.label else ""

/-- An identifier says nothing but the name of a class: it is that of the class itself, or that of a
group or a test in a class without a name. -/
def IsBare (node : Definition) : Prop :=
  node.kind = .classSuite ∨ node.kind ≠ .dataSet ∧ node.className = some ""

/-- Two nodes of a forest that have the same identifier by what they are named after; `coincide` says
whether they stand at places in a class that are called alike. -/
@[mk_iff]
inductive SharesId (coincide : Prop) (first second : Definition) : Prop
  /-- Both are nodes of one namespace, which comes back after something else. -/
  | reentered (kinds : first.kind = .namespaceSuite ∧ second.kind = .namespaceSuite)
      (same : first.inNamespace = second.inNamespace)
  /-- One is the node of a namespace, and the other names nothing but a class that is called like
  the namespace. -/
  | namesake (kinds : first.kind = .namespaceSuite ∧ second.kind ≠ .namespaceSuite)
      (same : second.qualifiedClass = first.inNamespace) (bare : second.IsBare)
  | namesakeBefore (kinds : first.kind ≠ .namespaceSuite ∧ second.kind = .namespaceSuite)
      (same : first.qualifiedClass = second.inNamespace) (bare : first.IsBare)
  /-- Both stand at places in a class that are called alike. -/
  | coinciding (kinds : first.kind ≠ .namespaceSuite ∧ second.kind ≠ .namespaceSuite)
      (alike : coincide)

/-- The identifier of a node is put together from its names. -/
structure Identified (node : Definition) : Prop where
  ofNamespace : node.kind = .namespaceSuite → node.inNamespace = some node.id
  ofClass : node.kind ≠ .namespaceSuite →
    ∃ name, node.qualifiedClass = some name ∧ node.id = name ++ node.tail
  bare : node.kind ≠ .namespaceSuite → node.IsBare → node.tail = ""

/-- Two nodes have one identifier exactly in the ways of `SharesId`, if nothing but the name of a
class can be taken for the name of a namespace, and places in a class are told apart as
`coincide` says. -/
theorem id_eq_iff_sharesId {coincide : Prop} {first second : Definition}
    (known : first.Identified) (known' : second.Identified)
    (bare : first.kind = .namespaceSuite → second.kind ≠ .namespaceSuite →
      first.id = second.id → second.IsBare)
    (bare' : first.kind ≠ .namespaceSuite → second.kind = .namespaceSuite →
      first.id = second.id → first.IsBare)
    (below : first.kind ≠ .namespaceSuite → second.kind ≠ .namespaceSuite →
      (first.id = second.id ↔ coincide)) :
    first.id = second.id ↔ SharesId coincide first second := by
  by_cases kind : first.kind = .namespaceSuite
  · have named := known.ofNamespace kind
    by_cases kind' : second.kind = .namespaceSuite
    · simp [sharesId_iff, kind, kind', named, known'.ofNamespace kind']
    · obtain ⟨name, ofClass, id⟩ := known'.ofClass kind'
      have onlyNamesake : SharesId coincide first second ↔ name = first.id ∧ second.IsBare := by
        simp [sharesId_iff, kind, kind', named, ofClass]
      rw [onlyNamesake]
      constructor
      · intro equal
        have isBare := bare kind kind' equal
        exact ⟨by rw [equal, id, known'.bare kind' isBare, String.append_empty], isBare⟩
      · rintro ⟨same, isBare⟩
        rw [id, known'.bare kind' isBare, String.append_empty, same]
  · obtain ⟨name, ofClass, id⟩ := known.ofClass kind
    by_cases kind' : second.kind = .namespaceSuite
    · have named := known'.ofNamespace kind'
      have onlyNamesake : SharesId coincide first second ↔ name = second.id ∧ first.IsBare := by
        simp [sharesId_iff, kind, kind', named, ofClass]
      rw [onlyNamesake]
      constructor
      · intro equal
        have isBare := bare' kind kind' equal
        exact ⟨by rw [← equal, id, known.bare kind isBare, String.append_empty], isBare⟩
      · rintro ⟨same, isBare⟩
        rw [id, known.bare kind isBare, String.append_empty, same]
    · rw [below kind kind']
      simp [sharesId_iff, kind, kind']

/-- Among nodes whose identifiers are put together from their names, two have one identifier
exactly in the ways of `SharesId`. -/
theorem pairwise_sharesId {coincide : Lineage → Lineage → Prop} {lineages : List Lineage}
    (known : ∀ lineage ∈ lineages, lineage.node.Identified)
    (bare : ∀ above ∈ lineages, ∀ below ∈ lineages, above.node.kind = .namespaceSuite →
      below.node.kind ≠ .namespaceSuite → above.node.id = below.node.id → below.node.IsBare)
    (apart : lineages.Pairwise fun first second => first.node.kind ≠ .namespaceSuite →
      second.node.kind ≠ .namespaceSuite →
        (first.node.id = second.node.id ↔ coincide first second)) :
    lineages.Pairwise fun first second => (first.node.id = second.node.id ↔
      SharesId (coincide first second) first.node second.node) := by
  refine apart.imp_of_mem fun {first second} member member' below => ?_
  refine id_eq_iff_sharesId (known first member) (known second member')
    (bare first member second member') (fun kind kind' equal => ?_) below
  exact bare second member' first member kind' kind equal.symm

end Definition

section Injectivity

variable {p : Char → Bool} {word word' rest rest' : List Char}

/-- The longest beginning of characters of a kind is the whole word, if what follows the word starts
otherwise. -/
theorem takeWhile_append_of_head (all : ∀ c ∈ word, p c = true)
    (ends : ∀ c ∈ rest.head?, p c = false) : (word ++ rest).takeWhile p = word := by
  rw [List.takeWhile_append_of_pos all]
  cases rest with
  | nil => simp
  | cons c rest => simp [ends c rfl]

/-- Where a text stops to satisfy a rule, it can be cut in one way only. -/
theorem append_inj_of_head (all : ∀ c ∈ word, p c = true) (all' : ∀ c ∈ word', p c = true)
    (ends : ∀ c ∈ rest.head?, p c = false) (ends' : ∀ c ∈ rest'.head?, p c = false)
    (equal : word ++ rest = word' ++ rest') : word = word' ∧ rest = rest' := by
  have words : word = word' := by
    rw [← takeWhile_append_of_head all ends, equal, takeWhile_append_of_head all' ends']
  subst words
  exact ⟨rfl, List.append_cancel_left equal⟩

end Injectivity

namespace Identifier

/-- What stands before the name of a class. -/
def namespacePart : Option String → List Char
  | none => []
  | some name => name.toList ++ ['\\']

/-- What a namespace puts in front of the name of a class tells the namespace: it ends in the
separator, which cannot be confused with there being none. -/
theorem namespacePart_injective {first second : Option String}
    (equal : namespacePart first = namespacePart second) : first = second := by
  cases first <;> cases second <;> simp_all [namespacePart, String.toList_inj]

/-- The characters of a qualified name are those of the namespace with its separator, and those of
the class. -/
theorem toList_qualifiedClass {inNamespace : Option String} {className : String}
    (present : Identifier.present inNamespace = inNamespace) (named : className ≠ "") :
    (qualifiedClass inNamespace (some className)).toList =
      namespacePart inNamespace ++ className.toList := by
  have name : Identifier.present (some className) = some className :=
    present_eq_some_iff.mpr ⟨rfl, named⟩
  unfold qualifiedClass
  rw [present, name]
  cases inNamespace with
  | none => rfl
  | some text => simp [namespacePart]

/-- The name of a class with its namespace tells the namespace, if the name is known. -/
theorem inNamespace_eq_of_qualifiedClass_eq {inNamespace inNamespace' : Option String}
    {className : String} (present : Identifier.present inNamespace = inNamespace)
    (present' : Identifier.present inNamespace' = inNamespace')
    (equal : qualifiedClass inNamespace (some className) =
      qualifiedClass inNamespace' (some className)) : inNamespace = inNamespace' := by
  by_cases named : className = ""
  · have alone {part : Option String} (present : Identifier.present part = part) :
        qualifiedClass part (some className) = part.getD "" := by
      rw [named, qualifiedClass, present]
      cases part <;> rfl
    rw [alone present, alone present'] at equal
    cases inNamespace with
    | none =>
        cases inNamespace' with
        | none => rfl
        | some name => exact absurd equal.symm (present_eq_some_iff.mp present').2
    | some name =>
        cases inNamespace' with
        | none => exact absurd equal (present_eq_some_iff.mp present).2
        | some name' => exact congrArg some equal
  · have texts := congrArg String.toList equal
    rw [toList_qualifiedClass present named, toList_qualifiedClass present' named] at texts
    exact namespacePart_injective (List.append_cancel_right texts)

theorem head?_reverse_namespacePart (inNamespace : Option String) :
    ∀ c ∈ (namespacePart inNamespace).reverse.head?, (c != '\\') = false := by
  cases inNamespace <;> simp [namespacePart]

/-- A character that the name of a class or a method may have: neither a separator nor a blank. -/
def isNamePart (c : Char) : Bool :=
  c != '\\' && c != ':' && c != ' '

/-- The text can be the name of a class or a method. -/
structure IsName (chars : List Char) : Prop where
  nonempty : chars ≠ []
  parts : ∀ c ∈ chars, isNamePart c = true

/-- What the lexer takes for a word has no separators and no blanks, so it can be part of an
identifier without being mistaken for more than one part. -/
theorem isName_of_isWord {chars : List Char} (word : Php.IsWord chars) : IsName chars where
  nonempty := word.nonempty
  parts c member := by
    have name := word.characters c member
    have other {mark : Char} (noName : Php.Lexeme.isNameCharacter mark = false) : c ≠ mark := by
      rintro rfl
      rw [name] at noName
      cases noName
    simp only [isNamePart, Bool.and_eq_true, bne_iff_ne]
    exact ⟨⟨other (by decide), other (by decide)⟩, other (by decide)⟩

/-- A name has no namespace separator in it. -/
theorem IsName.no_separator {chars : List Char} (name : IsName chars) : ∀ c ∈ chars, c ≠ '\\' := by
  rintro c member rfl
  exact absurd (name.parts _ member) (by decide)

/-- A name is not empty, so it is never taken for a missing one. -/
theorem IsName.ne_empty {name : String} (named : IsName name.toList) : name ≠ "" := by
  rintro rfl
  exact named.nonempty rfl

/-- From the end of an identifier back to the start of the name of the class there is no namespace
separator, if the rest has none. -/
theorem no_separator {className : String} {rest : List Char}
    (name : IsName className.toList) (inside : ∀ c ∈ rest, c ≠ '\\') :
    ∀ c ∈ (className.toList ++ rest).reverse, (c != '\\') = true := by
  intro c member
  rw [List.mem_reverse, List.mem_append] at member
  rw [bne_iff_ne]
  exact member.elim (name.no_separator c) (inside c)

/-- **Names can be told from identifiers.** If what follows the names of classes has no separator of
namespaces and does not go on as a name, then the whole tells the namespace, the name and what
follows. -/
theorem qualifiedClass_append_inj {inNamespace inNamespace' : Option String}
    {className className' : String} {rest rest' : List Char}
    (present : Identifier.present inNamespace = inNamespace)
    (present' : Identifier.present inNamespace' = inNamespace')
    (name : IsName className.toList) (name' : IsName className'.toList)
    (inside : ∀ c ∈ rest, c ≠ '\\') (inside' : ∀ c ∈ rest', c ≠ '\\')
    (ends : ∀ c ∈ rest.head?, isNamePart c = false)
    (ends' : ∀ c ∈ rest'.head?, isNamePart c = false)
    (equal : (qualifiedClass inNamespace (some className)).toList ++ rest =
      (qualifiedClass inNamespace' (some className')).toList ++ rest') :
    inNamespace = inNamespace' ∧ className = className' ∧ rest = rest' := by
  rw [toList_qualifiedClass present name.ne_empty, toList_qualifiedClass present' name'.ne_empty,
    List.append_assoc, List.append_assoc] at equal
  -- Namespaces have separators too, so the name of the class is cut off from the end.
  have reversed : (className.toList ++ rest).reverse ++ (namespacePart inNamespace).reverse =
      (className'.toList ++ rest').reverse ++ (namespacePart inNamespace').reverse := by
    rw [← List.reverse_append, ← List.reverse_append, equal]
  obtain ⟨names, namespaces⟩ := append_inj_of_head (no_separator name inside)
    (no_separator name' inside') (head?_reverse_namespacePart inNamespace)
    (head?_reverse_namespacePart inNamespace') reversed
  obtain ⟨same, rests⟩ := append_inj_of_head name.parts name'.parts ends ends'
    (List.reverse_injective names)
  exact ⟨namespacePart_injective (List.reverse_injective namespaces), String.toList_inj.mp same,
    rests⟩

end Identifier

end PhpTestIndex
