import PhpTestIndex.Proofs.Php.Documents
import PhpTestIndex.Proofs.PhpUnit.Blocks

/-! # What is in scope in a block

A class has the namespace of its block, and its parent is resolved there with the imports of this
block only (`PhpTestIndex.PhpUnit.hierarchy_of_blocks`). So what another block imports does not
matter: blocks that read alike declare alike (`PhpTestIndex.PhpUnit.Block.ReadsAs.parents_eq`). The
hierarchy has one entry for a full name: of several classes that have it, the last one's parent is
stored (`PhpTestIndex.PhpUnit.declaredTwice_stores_last`).
-/

namespace PhpTestIndex.PhpUnit

section Alike

variable {document document' : Php.Document}

/-- Two blocks of two files belong to one namespace, and their statements read alike. -/
structure Block.ReadsAs (document document' : Php.Document) (block block' : Block) : Prop where
  inNamespace : block.inNamespace = block'.inNamespace
  statements : List.Forall₂
    (fun placed placed' => placed.node.readsAs document.code document'.code placed'.node)
    block.statements block'.statements

theorem string_eq_of_readsAs {node node' : Php.Node}
    (alike : node.readsAs document.code document'.code node') :
    document.string node = document'.string node' :=
  congrArg String.ofList (Php.Node.readsAs_iff.mp alike).2.2.1

/-- The first names in two nodes that read alike read alike. -/
theorem rel_find?_name {node node' : Php.Node}
    (alike : node.readsAs document.code document'.code node') :
    Option.Rel (fun name name' => name.readsAs document.code document'.code name')
      (node.namedChildren.find? fun child => child.kind = .name || child.kind = .qualifiedName)
      (node'.namedChildren.find? fun child =>
        child.kind = .name || child.kind = .qualifiedName) := by
  refine Php.Node.rel_find? ?_ (Php.Node.forall₂_namedChildren alike)
  intro child child' related
  rw [(Php.Node.readsAs_iff.mp related).1]

/-- Clauses that read alike import alike. -/
theorem importOfClause_eq {clause clause' : Php.Node}
    (alike : clause.readsAs document.code document'.code clause') :
    importOfClause document clause = importOfClause document' clause' := by
  have text {node node' : Php.Node} (related : node.readsAs document.code document'.code node') :
      document.text node = document'.text node' := (Php.Node.readsAs_iff.mp related).2.2.1
  have localNames : (clause.child? .localName).map document.text =
      (clause'.child? .localName).map document'.text := by
    rcases cases_of_rel (Php.Node.rel_child? alike .localName) with
      ⟨absent, absent'⟩ | ⟨name, name', found, found', related⟩
    · rw [absent, absent']
      rfl
    · rw [found, found']
      exact congrArg some (text related)
  unfold importOfClause
  rcases cases_of_rel (rel_find?_name alike) with
    ⟨absent, absent'⟩ | ⟨name, name', found, found', related⟩
  · rw [absent, absent']
    rfl
  · simp only [found, found', Option.map_some, text related, localNames]

/-- Use declarations that read alike add alike. -/
theorem imports_add_eq (imports : Imports) {declaration declaration' : Php.Node}
    (alike : declaration.readsAs document.code document'.code declaration') :
    imports.add document declaration = imports.add document' declaration' := by
  have clauses : List.Forall₂ Eq
      ((declaration.childrenOf .useClause).filterMap (importOfClause document))
      ((declaration'.childrenOf .useClause).filterMap (importOfClause document')) := by
    refine List.rel_filterMap ?_ (Php.Node.forall₂_childrenOf alike .useClause)
    intro clause clause' related
    rw [importOfClause_eq related]
    cases importOfClause document' clause' with
    | none => exact .none
    | some entry => exact .some rfl
  rw [List.forall₂_eq_eq_eq] at clauses
  rw [Imports.add, Imports.add, clauses]

/-- Declarations of classes that read alike name one parent. -/
theorem parentName?_eq {declaration declaration' : Php.Node}
    (alike : declaration.readsAs document.code document'.code declaration') :
    Survey.hierarchy.parentName? document declaration =
      Survey.hierarchy.parentName? document' declaration' := by
  unfold Survey.hierarchy.parentName?
  rcases cases_of_rel (rel_head? (Php.Node.forall₂_childrenOf alike .baseClause)) with
    ⟨absent, absent'⟩ | ⟨clause, clause', found, found', related⟩
  · rw [absent, absent']
    rfl
  rw [found, found', Option.bind_some, Option.bind_some]
  rcases cases_of_rel (rel_find?_name related) with
    ⟨absent, absent'⟩ | ⟨name, name', found, found', relatedName⟩
  · rw [absent, absent']
    rfl
  · rw [found, found']
    exact congrArg some (string_eq_of_readsAs relatedName)

section Blocks

variable {block block' : Block} (alike : Block.ReadsAs document document' block block')

include alike

/-- The statements of one kind in two blocks that read alike read alike in pairs. -/
theorem Block.ReadsAs.filter (kind : Php.Kind) :
    List.Forall₂
      (fun placed placed' => placed.node.readsAs document.code document'.code placed'.node)
      (block.statements.filter fun statement => statement.node.kind = kind)
      (block'.statements.filter fun statement => statement.node.kind = kind) := by
  refine List.rel_filter ?_ alike.statements
  intro placed placed' related
  simp only [(Php.Node.readsAs_iff.mp related).1]

/-- Blocks that read alike import the same. -/
theorem Block.ReadsAs.imports_eq : block.imports document = block'.imports document' := by
  unfold Block.imports
  refine List.rel_foldl ?_ rfl (alike.filter .useDeclaration)
  rintro imports _ rfl placed placed' related
  exact imports_add_eq imports related

/-- Blocks that read alike declare alike. -/
theorem Block.ReadsAs.parents_eq : block.parents document = block'.parents document' := by
  unfold Block.parents Block.classes
  rw [List.map_flatMap, List.map_flatMap, ← List.forall₂_eq_eq_eq]
  refine List.rel_flatMap (alike.filter .classDeclaration) ?_
  intro placed placed' related
  rw [List.forall₂_eq_eq_eq]
  unfold declaredClass
  rcases cases_of_rel (Php.Node.rel_child? related .name) with
    ⟨absent, absent'⟩ | ⟨name, name', found, found', relatedName⟩
  · simp only [absent, absent', List.map_nil]
  · simp only [found, found', List.map_singleton, Declared.qualifiedName, Block.parent?,
      string_eq_of_readsAs relatedName, parentName?_eq related, alike.inNamespace, alike.imports_eq]

end Blocks

/-- Blocks that read alike give the same parents, in order. -/
theorem flatMap_parents_eq {blocks blocks' : List Block}
    (alike : List.Forall₂ (Block.ReadsAs document document') blocks blocks') :
    blocks.flatMap (Block.parents document) = blocks'.flatMap (Block.parents document') := by
  rw [← List.forall₂_eq_eq_eq]
  refine List.rel_flatMap alike ?_
  intro block block' same
  rw [List.forall₂_eq_eq_eq, same.parents_eq]

end Alike

/-- What is not listed is not found. -/
theorem lookup_of_not_mem {entries : Hierarchy} {key : String}
    (absent : key ∉ entries.map Prod.fst) : entries.lookup key = none := by
  rw [List.lookup_eq_none_iff]
  intro entry member
  exact bne_iff_ne.mpr fun equal => absent (List.mem_map.mpr ⟨entry, member, equal.symm⟩)

/-- The last entry with a name is the one that is stored. -/
theorem lookup_eq_of_last {hierarchy earlier later : Hierarchy} {key : String}
    {parent : Option String} (split : hierarchy.reverse = earlier ++ (key, parent) :: later)
    (last : key ∉ later.map Prod.fst) : hierarchy.lookup key = some parent := by
  have entries : hierarchy = later.reverse ++ (key, parent) :: earlier.reverse := by
    rw [← List.reverse_reverse hierarchy, split]
    simp
  have absent : key ∉ later.reverse.map Prod.fst := by simpa using last
  rw [entries, List.lookup_append, lookup_of_not_mem absent, List.lookup_cons_self]
  rfl

/-- Entries with other names do not count. -/
theorem lookup_eq_of_others {hierarchy hierarchy' earlier changed changed' later : Hierarchy}
    {key : String} (split : hierarchy.reverse = earlier ++ changed ++ later)
    (split' : hierarchy'.reverse = earlier ++ changed' ++ later)
    (other : key ∉ changed.map Prod.fst) (other' : key ∉ changed'.map Prod.fst) :
    hierarchy.lookup key = hierarchy'.lookup key := by
  have entries {entries middle : Hierarchy} (split : entries.reverse = earlier ++ middle ++ later)
      (absent : key ∉ middle.map Prod.fst) :
      entries.lookup key = (later.reverse.lookup key).or (earlier.reverse.lookup key) := by
    have absent' : key ∉ middle.reverse.map Prod.fst := by simpa using absent
    rw [← List.reverse_reverse entries, split, List.reverse_append, List.reverse_append,
      List.lookup_append, List.lookup_append, lookup_of_not_mem absent', Option.none_or]
  rw [entries split other, entries split' other']

section Files

variable {document : Php.Document}

/-- The entries of the hierarchy are those of the blocks. -/
theorem reverse_hierarchy (unnested : Unnested document) (context : Context) :
    ((Survey.ofDocument document context.restart).hierarchy document).reverse =
      (blocks document).flatMap (Block.parents document) := by
  obtain ⟨closed, current, split, covers⟩ := Survey.covers_ofDocument unnested context
  rw [← split]
  exact covers.hierarchy

/-- Files that differ in one block have the same entries for the other blocks. -/
theorem hierarchy_of_changed_block {document' : Php.Document} {context context' : Context}
    (unnested : Unnested document) (unnested' : Unnested document') {changed changed' : Block}
    {earlier later earlier' later' : List Block}
    (split : blocks document = earlier ++ changed :: later)
    (split' : blocks document' = earlier' ++ changed' :: later')
    (before : List.Forall₂ (Block.ReadsAs document document') earlier earlier')
    (after : List.Forall₂ (Block.ReadsAs document document') later later') :
    ((Survey.ofDocument document context.restart).hierarchy document).reverse =
        earlier.flatMap (Block.parents document) ++ changed.parents document ++
          later.flatMap (Block.parents document) ∧
      ((Survey.ofDocument document' context'.restart).hierarchy document').reverse =
        earlier.flatMap (Block.parents document) ++ changed'.parents document' ++
          later.flatMap (Block.parents document) := by
  constructor
  · rw [reverse_hierarchy unnested, split, List.flatMap_append, List.flatMap_cons,
      List.append_assoc]
  · rw [reverse_hierarchy unnested', split', List.flatMap_append, List.flatMap_cons,
      flatMap_parents_eq before, flatMap_parents_eq after, List.append_assoc]

end Files

/-- **Namespaces and imports are those of the block.** In a file whose namespaces do not stand in
each other, the candidates are the classes of its blocks, each with the namespace of its block, and
the entries of the hierarchy are their full names and their parents, resolved with the namespace and
the imports of their blocks. What is stored for a full name is the parent of the last class that has
it. In another file that differs in one block only, the entries of the other blocks are the same,
and so is what is stored for the names that the block does not declare. Classes that are called
alike in different namespaces have different full names. -/
theorem hierarchy_of_blocks (document : Php.Document) (context : Context)
    (unnested : Unnested document) :
    let survey := Survey.ofDocument document context.restart
    survey.candidates.map Candidate.declared = (blocks document).flatMap (Block.classes document) ∧
    (∀ block ∈ blocks document, ∀ declared ∈ block.classes document,
      declared.inNamespace = block.inNamespace) ∧
    (survey.hierarchy document).reverse =
      (blocks document).flatMap (Block.parents document) ∧
    (∀ earlier key parent later,
      (blocks document).flatMap (Block.parents document) = earlier ++ (key, parent) :: later →
      key ∉ later.map Prod.fst → (survey.hierarchy document).lookup key = some parent) ∧
    (∀ (document' : Php.Document) (context' : Context), Unnested document' →
      ∀ earlier changed later earlier' changed' later',
        blocks document = earlier ++ changed :: later →
        blocks document' = earlier' ++ changed' :: later' →
        List.Forall₂ (Block.ReadsAs document document') earlier earlier' →
        List.Forall₂ (Block.ReadsAs document document') later later' →
        let survey' := Survey.ofDocument document' context'.restart
        ∃ before after,
          (survey.hierarchy document).reverse = before ++ changed.parents document ++ after ∧
          (survey'.hierarchy document').reverse = before ++ changed'.parents document' ++ after ∧
          ∀ key, key ∉ (changed.parents document).map Prod.fst →
            key ∉ (changed'.parents document').map Prod.fst →
            (survey.hierarchy document).lookup key = (survey'.hierarchy document').lookup key) ∧
    ∀ first ∈ survey.candidates, ∀ second ∈ survey.candidates, first.name = second.name →
      first.inNamespace ≠ second.inNamespace → first.qualifiedName ≠ second.qualifiedName := by
  intro survey
  refine ⟨?_, ?_, reverse_hierarchy unnested context, ?_, ?_, ?_⟩
  · obtain ⟨closed, current, split, covers⟩ := Survey.covers_ofDocument unnested context
    rw [← split]
    exact covers.declared
  · intro block _ declared member
    exact Survey.inNamespace_of_mem_classes member
  · intro earlier key parent later split last
    exact lookup_eq_of_last ((reverse_hierarchy unnested context).trans split) last
  · intro document' context' unnested' earlier changed later earlier' changed' later' split split'
      before after survey'
    obtain ⟨here, there⟩ := @hierarchy_of_changed_block document document' context context'
      unnested unnested' changed changed' earlier later earlier' later' split split' before after
    exact ⟨_, _, here, there, fun key other other' => lookup_eq_of_others here there other other'⟩
  · intro first member second member' names different equal
    unfold Candidate.qualifiedName at equal
    rw [names] at equal
    exact different (Identifier.inNamespace_eq_of_qualifiedClass_eq
      (present_of_mem_candidates member) (present_of_mem_candidates member') equal)

/-- Two namespaces with an import each. -/
def twoImports : List Char :=
  ("<?php namespace A;use X\\Base;class First extends Base{}" ++
    "namespace B;use Y\\Base;class Second extends Base{}").toList

/-- The same with another import in the first namespace. -/
def otherImport : List Char :=
  ("<?php namespace A;use X\\TestCase as Base;class First extends Base{}" ++
    "namespace B;use Y\\Base;class Second extends Base{}").toList

/-- A class that is declared again with another parent. -/
def declaredTwice : List Char :=
  "<?php class Foo extends TestCase{function testA(){}} class Foo extends Bar{}".toList

instance (document document' : Php.Document) (block block' : Block) :
    Decidable (Block.ReadsAs document document' block block') :=
  decidable_of_iff
    (block.inNamespace = block'.inNamespace ∧ List.Forall₂
      (fun placed placed' => placed.node.readsAs document.code document'.code placed'.node)
      block.statements block'.statements)
    ⟨fun ⟨inNamespace, statements⟩ => ⟨inNamespace, statements⟩,
      fun ⟨inNamespace, statements⟩ => ⟨inNamespace, statements⟩⟩

/-- Two files that differ in an import of another block agree on the parents of a class. -/
theorem otherImport_keeps_parents :
    ∃ document document', Php.Document.read twoImports = .ok document ∧
      Php.Document.read otherImport = .ok document' ∧ Unnested document ∧ Unnested document' ∧
      let hierarchy := (Survey.ofDocument document Context.start.restart).hierarchy document
      let hierarchy' := (Survey.ofDocument document' Context.start.restart).hierarchy document'
      hierarchy.lookup "A\\First" = some (some "X\\Base") ∧
        hierarchy'.lookup "A\\First" = some (some "X\\TestCase") ∧
        hierarchy.lookup "B\\Second" = hierarchy'.lookup "B\\Second" := by
  obtain ⟨document, document', parsed, parsed', unnested, unnested', ⟨changed, here, other⟩,
      ⟨changed', here', other'⟩, alike, alike', stored, stored'⟩ :=
    @Php.exists_documents_of_check twoImports otherImport
      (fun document document' => Unnested document ∧ Unnested document' ∧
        (∃ changed ∈ (blocks document)[1]?,
          "B\\Second" ∉ (changed.parents document).map Prod.fst) ∧
        (∃ changed' ∈ (blocks document')[1]?,
          "B\\Second" ∉ (changed'.parents document').map Prod.fst) ∧
        List.Forall₂ (Block.ReadsAs document document')
          ((blocks document).take 1) ((blocks document').take 1) ∧
        List.Forall₂ (Block.ReadsAs document document')
          ((blocks document).drop 2) ((blocks document').drop 2) ∧
        ((Survey.ofDocument document Context.start.restart).hierarchy document).lookup "A\\First" =
          some (some "X\\Base") ∧
        ((Survey.ofDocument document' Context.start.restart).hierarchy document').lookup
          "A\\First" = some (some "X\\TestCase"))
      _ (by decide +kernel)
  have split {blocks : List Block} {block : Block} (stands : blocks[1]? = some block) :
      blocks = blocks.take 1 ++ block :: blocks.drop 2 := by
    obtain ⟨bound, rfl⟩ := List.getElem?_eq_some_iff.mp stands
    rw [← List.drop_eq_getElem_cons bound, List.take_append_drop]
  obtain ⟨_, _, _, _, independent, _⟩ := hierarchy_of_blocks document .start unnested
  obtain ⟨_, _, _, _, keeps⟩ := independent document' .start unnested' _ changed _ _ changed' _
    (split here) (split here') alike alike'
  exact ⟨document, document', parsed, parsed', unnested, unnested', stored, stored',
    keeps "B\\Second" other other'⟩

/-- Of two classes with one name, only the parent of the last one is kept. -/
theorem declaredTwice_stores_last :
    ∃ document, Php.Document.read declaredTwice = .ok document ∧ Unnested document ∧
      ∃ block ∈ blocks document, ∃ declared ∈ block.classes document,
        ((Survey.ofDocument document Context.start.restart).hierarchy document).lookup
          declared.qualifiedName ≠ some (block.parent? document declared) :=
  @Php.exists_document_of_check declaredTwice
    (fun document => Unnested document ∧
      ∃ block ∈ blocks document, ∃ declared ∈ block.classes document,
        ((Survey.ofDocument document Context.start.restart).hierarchy document).lookup
          declared.qualifiedName ≠ some (block.parent? document declared)) _ (by decide +kernel)

end PhpTestIndex.PhpUnit
