import PhpTestIndex.Proofs.PhpUnit.Scopes

/-! # Imports and the classes that names mean

A use declaration imports classes, functions or constants, one by one or as a group of names that
have the start of their path in common.  A name means a class by the class imports of its block
alone (`PhpTestIndex.PhpUnit.Means`).

What is recorded of a declaration are the imports that stand in it one by one, whatever they bring
in, and none that stands in a group. So a name is resolved as it is meant wherever the imports under
its first part are recorded exactly if they bring in classes
(`PhpTestIndex.PhpUnit.imports_resolve`).
-/

namespace PhpTestIndex.PhpUnit

/-- What an import brings in. -/
inductive ImportKind
  | classes
  | functions
  | constants
deriving DecidableEq, Repr

/-- The kind that a keyword stands for, written in any case. -/
def ImportKind.ofWord? (word : List Char) : Option ImportKind :=
  if word.map Char.toLower = "function".toList then some .functions
  else if word.map Char.toLower = "const".toList then some .constants
  else none

/-- An import of a use declaration. -/
structure Imported where
  kind : ImportKind
  /-- It stands in braces, after the path that the names in them have in common. -/
  isGrouped : Bool
  localName : String
  fullName : String
deriving DecidableEq, Repr

namespace Imported

/-- It brings in a class. -/
def isClass (imported : Imported) : Bool :=
  imported.kind = .classes

/-- It is among those that are recorded. -/
def isRecorded (imported : Imported) : Bool :=
  !imported.isGrouped

def entry (imported : Imported) : String × String :=
  (imported.localName, imported.fullName)

end Imported

section Declarations

variable (document : Php.Document)

/-- The kind that a declaration or a clause names between its signs and keywords. -/
def statedKind? (node : Php.Node) : Option ImportKind :=
  (node.childrenOf .token).findSome? fun token => ImportKind.ofWord? (document.text token)

/-- The name that a clause imports, without separators before it. -/
def importedName? (clause : Php.Node) : Option (List Char) :=
  (clause.namedChildren.find? fun child =>
    child.kind = .name || child.kind = .qualifiedName).map fun name =>
      (document.text name).dropWhile fun c => c == '\\'

/-- The import of a clause in a declaration of a kind; a clause in a group follows a common path. -/
def importOf? (kind : Option ImportKind) (common : Option (List Char)) (clause : Php.Node) :
    Option Imported :=
  (importedName? document clause).map fun name =>
    let full := match common with
      | none => name
      | some path => path ++ '\\' :: name
    ⟨((statedKind? document clause).or kind).getD .classes, common.isSome,
      String.ofList (((clause.child? .localName).map document.text).getD (Php.shortName full)),
      String.ofList full⟩

/-- The path that the names of a group have in common. -/
def commonPath (declaration : Php.Node) : List Char :=
  (((declaration.childrenOf .namespaceName).head?.map document.text).getD []).dropWhile
    fun c => c == '\\'

/-- The imports of a use declaration. -/
def importsOf (declaration : Php.Node) : List Imported :=
  let kind := statedKind? document declaration
  let common := commonPath document declaration
  (declaration.childrenOf .useClause).filterMap (importOf? document kind none) ++
    (declaration.childrenOf .useGroup).flatMap fun group =>
      (group.childrenOf .useClause).filterMap (importOf? document kind (some common))

/-- The imports of the use declarations of a block, in source order. -/
def Block.importsOf (block : Block) : List Imported :=
  (block.statements.filter fun statement => statement.node.kind = .useDeclaration).flatMap
    fun statement => PhpUnit.importsOf document statement.node

end Declarations

section Recording

variable {document : Php.Document}

/-- An import is one of a group if it has a common path. -/
theorem isGrouped_of_importOf? {kind : Option ImportKind} {common : Option (List Char)}
    {clause : Php.Node} {imported : Imported}
    (imports : importOf? document kind common clause = some imported) :
    imported.isGrouped = common.isSome := by
  obtain ⟨name, _, rfl⟩ := Option.map_eq_some_iff.mp imports
  rfl

/-- A clause is recorded as its import stands, whatever kind it has. -/
theorem importOfClause_eq_map (kind : Option ImportKind) (clause : Php.Node) :
    importOfClause document clause =
      (importOf? document kind none clause).map Imported.entry := by
  simp only [importOfClause, importOf?, importedName?, Option.map_map]
  rfl

/-- What is recorded of a declaration are its own clauses, and none of a group in it. -/
theorem filter_isRecorded_importsOf (declaration : Php.Node) :
    (importsOf document declaration).filter Imported.isRecorded =
      (declaration.childrenOf .useClause).filterMap
        (importOf? document (statedKind? document declaration) none) := by
  have single : ∀ imported ∈ (declaration.childrenOf .useClause).filterMap
      (importOf? document (statedKind? document declaration) none),
      imported.isRecorded = true := by
    intro imported member
    obtain ⟨clause, _, imports⟩ := List.mem_filterMap.mp member
    rw [Imported.isRecorded, isGrouped_of_importOf? imports]
    rfl
  have grouped : ∀ imported ∈ (declaration.childrenOf .useGroup).flatMap fun group =>
      (group.childrenOf .useClause).filterMap (importOf? document
        (statedKind? document declaration) (some (commonPath document declaration))),
      ¬ imported.isRecorded = true := by
    intro imported member
    obtain ⟨group, _, among⟩ := List.mem_flatMap.mp member
    obtain ⟨clause, _, imports⟩ := List.mem_filterMap.mp among
    rw [Imported.isRecorded, isGrouped_of_importOf? imports]
    simp
  rw [importsOf, List.filter_append, List.filter_eq_self.mpr single,
    List.filter_eq_nil_iff.mpr grouped, List.append_nil]

/-- Imports are added in front of those that were there, the last clause first. -/
theorem add_eq (imports : Imports) (declaration : Php.Node) :
    imports.add document declaration =
      (((importsOf document declaration).filter Imported.isRecorded).map Imported.entry).reverse ++
        imports := by
  have entries : importOfClause document = fun clause =>
      (importOf? document (statedKind? document declaration) none clause).map Imported.entry :=
    funext (importOfClause_eq_map _)
  rw [Imports.add, filter_isRecorded_importsOf, List.map_filterMap, entries]

/-- The imports of a block are recorded with the latest first. -/
theorem Block.imports_eq (block : Block) :
    block.imports document =
      (((block.importsOf document).filter Imported.isRecorded).map Imported.entry).reverse := by
  have run (statements : List Php.Placed) (imports : Imports) :
      statements.foldl (fun imports statement => imports.add document statement.node) imports =
        (((statements.flatMap fun statement => PhpUnit.importsOf document statement.node).filter
          Imported.isRecorded).map Imported.entry).reverse ++ imports := by
    induction statements generalizing imports with
    | nil => rfl
    | cons statement rest ih =>
        rw [List.foldl_cons, ih, add_eq]
        simp
  exact (run _ []).trans (List.append_nil _)

end Recording

section Meaning

/-- The part of a name before the first separator. -/
def firstPart (name : String) : String :=
  String.ofList (name.toList.takeWhile fun c => c != '\\')

/-- What follows the first part of a name. -/
def afterFirstPart (name : String) : String :=
  String.ofList (name.toList.dropWhile fun c => c != '\\')

/-- The imports under a name. -/
def importsUnder (imports : List Imported) (localName : String) : List Imported :=
  imports.filter fun imported => imported.localName = localName

/-- What a name of a class means in a namespace with some imports. -/
inductive Means (imports : List Imported) (inNamespace : Option String) (name : String) :
    String → Prop
  | absolute {full : List Char} (whole : name.toList = '\\' :: full) :
      Means imports inNamespace name (String.ofList full)
  /-- The first part stands for what is imported under it; the latest import counts. -/
  | imported {found : Imported} (isRelative : name.toList.head? ≠ some '\\')
      (latest : (importsUnder imports (firstPart name)).getLast? = some found) :
      Means imports inNamespace name (found.fullName ++ afterFirstPart name)
  | inNamespace (isRelative : name.toList.head? ≠ some '\\')
      (unknown : importsUnder imports (firstPart name) = []) :
      Means imports inNamespace name (Identifier.qualifiedClass inNamespace (some name))

variable {imports imports' : List Imported} {inNamespace : Option String} {name full : String}

/-- The import that counts for a name is the last one under that name. -/
theorem lookup_entries (imports : List Imported) (key : String) :
    (imports.map Imported.entry).reverse.lookup key =
      (importsUnder imports key).getLast?.map Imported.fullName := by
  induction imports with
  | nil => rfl
  | cons imported rest ih =>
      have under : importsUnder (imported :: rest) key =
          if imported.localName = key then imported :: importsUnder rest key
          else importsUnder rest key := by
        simp [importsUnder, List.filter_cons]
      rw [List.map_cons, List.reverse_cons, List.lookup_append, ih, under]
      -- The reversed list has the first import at its end, so it counts only if no later one does.
      by_cases same : imported.localName = key
      · have found : [imported.entry].lookup key = some imported.fullName := by
          simp [Imported.entry, ← same]
        rw [if_pos same, found, List.getLast?_cons]
        cases (importsUnder rest key).getLast? <;> rfl
      · have nothing : [imported.entry].lookup key = none := by
          simp [Imported.entry, List.lookup_cons, beq_false_of_ne (Ne.symm same)]
        rw [if_neg same, nothing, Option.or_none]

/-- A relative name starts with an imported name, or else it is in the namespace of its block. -/
theorem resolveClass_of_isRelative (isRelative : name.toList.head? ≠ some '\\') :
    resolveClass name inNamespace (imports.map Imported.entry).reverse =
      ((importsUnder imports (firstPart name)).getLast?.map fun found =>
        found.fullName ++ afterFirstPart name).getD
          (Identifier.qualifiedClass inNamespace (some name)) := by
  have relative : Text.after? ['\\'] name.toList = none := by
    cases written : name.toList with
    | nil => rfl
    | cons c rest =>
        have other : c ≠ '\\' := by simpa [written] using isRelative
        simp [Text.after?, other.symm]
  have stored := lookup_entries imports (firstPart name)
  unfold firstPart at stored ⊢
  simp only [resolveClass, relative, stored]
  cases (importsUnder imports (String.ofList
    (name.toList.takeWhile fun c => c != '\\'))).getLast? with
  | none => rfl
  | some found => rfl

/-- A name is resolved to what it means by the imports that are recorded. -/
theorem resolveClass_eq_iff :
    resolveClass name inNamespace (imports.map Imported.entry).reverse = full ↔
      Means imports inNamespace name full := by
  by_cases isAbsolute : name.toList.head? = some '\\'
  · obtain ⟨rest, whole⟩ : ∃ rest, name.toList = '\\' :: rest := List.head?_eq_some_iff.mp isAbsolute
    have resolved : resolveClass name inNamespace (imports.map Imported.entry).reverse =
        String.ofList rest := by
      simp [resolveClass, whole, Text.after?]
    rw [resolved]
    constructor
    · rintro rfl
      exact .absolute whole
    · intro means
      cases means with
      | absolute whole' =>
          rw [whole, List.cons.injEq] at whole'
          rw [whole'.2]
      | imported isRelative _ => exact absurd isAbsolute isRelative
      | inNamespace isRelative _ => exact absurd isAbsolute isRelative
  · rw [resolveClass_of_isRelative isAbsolute]
    constructor
    · rintro rfl
      cases latest : (importsUnder imports (firstPart name)).getLast? with
      | some found => exact .imported isAbsolute latest
      | none => exact .inNamespace isAbsolute (List.getLast?_eq_none_iff.mp latest)
    · intro means
      cases means with
      | absolute whole => exact absurd (by rw [whole]; rfl) isAbsolute
      | imported _ latest =>
          rw [latest]
          rfl
      | inNamespace _ unknown =>
          rw [unknown]
          rfl

/-- Only the imports under the first part of a name count. -/
theorem Means.of_importsUnder_eq (means : Means imports inNamespace name full)
    (same : importsUnder imports (firstPart name) = importsUnder imports' (firstPart name)) :
    Means imports' inNamespace name full := by
  cases means with
  | absolute whole => exact .absolute whole
  | imported isRelative latest => exact .imported isRelative (same ▸ latest)
  | inNamespace isRelative unknown => exact .inNamespace isRelative (same ▸ unknown)

end Meaning

variable {document : Php.Document}

/-- The imports of a block under a name are recorded exactly if they bring in classes. -/
def Block.RecordsClasses (document : Php.Document) (block : Block) (localName : String) : Prop :=
  ∀ imported ∈ importsUnder (block.importsOf document) localName,
    imported.isRecorded = imported.isClass

/-- The class imports of a block. -/
def Block.classImports (document : Php.Document) (block : Block) : List Imported :=
  (block.importsOf document).filter Imported.isClass

/-- A name resolves to what it means under the imports that are recorded. -/
theorem Block.resolveClass_eq_iff_recorded (block : Block) (name full : String) :
    resolveClass name block.inNamespace (block.imports document) = full ↔
      Means ((block.importsOf document).filter Imported.isRecorded) block.inNamespace name full := by
  rw [Block.imports_eq]
  exact resolveClass_eq_iff

/-- In a block a name is resolved to what it means, if the imports under its first part are recorded
exactly if they bring in classes. -/
theorem Block.resolveClass_eq_iff_of_records {block : Block} {name full : String}
    (records : block.RecordsClasses document (firstPart name)) :
    resolveClass name block.inNamespace (block.imports document) = full ↔
      Means (block.classImports document) block.inNamespace name full := by
  have under : importsUnder ((block.importsOf document).filter Imported.isRecorded)
      (firstPart name) = importsUnder (block.classImports document) (firstPart name) := by
    unfold Block.classImports importsUnder
    rw [List.filter_filter, List.filter_filter]
    refine List.filter_congr fun imported member => ?_
    by_cases same : imported.localName = firstPart name
    · have kept := records imported (List.mem_filter.mpr ⟨member, decide_eq_true same⟩)
      simp [same, kept]
    · simp [same]
  rw [Block.resolveClass_eq_iff_recorded]
  exact ⟨fun means => means.of_importsUnder_eq under,
    fun means => means.of_importsUnder_eq under.symm⟩

/-- **Names mean classes where only classes are recorded.** A declaration adds the imports that
stand in it one by one, of whatever kind they are, and these are its class imports exactly if it
imports neither functions or constants one by one nor classes in a group. A name that is not in
conflict with such an import is resolved to what it means, and so are the parents of the classes of
a file. -/
theorem imports_resolve (document : Php.Document) :
    (∀ (declaration : Php.Node) (imports : Imports),
      imports.add document declaration =
        (((importsOf document declaration).filter Imported.isRecorded).map
          Imported.entry).reverse ++ imports) ∧
    (∀ declaration : Php.Node,
      (importsOf document declaration).filter Imported.isRecorded =
          (importsOf document declaration).filter Imported.isClass ↔
        ∀ imported ∈ importsOf document declaration, imported.isRecorded = imported.isClass) ∧
    (∀ (block : Block) (name full : String),
      (resolveClass name block.inNamespace (block.imports document) = full ↔
        Means ((block.importsOf document).filter Imported.isRecorded) block.inNamespace name
          full) ∧
      (block.RecordsClasses document (firstPart name) →
        (resolveClass name block.inNamespace (block.imports document) = full ↔
          Means (block.classImports document) block.inNamespace name full))) ∧
    (Unnested document → ∀ context : Context,
      let survey := Survey.ofDocument document context.restart
      ∀ block ∈ blocks document, ∀ declared ∈ block.classes document,
        ∀ name ∈ Survey.hierarchy.parentName? document declared.declaration.node,
          block.RecordsClasses document (firstPart name) →
          ∃ full, Means (block.classImports document) block.inNamespace name full ∧
            (declared.qualifiedName, some full) ∈ survey.hierarchy document) := by
  refine ⟨fun declaration imports => add_eq imports declaration, fun declaration => ?_,
    fun block name full => ⟨block.resolveClass_eq_iff_recorded name full,
      Block.resolveClass_eq_iff_of_records⟩, ?_⟩
  · constructor
    · intro same imported member
      have recorded : imported ∈ (importsOf document declaration).filter Imported.isRecorded ↔
          imported ∈ (importsOf document declaration).filter Imported.isClass := by rw [same]
      simp only [List.mem_filter, member, true_and] at recorded
      exact Bool.eq_iff_iff.mpr recorded
    · exact List.filter_congr
  · intro unnested context survey block member declared among name extended records
    refine ⟨_, (Block.resolveClass_eq_iff_of_records records).mp rfl, ?_⟩
    rw [← List.mem_reverse, reverse_hierarchy unnested context, List.mem_flatMap]
    refine ⟨block, member, List.mem_map.mpr ⟨declared, among, ?_⟩⟩
    rw [Block.parent?, Option.mem_def.mp extended]
    rfl

instance (document : Php.Document) (block : Block) (localName : String) :
    Decidable (block.RecordsClasses document localName) :=
  inferInstanceAs (Decidable (∀ imported ∈ importsUnder (block.importsOf document) localName,
    imported.isRecorded = imported.isClass))

/-- Class imports beside the import of a function. -/
def functionAside : List Char :=
  ("<?php namespace A;use X\\TestCase as Base,Y\\Helper;use function Z\\someTestCase as Other;" ++
    "class Foo extends Base\x7b\x7d class Bar extends Helper\\Deep\x7b\x7d").toList

/-- A class that is imported in a group and a function, both extended. -/
def groupAndFunction : List Char :=
  ("<?php use PHPUnit\\Framework\\\x7bTestCase as Base\x7d;use function X\\someTestCase as Other;" ++
    "class Foo extends Base\x7bfunction testA()\x7b\x7d\x7d" ++
    "class Bar extends Other\x7bfunction testB()\x7b\x7d\x7d").toList

/-- A block that imports functions under other names resolves its classes as the language does. -/
theorem functionAside_resolves :
    ∃ document, Php.Document.read functionAside = .ok document ∧ Unnested document ∧
      ∃ block ∈ blocks document,
        ¬ block.RecordsClasses document "Other" ∧
        Means (block.classImports document) block.inNamespace "Helper\\Deep" "Y\\Helper\\Deep" ∧
        ∃ full, Means (block.classImports document) block.inNamespace "Base" full ∧
          ("A\\Foo", some full) ∈
            (Survey.ofDocument document Context.start.restart).hierarchy document := by
  obtain ⟨document, parsed, unnested, block, member, recordsNot, recordsHelper, resolved,
      declared, among, named, recordsBase, extended⟩ :=
    @Php.exists_document_of_check functionAside
      (fun document => Unnested document ∧ ∃ block ∈ blocks document,
        ¬ block.RecordsClasses document "Other" ∧
        block.RecordsClasses document (firstPart "Helper\\Deep") ∧
        resolveClass "Helper\\Deep" block.inNamespace (block.imports document) =
          "Y\\Helper\\Deep" ∧
        ∃ declared ∈ block.classes document, declared.qualifiedName = "A\\Foo" ∧
          block.RecordsClasses document (firstPart "Base") ∧
          Survey.hierarchy.parentName? document declared.declaration.node = some "Base")
      _ (by decide +kernel)
  obtain ⟨_, _, resolves, parents⟩ := imports_resolve document
  refine ⟨document, parsed, unnested, block, member, recordsNot,
    ((resolves block "Helper\\Deep" _).2 recordsHelper).mp resolved, ?_⟩
  rw [← named]
  exact parents unnested .start block member declared among "Base" extended recordsBase

/-- The class in the group is missed and the function is taken for a class, so that the wrong one of
two classes is found to be a test. -/
theorem groupAndFunction_misresolves :
    ∃ document, Php.Document.read groupAndFunction = .ok document ∧ Unnested document ∧
      ∃ block ∈ blocks document,
        Means (block.classImports document) block.inNamespace "Base"
          "PHPUnit\\Framework\\TestCase" ∧
        Means (block.classImports document) block.inNamespace "Other" "Other" ∧
        block.parents document = [("Foo", some "Base"), ("Bar", some "X\\someTestCase")] ∧
        (forest? document "f.php").map (List.map Definition.id) = some ["Bar"] := by
  obtain ⟨document, parsed, unnested, block, member, imported, relative, parents, found⟩ :=
    @Php.exists_document_of_check groupAndFunction
      (fun document => Unnested document ∧ ∃ block ∈ blocks document,
        resolveClass "Base" block.inNamespace
            ((block.classImports document).map Imported.entry).reverse =
          "PHPUnit\\Framework\\TestCase" ∧
        resolveClass "Other" block.inNamespace
            ((block.classImports document).map Imported.entry).reverse = "Other" ∧
        block.parents document = [("Foo", some "Base"), ("Bar", some "X\\someTestCase")] ∧
        (forest? document "f.php").map (List.map Definition.id) = some ["Bar"])
      _ (by decide +kernel)
  exact ⟨document, parsed, unnested, block, member, resolveClass_eq_iff.mp imported,
    resolveClass_eq_iff.mp relative, parents, found⟩

end PhpTestIndex.PhpUnit
