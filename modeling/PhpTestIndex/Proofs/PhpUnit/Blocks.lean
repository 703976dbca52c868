import PhpTestIndex.Proofs.PhpUnit.Identity

/-! # The blocks of a file

The namespaces of a file cut its statements into blocks: the body of a namespace in braces is a
block, so is what follows a namespace without a body, and so are the stretches before, between and
after them, which belong to no namespace. In a file whose namespaces do not stand in each other, a
survey knows of each class it finds the block in which it stands, and of each block the imports
(`PhpTestIndex.PhpUnit.Survey.covers_ofDocument`).
-/

namespace PhpTestIndex.PhpUnit

/-- Some statements of a file with the namespace to which they belong. -/
structure Block where
  inNamespace : Option String
  statements : List Php.Placed

namespace Block

def add (block : Block) (statement : Php.Placed) : Block :=
  { block with statements := block.statements ++ [statement] }

/-- The classes declared in a block. -/
def classes (document : Php.Document) (block : Block) : List Declared :=
  (block.statements.filter fun statement => statement.node.kind = .classDeclaration).flatMap
    (declaredClass document block.inNamespace)

/-- The imports that the use declarations of a block record. -/
def imports (document : Php.Document) (block : Block) : Imports :=
  (block.statements.filter fun statement => statement.node.kind = .useDeclaration).foldl
    (fun imports statement => imports.add document statement.node) []

/-- The parent of a class of a block, resolved in the block. -/
def parent? (document : Php.Document) (block : Block) (declared : Declared) : Option String :=
  (Survey.hierarchy.parentName? document declared.declaration.node).map fun parent =>
    resolveClass parent block.inNamespace (block.imports document)

/-- The classes of a block and their parents. -/
def parents (document : Php.Document) (block : Block) : List (String × Option String) :=
  (block.classes document).map fun declared =>
    (declared.qualifiedName, block.parent? document declared)

end Block

/-- The blocks of some statements; `current` is the block in which the first one stands. -/
def blocksAmong (document : Php.Document) (current : Block) : List Php.Placed → List Block
  | [] => [current]
  | statement :: rest =>
    if statement.node.kind = .namespaceDefinition then
      let name := namespaceName? document statement.node
      match statement.node.child? .body with
      | some body => current :: ⟨name, body.placedChildren⟩ :: blocksAmong document ⟨none, []⟩ rest
      | none => current :: blocksAmong document ⟨name, []⟩ rest
    else blocksAmong document (current.add statement) rest

/-- The blocks of a file, in source order. -/
def blocks (document : Php.Document) : List Block :=
  blocksAmong document ⟨none, []⟩ document.root.placedChildren

/-- No namespace stands in the body of another one. -/
def Unnested (document : Php.Document) : Prop :=
  ∀ definition ∈ document.root.children, definition.kind = .namespaceDefinition →
    ∀ body ∈ definition.child? .body, ∀ statement ∈ body.children,
      statement.kind ≠ .namespaceDefinition

instance (document : Php.Document) : Decidable (Unnested document) :=
  inferInstanceAs (Decidable (∀ definition ∈ document.root.children,
    definition.kind = .namespaceDefinition → ∀ body ∈ definition.child? .body,
      ∀ statement ∈ body.children, statement.kind ≠ .namespaceDefinition))

namespace Survey

section Equations

variable (document : Php.Document) (before : Option Php.Node)

/-- Going through a list of siblings is going through the placed ones among them. -/
theorem statements_eq_foldl (nodes : List Php.Node) (survey : Survey) :
    statements document before nodes survey =
      (Php.Node.place before (nodes.filter fun node => node.kind.isNamed)).foldl
        (fun survey placed => statement document placed.before placed.node survey) survey := by
  induction nodes generalizing before survey with
  | nil => simp [statements, Php.Node.place]
  | cons node rest ih =>
      rw [statements, ih, nextBefore]
      by_cases named : node.kind.isNamed
      · simp [named, Php.Node.place]
      · have passed : statement document before node survey = survey := by
          obtain ⟨kind, role, start, stop, children⟩ := node
          cases kind <;> first | rfl | exact absurd rfl named
        simp [named, passed]

/-- Going through the children of a node is going through its placed children. -/
theorem statements_children (node : Php.Node) (survey : Survey) :
    statements document none node.children survey =
      node.placedChildren.foldl
        (fun survey placed => statement document placed.before placed.node survey) survey :=
  statements_eq_foldl document none node.children survey

/-- A namespace leads to its body, if it has one. -/
theorem namespaceBody_eq (children : List Php.Node) (survey : Survey) :
    namespaceBody document children survey =
      match children.find? fun child => child.role = some .body with
      | none => survey
      | some body => statements document none body.children survey := by
  induction children with
  | nil => rfl
  | cons child rest ih =>
      obtain ⟨kind, role, start, stop, children⟩ := child
      rw [namespaceBody, List.find?_cons]
      by_cases isBody : role = some .body
      · simp [isBody]
      · simp [isBody, ih]

/-- A namespace with a body is gone through and left; one without a body begins a block. -/
theorem statement_namespaceDefinition {node : Php.Node} (kind : node.kind = .namespaceDefinition)
    (survey : Survey) :
    statement document before node survey =
      match node.child? .body with
      | some body =>
        (statements document none body.children
          (survey.openBlock.enterNamespace
            ((node.child? .name).map document.string))).exitNamespace.openBlock
      | none => survey.openBlock.setNamespace ((node.child? .name).map document.string) := by
  obtain ⟨_, role, start, stop, children⟩ := node
  obtain rfl : _ = Php.Kind.namespaceDefinition := kind
  rw [statement, namespaceBody_eq]
  cases found : (Php.Node.mk .namespaceDefinition role start stop children).child? .body with
  | none => simp
  | some body =>
      unfold Php.Node.child? at found
      simp only at found
      simp [found]

/-- An import is recorded and opens nothing. -/
theorem statement_useDeclaration {node : Php.Node} (kind : node.kind = .useDeclaration)
    (survey : Survey) :
    statement document before node survey = survey.addImports document node := by
  obtain ⟨_, role, start, stop, children⟩ := node
  obtain rfl : _ = Php.Kind.useDeclaration := kind
  rfl

/-- A class is recorded and not entered. -/
theorem statement_classDeclaration {node : Php.Node} (kind : node.kind = .classDeclaration)
    (survey : Survey) :
    statement document before node survey = survey.addClass document ⟨before, node⟩ := by
  obtain ⟨_, role, start, stop, children⟩ := node
  obtain rfl : _ = Php.Kind.classDeclaration := kind
  rfl

/-- A statement that is no namespace, no import and no class changes nothing. -/
theorem statement_of_other {node : Php.Node} (noNamespace : node.kind ≠ .namespaceDefinition)
    (noUse : node.kind ≠ .useDeclaration) (noClass : node.kind ≠ .classDeclaration)
    (survey : Survey) : statement document before node survey = survey := by
  obtain ⟨kind, role, start, stop, children⟩ := node
  cases kind <;> first | rfl | contradiction

end Equations

/-- The classes of some blocks, each with the position of its block. -/
def indexedClasses (document : Php.Document) (blocks : List Block) : List (Declared × Nat) :=
  blocks.zipIdx.flatMap fun entry =>
    (entry.1.classes document).map fun declared => (declared, entry.2)

theorem indexedClasses_append_singleton (document : Php.Document) (blocks : List Block)
    (block : Block) :
    indexedClasses document (blocks ++ [block]) =
      indexedClasses document blocks ++
        (block.classes document).map fun declared => (declared, blocks.length) := by
  simp [indexedClasses, List.zipIdx_append, List.flatMap_append]

/-- A survey has gone through some blocks, the last of which is the current one: it stands in the
namespace of this block, keeps the imports of every block, and has found the classes of all blocks,
each with the position of its block. -/
structure Covers (document : Php.Document) (closed : List Block) (current : Block)
    (survey : Survey) : Prop where
  inNamespace : survey.context.currentNamespace = current.inNamespace
  imports : survey.blocks = (closed ++ [current]).map (Block.imports document)
  candidates : (survey.candidates.map fun candidate => (candidate.declared, candidate.block)) =
    indexedClasses document (closed ++ [current])

section Covers

variable {document : Php.Document} {closed : List Block} {current : Block} {survey : Survey}

/-- A block that is begun becomes the current one. -/
theorem Covers.opened (covers : Covers document closed current survey) (after : Survey)
    (blocks : after.blocks = survey.blocks ++ [[]])
    (candidates : after.candidates = survey.candidates) :
    Covers document (closed ++ [current]) ⟨after.context.currentNamespace, []⟩ after where
  inNamespace := rfl
  imports := by
    rw [blocks, covers.imports]
    simp [Block.imports]
  candidates := by
    rw [candidates, covers.candidates, indexedClasses_append_singleton _ (closed ++ [current])]
    exact (List.append_nil _).symm

theorem imports_add (block : Block) {placed : Php.Placed}
    (kind : placed.node.kind = .useDeclaration) :
    (block.add placed).imports document = (block.imports document).add document placed.node := by
  simp [Block.imports, Block.add, kind]

theorem imports_add_of_ne (block : Block) {placed : Php.Placed}
    (kind : placed.node.kind ≠ .useDeclaration) :
    (block.add placed).imports document = block.imports document := by
  simp [Block.imports, Block.add, kind]

theorem classes_add (block : Block) {placed : Php.Placed}
    (kind : placed.node.kind = .classDeclaration) :
    (block.add placed).classes document =
      block.classes document ++ declaredClass document block.inNamespace placed := by
  simp [Block.classes, Block.add, kind]

theorem classes_add_of_ne (block : Block) {placed : Php.Placed}
    (kind : placed.node.kind ≠ .classDeclaration) :
    (block.add placed).classes document = block.classes document := by
  simp [Block.classes, Block.add, kind]

/-- Recording an import keeps the survey and the blocks in step. -/
theorem covers_addImports {placed : Php.Placed} (kind : placed.node.kind = .useDeclaration)
    (covers : Covers document closed current survey) :
    Covers document closed (current.add placed) (survey.addImports document placed.node) := by
  have noClass : placed.node.kind ≠ .classDeclaration := by simp [kind]
  have imports := covers.imports
  rw [List.map_append, List.map_singleton] at imports
  have added : survey.addImports document placed.node =
      { survey with blocks := closed.map (Block.imports document) ++
        [(current.imports document).add document placed.node] } := by
    simp [addImports, imports]
  rw [added]
  refine ⟨covers.inNamespace, ?_, ?_⟩
  · rw [List.map_append, List.map_singleton, imports_add current kind]
  · have found := covers.candidates
    rw [indexedClasses_append_singleton] at found ⊢
    rw [classes_add_of_ne current noClass]
    exact found

/-- Recording a class keeps them in step, too: it is filed under the number of the current block. -/
theorem covers_addClass {placed : Php.Placed} (kind : placed.node.kind = .classDeclaration)
    (covers : Covers document closed current survey) :
    Covers document closed (current.add placed) (survey.addClass document placed) := by
  have noUse : placed.node.kind ≠ .useDeclaration := by simp [kind]
  have position : survey.blocks.length - 1 = closed.length := by simp [covers.imports]
  have found := covers.candidates
  rw [indexedClasses_append_singleton] at found
  have imports : survey.blocks =
      (closed ++ [current.add placed]).map (Block.imports document) := by
    rw [covers.imports, List.map_append, List.map_append, List.map_singleton, List.map_singleton,
      imports_add_of_ne current noUse]
  unfold addClass
  cases named : placed.node.child? .name with
  | none =>
      refine ⟨covers.inNamespace, imports, ?_⟩
      rw [indexedClasses_append_singleton, classes_add current kind, declaredClass, named,
        List.append_nil, found]
  | some name =>
      refine ⟨covers.inNamespace, imports, ?_⟩
      simp only [List.map_append, List.map_singleton]
      rw [indexedClasses_append_singleton, classes_add current kind, declaredClass, named,
        List.map_append, found, List.append_assoc]
      simp [Candidate.declared, covers.inNamespace, position]

/-- A statement that is no namespace is added to the current block. -/
theorem covers_statement {placed : Php.Placed} (kind : placed.node.kind ≠ .namespaceDefinition)
    (covers : Covers document closed current survey) :
    Covers document closed (current.add placed)
      (statement document placed.before placed.node survey) := by
  by_cases isUse : placed.node.kind = .useDeclaration
  · rw [statement_useDeclaration document placed.before isUse]
    exact covers_addImports isUse covers
  by_cases isClass : placed.node.kind = .classDeclaration
  · rw [statement_classDeclaration document placed.before isClass]
    exact covers_addClass isClass covers
  rw [statement_of_other document placed.before kind isUse isClass]
  refine ⟨covers.inNamespace, ?_, ?_⟩
  · rw [covers.imports, List.map_append, List.map_append, List.map_singleton, List.map_singleton,
      imports_add_of_ne current isUse]
  · rw [covers.candidates, indexedClasses_append_singleton, indexedClasses_append_singleton,
      classes_add_of_ne current isClass]

/-- Statements without namespaces are added to the current block. -/
theorem covers_foldl {placed : List Php.Placed}
    (flat : ∀ statement ∈ placed, statement.node.kind ≠ .namespaceDefinition)
    (covers : Covers document closed current survey) :
    Covers document closed ⟨current.inNamespace, current.statements ++ placed⟩
      (placed.foldl (fun survey placed => statement document placed.before placed.node survey)
        survey) := by
  induction placed generalizing current survey with
  | nil => simpa using covers
  | cons first rest ih =>
      obtain ⟨kind, others⟩ := List.forall_mem_cons.mp flat
      have added := ih others (covers_statement kind covers)
      simpa [Block.add] using added

/-- A namespace with a body begins a block, goes through it, and begins a block without a
namespace. -/
theorem covers_namespaceBody {name : Option String} {body : Php.Node}
    (flat : ∀ statement ∈ body.children, statement.kind ≠ .namespaceDefinition)
    (covers : Covers document closed current survey) :
    Covers document
      (closed ++ [current] ++ [⟨name.filter fun text => text ≠ "", body.placedChildren⟩])
      ⟨none, []⟩
      (statements document none body.children
        (survey.openBlock.enterNamespace name)).exitNamespace.openBlock := by
  have entered := covers.opened (survey.openBlock.enterNamespace name) rfl rfl
  have placed : ∀ statement ∈ body.placedChildren, statement.node.kind ≠ .namespaceDefinition := by
    intro statement member
    have child := (List.mem_filter.mp (mem_placed member)).1
    exact flat statement.node child
  have inside := covers_foldl placed entered
  rw [← statements_children] at inside
  have left := (adds_exitNamespace (adds_statements document none body.children
    (survey.openBlock.enterNamespace name))).2
  have opened := inside.opened (statements document none body.children
    (survey.openBlock.enterNamespace name)).exitNamespace.openBlock rfl rfl
  rw [left] at opened
  exact opened

/-- Going through the statements of a file covers their blocks. -/
theorem covers_blocksAmong {statements : List Php.Placed}
    (unnested : ∀ definition ∈ statements, definition.node.kind = .namespaceDefinition →
      ∀ body ∈ definition.node.child? .body, ∀ statement ∈ body.children,
        statement.kind ≠ .namespaceDefinition)
    (covers : Covers document closed current survey) :
    ∃ closed' current', closed' ++ [current'] = closed ++ blocksAmong document current statements ∧
      Covers document closed' current'
        (statements.foldl (fun survey placed => statement document placed.before placed.node survey)
          survey) := by
  induction statements generalizing closed current survey with
  | nil => exact ⟨closed, current, rfl, covers⟩
  | cons first rest ih =>
      obtain ⟨flat, others⟩ := List.forall_mem_cons.mp unnested
      rw [List.foldl_cons, blocksAmong]
      by_cases isNamespace : first.node.kind = .namespaceDefinition
      · rw [if_pos isNamespace, statement_namespaceDefinition document first.before isNamespace]
        cases found : first.node.child? .body with
        | some body =>
            obtain ⟨closed', current', split, after⟩ :=
              ih others (covers_namespaceBody (flat isNamespace body found) covers)
            exact ⟨closed', current', by simpa [namespaceName?] using split, after⟩
        | none =>
            let after := survey.openBlock.setNamespace
              ((first.node.child? .name).map document.string)
            have opened : Covers document (closed ++ [current])
                ⟨namespaceName? document first.node, []⟩ after := covers.opened after rfl rfl
            obtain ⟨closed', current', split, after⟩ := ih others opened
            exact ⟨closed', current', by simpa using split, after⟩
      · rw [if_neg isNamespace]
        exact ih others (covers_statement isNamespace covers)

/-- A survey of a file covers its blocks. -/
theorem covers_ofDocument (unnested : Unnested document) (context : Context) :
    ∃ closed current, closed ++ [current] = PhpUnit.blocks document ∧
      Covers document closed current (ofDocument document context.restart) := by
  have started : Covers document [] ⟨none, []⟩ (start context.restart) := ⟨rfl, rfl, rfl⟩
  rw [ofDocument, statements_children]
  refine covers_blocksAmong ?_ started
  intro definition member
  exact unnested definition.node (List.mem_filter.mp (mem_placed member)).1

/-- The classes of a block are in the namespace of the block. -/
theorem inNamespace_of_mem_classes {block : Block} {declared : Declared}
    (member : declared ∈ block.classes document) : declared.inNamespace = block.inNamespace := by
  obtain ⟨statement, _, declares⟩ := List.mem_flatMap.mp member
  unfold declaredClass at declares
  split at declares
  · cases declares
  · rw [List.mem_singleton.mp declares]

/-- The entries of the hierarchy of a file are the classes of its blocks. -/
theorem Covers.hierarchy (covers : Covers document closed current survey) :
    (survey.hierarchy document).reverse =
      (closed ++ [current]).flatMap (Block.parents document) := by
  let entry (found : Declared × Nat) : String × Option String :=
    (found.1.qualifiedName,
      (hierarchy.parentName? document found.1.declaration.node).map fun parent =>
        resolveClass parent found.1.inNamespace (survey.blocks[found.2]?.getD []))
  calc (survey.hierarchy document).reverse
      = (survey.candidates.map fun candidate =>
          (candidate.declared, candidate.block)).map entry := by
        rw [Survey.hierarchy, List.reverse_reverse, List.map_map]
        rfl
    _ = (closed ++ [current]).zipIdx.flatMap fun indexed => indexed.1.parents document := by
        rw [covers.candidates, indexedClasses, List.map_flatMap]
        apply List.flatMap_congr
        rintro ⟨block, index⟩ member
        have stored : survey.blocks[index]? = some (block.imports document) := by
          rw [covers.imports, List.getElem?_map, List.mem_zipIdx_iff_getElem?.mp member]
          rfl
        rw [Block.parents, List.map_map]
        apply List.map_congr_left
        intro declared among
        simp [entry, Block.parent?, stored, inNamespace_of_mem_classes among]
    _ = (closed ++ [current]).flatMap (Block.parents document) := by
        rw [← List.flatMap_map, List.zipIdx_map_fst]

/-- The candidates of a file are the classes of its blocks. -/
theorem Covers.declared (covers : Covers document closed current survey) :
    survey.candidates.map Candidate.declared =
      (closed ++ [current]).flatMap (Block.classes document) := by
  calc survey.candidates.map Candidate.declared
      = (survey.candidates.map fun candidate => (candidate.declared, candidate.block)).map
          Prod.fst := by
        rw [List.map_map]
        rfl
    _ = (closed ++ [current]).zipIdx.flatMap fun indexed => indexed.1.classes document := by
        rw [covers.candidates, indexedClasses, List.map_flatMap]
        apply List.flatMap_congr
        intro indexed _
        rw [List.map_map]
        exact List.map_id _
    _ = (closed ++ [current]).flatMap (Block.classes document) := by
        rw [← List.flatMap_map, List.zipIdx_map_fst]

end Covers

end Survey

end PhpTestIndex.PhpUnit
