import PhpTestIndex.PhpUnit.Dialect

/-! # The classes that a file declares

A class is declared at the top level of a file or directly in the body of a namespace, and it
belongs to the namespace in effect where it stands. `PhpTestIndex.PhpUnit.declaredClasses` lists
these classes in source order by recursion on the syntax tree alone; it knows no reader, no open
scopes and no blocks of imports. A survey of the file finds exactly these classes, in this order
and in these namespaces (`PhpTestIndex.PhpUnit.Survey.declared_ofDocument`), and leaves the scopes
that were open before it (`PhpTestIndex.PhpUnit.Survey.scopes_ofDocument`).
-/

namespace PhpTestIndex.PhpUnit

/-- A class declaration with the namespace in effect where it stands. -/
structure Declared where
  declaration : Php.Placed
  name : String
  inNamespace : Option String

/-- The name of a class with its namespace. -/
def Declared.qualifiedName (declared : Declared) : String :=
  Identifier.qualifiedClass declared.inNamespace (some declared.name)

/-- The namespace that a definition of a namespace names; the global one has no name. -/
def namespaceName? (document : Php.Document) (definition : Php.Node) : Option String :=
  ((definition.child? .name).map document.string).filter fun text => text ≠ ""

/-- The namespace in effect after a statement: one without a body stays in effect, one with a body
ends with it. -/
def namespaceAfter (document : Php.Document) (inNamespace : Option String)
    (statement : Php.Node) : Option String :=
  if statement.kind = .namespaceDefinition then
    if (statement.child? .body).isSome then none else namespaceName? document statement
  else inNamespace

/-- The class that a declaration declares. -/
def declaredClass (document : Php.Document) (inNamespace : Option String)
    (declaration : Php.Placed) : List Declared :=
  match declaration.node.child? .name with
  | none => []
  | some name => [⟨declaration, document.string name, inNamespace⟩]

mutual

/-- The classes that a statement declares. -/
def declaredIn (document : Php.Document) (inNamespace : Option String)
    (before : Option Php.Node) : Php.Node → List Declared
  | ⟨kind, role, start, stop, children⟩ =>
    let statement : Php.Node := ⟨kind, role, start, stop, children⟩
    match kind with
    | .classDeclaration => declaredClass document inNamespace ⟨before, statement⟩
    | .namespaceDefinition => declaredInBody document (namespaceName? document statement) children
    | _ => []

/-- The classes that some statements declare; `inNamespace` is in effect before the first one. -/
def declaredAmong (document : Php.Document) (inNamespace : Option String)
    (before : Option Php.Node) : List Php.Node → List Declared
  | [] => []
  | statement :: rest =>
    declaredIn document inNamespace before statement ++
      declaredAmong document (namespaceAfter document inNamespace statement)
        (Survey.nextBefore before statement) rest

/-- The classes declared in the first body among the children of a namespace. -/
def declaredInBody (document : Php.Document) (inNamespace : Option String) :
    List Php.Node → List Declared
  | [] => []
  | ⟨_, role, _, _, children⟩ :: rest =>
    if role = some .body then declaredAmong document inNamespace none children
    else declaredInBody document inNamespace rest

end

/-- The classes that a file declares at its top level and directly in the bodies of its namespaces,
in source order. -/
def declaredClasses (document : Php.Document) : List Declared :=
  declaredAmong document none none document.root.children

/-- A candidate, the block of its imports aside. -/
def Candidate.declared (candidate : Candidate) : Declared :=
  ⟨candidate.declaration, candidate.name, candidate.inNamespace⟩

/-- What holds of the nodes of a file and of the namespaces that they put in effect. -/
structure Holds (document : Php.Document) (sound : Php.Node → Prop)
    (inEffect : Option String → Prop) : Prop where
  child : ∀ {node child : Php.Node}, sound node → child ∈ node.children → sound child
  global : inEffect none
  named : ∀ {definition : Php.Node}, sound definition → definition.kind = .namespaceDefinition →
    inEffect (namespaceName? document definition)

/-- What holds of a class that is declared in a file. -/
structure Declared.Holds (document : Php.Document) (sound : Php.Node → Prop)
    (inEffect : Option String → Prop) (declared : Declared) : Prop where
  declaration : sound declared.declaration.node
  kind : declared.declaration.node.kind = .classDeclaration
  name : ∃ name ∈ declared.declaration.node.child? .name, declared.name = document.string name
  inNamespace : inEffect declared.inNamespace

section Sources

variable {document : Php.Document} {sound : Php.Node → Prop} {inEffect : Option String → Prop}

/-- A class that is declared in a sound node is sound, in the namespace that is in effect. -/
theorem holds_of_mem_declaredClass {inNamespace : Option String} {declaration : Php.Placed}
    {declared : Declared} (kind : declaration.node.kind = .classDeclaration)
    (stands : sound declaration.node) (current : inEffect inNamespace)
    (member : declared ∈ declaredClass document inNamespace declaration) :
    declared.Holds document sound inEffect := by
  unfold declaredClass at member
  split at member
  · cases member
  · rename_i name named
    rw [List.mem_singleton.mp member]
    exact ⟨stands, kind, ⟨name, named, rfl⟩, current⟩

variable (holds : Holds document sound inEffect)

include holds

/-- The namespace after a sound statement is in effect as well. -/
theorem Holds.namespaceAfter {inNamespace : Option String} {statement : Php.Node}
    (stands : sound statement) (current : inEffect inNamespace) :
    inEffect (namespaceAfter document inNamespace statement) := by
  unfold PhpUnit.namespaceAfter
  split
  · rename_i kind
    split
    · exact holds.global
    · exact holds.named stands kind
  · exact current

mutual

/-- All classes declared in a sound statement are sound. The three lemmas follow the three
recursions of the listing together. -/
theorem holds_of_mem_declaredIn {inNamespace : Option String} {before : Option Php.Node}
    {declared : Declared} (current : inEffect inNamespace) :
    ∀ {statement : Php.Node}, sound statement →
      declared ∈ declaredIn document inNamespace before statement →
      declared.Holds document sound inEffect
  | ⟨kind, role, start, stop, children⟩, stands, member => by
    unfold declaredIn at member
    split at member
    · exact holds_of_mem_declaredClass rfl stands current member
    · exact holds_of_mem_declaredInBody (holds.named stands rfl)
        (fun child present => holds.child stands present) member
    · cases member

/-- All classes declared among sound statements are sound. -/
theorem holds_of_mem_declaredAmong {inNamespace : Option String} {before : Option Php.Node}
    {declared : Declared} (current : inEffect inNamespace) :
    ∀ {statements : List Php.Node}, (∀ statement ∈ statements, sound statement) →
      declared ∈ declaredAmong document inNamespace before statements →
      declared.Holds document sound inEffect
  | [], _, member => by cases member
  | statement :: rest, stand, member => by
    obtain ⟨first, others⟩ := List.forall_mem_cons.mp stand
    rw [declaredAmong] at member
    rcases List.mem_append.mp member with here | later
    · exact holds_of_mem_declaredIn current first here
    · exact holds_of_mem_declaredAmong (holds.namespaceAfter first current) others later

/-- All classes declared in the body of a namespace with sound children are sound. -/
theorem holds_of_mem_declaredInBody {inNamespace : Option String} {declared : Declared}
    (current : inEffect inNamespace) :
    ∀ {children : List Php.Node}, (∀ child ∈ children, sound child) →
      declared ∈ declaredInBody document inNamespace children →
      declared.Holds document sound inEffect
  | [], _, member => by cases member
  | ⟨kind, role, start, stop, inner⟩ :: rest, stand, member => by
    obtain ⟨first, others⟩ := List.forall_mem_cons.mp stand
    rw [declaredInBody] at member
    split at member
    · exact holds_of_mem_declaredAmong current (fun child present => holds.child first present)
        member
    · exact holds_of_mem_declaredInBody current others member

end

/-- What holds of the nodes of a file and of its namespaces holds of the classes that it
declares. -/
theorem holds_of_mem_declaredClasses (root : sound document.root) {declared : Declared}
    (member : declared ∈ declaredClasses document) : declared.Holds document sound inEffect :=
  holds_of_mem_declaredAmong holds holds.global (fun _ present => holds.child root present) member

end Sources

/-- The namespace of a declared class is not empty. -/
theorem present_of_mem_declaredClasses {document : Php.Document} {declared : Declared}
    (member : declared ∈ declaredClasses document) :
    Identifier.present declared.inNamespace = declared.inNamespace := by
  have holds : Holds document (fun _ => True) fun name => Identifier.present name = name :=
    ⟨fun _ _ => trivial, rfl, fun _ _ => by
      simp [Identifier.present, namespaceName?, Option.filter_filter]⟩
  exact (holds_of_mem_declaredClasses holds trivial member).inNamespace

/-- A namespace without a body declares nothing inside it. -/
theorem declaredInBody_of_child?_eq_none (document : Php.Document) (inNamespace : Option String)
    {children : List Php.Node}
    (absent : (children.find? fun child => child.role = some .body) = none) :
    declaredInBody document inNamespace children = [] := by
  induction children with
  | nil => rfl
  | cons child rest ih =>
      cases child
      simp only [List.find?_cons] at absent
      split at absent
      · simp at absent
      · rename_i other
        rw [declaredInBody, if_neg (by simpa using other), ih absent]

namespace Survey

/-- What going through a part of a file does: it adds classes and keeps the scopes that are open. -/
structure Adds (survey after : Survey) (classes : List Declared) : Prop where
  candidates : after.candidates.map Candidate.declared =
    survey.candidates.map Candidate.declared ++ classes
  scopes : after.context.scopes = survey.context.scopes

/-- A survey that goes on after another one adds its classes behind those of the other. -/
theorem Adds.trans {first second third : Survey} {earlier later : List Declared}
    (before : Adds first second earlier) (after : Adds second third later) :
    Adds first third (earlier ++ later) where
  candidates := by rw [after.candidates, before.candidates, List.append_assoc]
  scopes := by rw [after.scopes, before.scopes]

/-- Adding imports adds no class and changes no scope. -/
theorem adds_addImports (document : Php.Document) (declaration : Php.Node) (survey : Survey) :
    Adds survey (survey.addImports document declaration) [] ∧
      (survey.addImports document declaration).context = survey.context := by
  unfold addImports
  split
  · exact ⟨⟨by simp, rfl⟩, rfl⟩
  · exact ⟨⟨by simp, rfl⟩, rfl⟩

/-- A declaration adds the class that it declares, in the current namespace. -/
theorem adds_addClass (document : Php.Document) (declaration : Php.Placed) (survey : Survey) :
    Adds survey (survey.addClass document declaration)
        (declaredClass document survey.context.currentNamespace declaration) ∧
      (survey.addClass document declaration).context = survey.context := by
  unfold addClass declaredClass
  cases declaration.node.child? .name with
  | none => exact ⟨⟨by simp, rfl⟩, rfl⟩
  | some name => exact ⟨⟨by simp [Candidate.declared], rfl⟩, rfl⟩

/-- A namespace with a body adds the classes in the body; its scope is left and no namespace stays
in effect. -/
theorem adds_exitNamespace {survey inside : Survey} {name : Option String}
    {classes : List Declared} (body : Adds (survey.openBlock.enterNamespace name) inside classes) :
    Adds survey inside.exitNamespace.openBlock classes ∧
      inside.exitNamespace.openBlock.context.currentNamespace = none := by
  have opened : inside.context.scopes = .namespaceBody :: survey.context.scopes := body.scopes
  have around : 0 < survey.context.scopes.length :=
    List.length_pos_iff.mpr survey.context.scopes_ne_nil
  have left : inside.context.exit.scopes = survey.context.scopes ∧
      inside.context.exit.currentNamespace = none := by
    simp [Context.exit, opened, around]
  exact ⟨⟨body.candidates, left.1⟩, left.2⟩

mutual

/-- A statement adds the classes that it declares, and the namespace after it is in effect. -/
theorem adds_statement (document : Php.Document) (before : Option Php.Node) :
    ∀ (node : Php.Node) (survey : Survey),
      Adds survey (statement document before node survey)
          (declaredIn document survey.context.currentNamespace before node) ∧
        (statement document before node survey).context.currentNamespace =
          namespaceAfter document survey.context.currentNamespace node
  | ⟨kind, role, start, stop, children⟩, survey => by
    cases kind with
    | namespaceDefinition =>
        let node : Php.Node := ⟨.namespaceDefinition, role, start, stop, children⟩
        let name := (node.child? .name).map document.string
        have inEffect : namespaceAfter document survey.context.currentNamespace node =
            if (node.child? .body).isSome then none else namespaceName? document node :=
          if_pos rfl
        rw [inEffect, declaredIn, statement]
        -- A namespace with a body ends with it; without a body it stays in effect.
        by_cases braced : (node.child? .body).isSome
        · rw [if_pos braced, if_pos braced]
          exact adds_exitNamespace (adds_namespaceBody document children
            (survey.openBlock.enterNamespace name))
        · rw [if_neg braced, if_neg braced, declaredInBody_of_child?_eq_none document _
            (Option.not_isSome_iff_eq_none.mp braced)]
          exact ⟨⟨(List.append_nil _).symm, rfl⟩, rfl⟩
    | useDeclaration =>
        obtain ⟨adds, context⟩ := adds_addImports document
          ⟨.useDeclaration, role, start, stop, children⟩ survey
        exact ⟨adds, congrArg Context.currentNamespace context⟩
    | classDeclaration =>
        obtain ⟨adds, context⟩ := adds_addClass document
          ⟨before, ⟨.classDeclaration, role, start, stop, children⟩⟩ survey
        exact ⟨adds, congrArg Context.currentNamespace context⟩
    | _ => exact ⟨⟨by simp [statement, declaredIn], rfl⟩, rfl⟩

/-- Some statements add the classes that they declare. -/
theorem adds_statements (document : Php.Document) (before : Option Php.Node) :
    ∀ (nodes : List Php.Node) (survey : Survey),
      Adds survey (statements document before nodes survey)
        (declaredAmong document survey.context.currentNamespace before nodes)
  | [], survey => ⟨by simp [statements, declaredAmong], rfl⟩
  | node :: rest, survey => by
    obtain ⟨first, inEffect⟩ := adds_statement document before node survey
    have later := adds_statements document (nextBefore before node) rest
      (statement document before node survey)
    rw [inEffect] at later
    exact first.trans later

/-- The body of a namespace adds the classes that it declares. -/
theorem adds_namespaceBody (document : Php.Document) :
    ∀ (nodes : List Php.Node) (survey : Survey),
      Adds survey (namespaceBody document nodes survey)
        (declaredInBody document survey.context.currentNamespace nodes)
  | [], survey => ⟨by simp [namespaceBody, declaredInBody], rfl⟩
  | ⟨kind, role, start, stop, children⟩ :: rest, survey => by
    rw [namespaceBody, declaredInBody]
    split
    · exact adds_statements document none children survey
    · exact adds_namespaceBody document rest survey

end

/-- **A survey finds the declared classes.** The candidates of a file are the classes that it
declares, in source order and each in the namespace in effect where it stands. -/
theorem declared_ofDocument (document : Php.Document) (context : Context) :
    (ofDocument document context.restart).candidates.map Candidate.declared =
      declaredClasses document :=
  (adds_statements document none document.root.children (start context.restart)).candidates

/-- A survey closes the scopes that it opens. -/
theorem scopes_ofDocument (document : Php.Document) (context : Context) :
    (ofDocument document context).context.scopes = context.scopes :=
  (adds_statements document none document.root.children (start context)).scopes

end Survey

end PhpTestIndex.PhpUnit
