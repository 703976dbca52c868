import PhpTestIndex.Proofs.PhpUnit.Selection
import PhpTestIndex.Proofs.Test.Identity

/-! # Identifiers of tests in classes

A node below the namespaces of a forest stands at a `Place` of a suite, and its identifier is the
name of the suite and the text of the place (`PhpTestIndex.PhpUnit.StandsAt`). In a file that
declares its classes and methods once, no place comes twice (`PhpTestIndex.PhpUnit.nodup_places`),
and the identifiers of two places are different because names are words. So two nodes of a forest
share an identifier only if one of them is the node of a namespace
(`PhpTestIndex.PhpUnit.pairwise_sharesId`).
-/

namespace PhpTestIndex.PhpUnit

/-- The name of a method. -/
def methodName (document : Php.Document) (method : Php.Placed) : String :=
  ((method.node.child? .name).map document.string).getD ""

/-- The names of the methods that stand directly in a class. -/
def Declared.methodNames (document : Php.Document) (declared : Declared) : List String :=
  match declared.declaration.node.child? .body with
  | none => []
  | some body =>
    (body.placedChildren.filter fun member => member.node.kind = .methodDeclaration).map
      (methodName document)

/-- A file declares no class twice, and no class declares a method twice. -/
structure DeclaresOnce (document : Php.Document) : Prop where
  classes : ((declaredClasses document).map fun declared =>
    (declared.inNamespace, declared.name)).Nodup
  methods : ∀ declared ∈ declaredClasses document, (declared.methodNames document).Nodup

instance (document : Php.Document) : Decidable (DeclaresOnce document) :=
  decidable_of_iff
    (((declaredClasses document).map fun declared => (declared.inNamespace, declared.name)).Nodup ∧
      ∀ declared ∈ declaredClasses document, (declared.methodNames document).Nodup)
    ⟨fun ⟨classes, methods⟩ => ⟨classes, methods⟩, fun ⟨classes, methods⟩ => ⟨classes, methods⟩⟩

/-- The suites of a file are named by words and paths. -/
structure Words (document : Php.Document) : Prop where
  className : ∀ suite ∈ suites document, Php.IsWord suite.name.toList
  inNamespace : ∀ suite ∈ suites document, ∀ name ∈ suite.inNamespace, Php.IsPath name.toList
  methods : ∀ suite ∈ suites document, ∀ method ∈ suite.testMethods document,
    Php.IsWord (methodName document method).toList

/-- Where a node stands in the tree of a suite. -/
inductive Place
  | suite
  | test (method : String)
  | dataSet (method : String) (index : Nat)

namespace Place

/-- What an identifier says of a place after the name of the suite. -/
def text : Place → String
  | suite => ""
  | test method => "::" ++ method
  | dataSet method index => "::" ++ method ++ (" " ++ Identifier.dataSetLabel index)

/-- The method that a place belongs to. -/
def method? : Place → Option String
  | suite => none
  | test method => some method
  | dataSet method _ => some method

/-- The method that a place belongs to is named by a word. -/
def Named (place : Place) : Prop :=
  ∀ method ∈ place.method?, Php.IsWord method.toList

theorem Named.isName {place : Place} (named : place.Named) :
    ∀ method ∈ place.method?, Identifier.IsName method.toList :=
  fun method member => Identifier.isName_of_isWord (named method member)

/-- What an identifier says of a data set. -/
def label (index : Nat) : List Char :=
  " with data set ".toList ++ '#' :: Nat.toDigits 10 index

/-- The label of a data set follows its test after a blank. -/
theorem toList_label (index : Nat) :
    (" " ++ Identifier.dataSetLabel index).toList = label index := by
  have digits : (toString index).toList = Nat.toDigits 10 index := by simp
  have start : " ".toList ++ "with data set #".toList = " with data set ".toList ++ ['#'] := by
    decide
  rw [Identifier.dataSetLabel, String.toList_append, String.toList_append, digits,
    ← List.append_assoc, start, List.append_assoc]
  rfl

theorem colons : "::".toList = [':', ':'] := by decide

theorem toList_text_suite : suite.text.toList = [] := rfl

/-- A test follows its class after two colons. -/
theorem toList_text_test (method : String) :
    (test method).text.toList = ':' :: ':' :: method.toList := by
  rw [text, String.toList_append, colons]
  rfl

/-- A data set follows its test. -/
theorem toList_text_dataSet (method : String) (index : Nat) :
    (dataSet method index).text.toList = ':' :: ':' :: (method.toList ++ label index) := by
  rw [text, String.toList_append, String.toList_append, toList_label, colons]
  rfl

/-- The labels of data sets tell their numbers. -/
theorem label_injective {first second : Nat} (equal : label first = label second) :
    first = second := by
  have digits := congrArg (Nat.ofDigitChars 10 · 0)
    (List.cons_inj_right _ |>.mp (List.append_cancel_left equal))
  simpa using digits

/-- Digits may stand in names. -/
theorem isNameCharacter_of_mem_toDigits {index : Nat} {c : Char}
    (member : c ∈ Nat.toDigits 10 index) : Php.Lexeme.isNameCharacter c = true := by
  have digit : c.isDigit = true := Nat.isDigit_of_mem_toDigits (by decide) (by decide) member
  simp [Php.Lexeme.isNameCharacter, digit]

/-- The text of a place has no separator of namespaces. -/
theorem no_separator_text {place : Place}
    (named : ∀ method ∈ place.method?, Identifier.IsName method.toList) :
    ∀ c ∈ place.text.toList, c ≠ '\\' := by
  have digits (index : Nat) : ∀ c ∈ Nat.toDigits 10 index, c ≠ '\\' := by
    rintro c member rfl
    exact absurd (isNameCharacter_of_mem_toDigits member) (by decide)
  cases place with
  | suite => simp [toList_text_suite]
  | test method => simpa [toList_text_test] using (named method rfl).no_separator
  | dataSet method index =>
      have words : (" with data set ".toList.all fun c => c != '\\') = true := by decide
      have label : ∀ c ∈ label index, c ≠ '\\' := by
        refine List.forall_mem_append.mpr ⟨fun c among => ?_, ?_⟩
        · exact bne_iff_ne.mp (List.all_eq_true.mp words c among)
        · exact List.forall_mem_cons.mpr ⟨by decide, digits index⟩
      rw [toList_text_dataSet]
      simpa [or_imp, forall_and] using ⟨(named method rfl).no_separator, label⟩

/-- The text of a place does not go on as a name. -/
theorem head?_text (place : Place) :
    ∀ c ∈ place.text.toList.head?, Identifier.isNamePart c = false := by
  have colon : Identifier.isNamePart ':' = false := by decide
  cases place with
  | suite => simp [toList_text_suite]
  | test method => simpa [toList_text_test] using colon
  | dataSet method index => simpa [toList_text_dataSet] using colon

/-- The label of a data set begins with a blank, which no name has. -/
theorem head?_label (index : Nat) :
    ∀ c ∈ (label index).head?, Identifier.isNamePart c = false := by
  have blank : (label index).head? = some ' ' := rfl
  rw [blank]
  intro c member
  obtain rfl := Option.mem_some_iff.mp member
  decide

/-- A place can be told from its text. -/
theorem text_injective {first second : Place}
    (named : ∀ method ∈ first.method?, Identifier.IsName method.toList)
    (named' : ∀ method ∈ second.method?, Identifier.IsName method.toList)
    (equal : first.text.toList = second.text.toList) : first = second := by
  have cut {method method' : String} (rest rest' : List Char)
      (name : Identifier.IsName method.toList) (name' : Identifier.IsName method'.toList)
      (ends : ∀ c ∈ rest.head?, Identifier.isNamePart c = false)
      (ends' : ∀ c ∈ rest'.head?, Identifier.isNamePart c = false)
      (equal : ':' :: ':' :: (method.toList ++ rest) = ':' :: ':' :: (method'.toList ++ rest')) :
      method = method' ∧ rest = rest' := by
    obtain ⟨methods, rests⟩ := append_inj_of_head name.parts name'.parts ends ends'
      (List.cons_inj_right _ |>.mp (List.cons_inj_right _ |>.mp equal))
    exact ⟨String.toList_inj.mp methods, rests⟩
  have nothing : ∀ c ∈ ([] : List Char).head?, Identifier.isNamePart c = false := by simp
  have labelled (index : Nat) : label index ≠ [] := List.append_ne_nil_of_left_ne_nil (by decide) _
  cases first with
  | suite =>
      cases second with
      | suite => rfl
      | test method => simp [toList_text_suite, toList_text_test] at equal
      | dataSet method index => simp [toList_text_suite, toList_text_dataSet] at equal
  | test method =>
      rw [toList_text_test] at equal
      cases second with
      | suite => cases equal
      | test method' =>
          rw [toList_text_test] at equal
          obtain ⟨rfl, _⟩ := cut [] [] (named _ rfl) (named' _ rfl) nothing nothing
            (by simpa using equal)
          rfl
      | dataSet method' index =>
          rw [toList_text_dataSet] at equal
          obtain ⟨_, empty⟩ := cut [] (label index) (named _ rfl) (named' _ rfl) nothing
            (head?_label index) (by simpa using equal)
          exact absurd empty.symm (labelled index)
  | dataSet method index =>
      rw [toList_text_dataSet] at equal
      cases second with
      | suite => cases equal
      | test method' =>
          rw [toList_text_test] at equal
          obtain ⟨_, empty⟩ := cut (label index) [] (named _ rfl) (named' _ rfl) (head?_label index)
            nothing (by simpa using equal)
          exact absurd empty (labelled index)
      | dataSet method' index' =>
          rw [toList_text_dataSet] at equal
          obtain ⟨rfl, labels⟩ := cut (label index) (label index') (named _ rfl) (named' _ rfl)
            (head?_label index) (head?_label index') equal
          rw [label_injective labels]

/-- What ends with the text of a place below a suite is no path. -/
theorem not_isPath_append_text {place : Place} (below : place ≠ .suite) (named : place.Named)
    (before : List Char) : ¬ Php.IsPath (before ++ place.text.toList) := by
  cases place with
  | suite => exact absurd rfl below
  | test method =>
      have split : before ++ ':' :: ':' :: method.toList =
          before ++ [':'] ++ ':' :: method.toList := by
        simp
      rw [toList_text_test, split]
      exact Php.not_isPath_of_mark (.inl rfl) (named method rfl).characters
  | dataSet method index =>
      obtain ⟨words, hash⟩ : ∃ words, label index = words ++ '#' :: Nat.toDigits 10 index :=
        ⟨_, rfl⟩
      have split (digits : List Char) :
          before ++ ':' :: ':' :: (method.toList ++ (words ++ '#' :: digits)) =
            before ++ ':' :: ':' :: (method.toList ++ words) ++ '#' :: digits := by
        simp only [List.append_assoc, List.cons_append]
      rw [toList_text_dataSet, hash, split]
      exact Php.not_isPath_of_mark (.inr rfl) fun c member => isNameCharacter_of_mem_toDigits member

end Place

section Words

variable {document : Php.Document}

theorem toList_string (node : Php.Node) :
    (document.string node).toList = node.text document.code :=
  String.toList_ofList

/-- The child that names a node is as the node asks of names. -/
theorem allows_of_child? {node name : Php.Node} (wellNamed : Php.WellNamed document.code node)
    (found : node.child? .name = some name) :
    (Php.titlingOf node.kind).Allows document.code name ∧ name.role = some .name :=
  ⟨wellNamed.allows (List.mem_of_find?_eq_some found), by simpa using List.find?_some found⟩

/-- In a file whose nodes are well named, the namespaces in effect are paths. -/
theorem holds_wellNamed (document : Php.Document) :
    Holds document (Php.WellNamed document.code)
      fun inNamespace => ∀ name ∈ inNamespace, Php.IsPath name.toList where
  child := Php.WellNamed.child
  global := by simp
  named {definition} wellNamed kind := by
    intro text member
    obtain ⟨mapped, _⟩ := Option.filter_eq_some_iff.mp member
    obtain ⟨name, found, rfl⟩ := Option.map_eq_some_iff.mp mapped
    obtain ⟨allowed, role⟩ := allows_of_child? wellNamed found
    rw [kind] at allowed
    rw [toList_string]
    exact allowed role

/-- A method is called by its child in the role of a name. -/
theorem methodName_of_child? {method : Php.Placed} {name : Php.Node}
    (found : method.node.child? .name = some name) :
    methodName document method = document.string name := by
  rw [methodName, found]
  rfl

/-- Siblings that are listed with what stands before them are the siblings. -/
theorem mem_placed {before : Option Php.Node} {nodes : List Php.Node} {placed : Php.Placed}
    (member : placed ∈ Php.Node.place before nodes) : placed.node ∈ nodes := by
  induction nodes generalizing before with
  | nil => cases member
  | cons node rest ih =>
      rcases List.mem_cons.mp member with rfl | later
      · exact List.mem_cons_self
      · exact List.mem_cons_of_mem node (ih later)

/-- The tests of a suite are test methods in its body. -/
theorem mem_testMethods {suite : Declared} {method : Php.Placed}
    (member : method ∈ suite.testMethods document) :
    IsTestMethod document method ∧
      ∃ body ∈ suite.declaration.node.child? .body, method.node ∈ body.children := by
  unfold Declared.testMethods at member
  split at member
  · cases member
  · rename_i body found
    obtain ⟨stands, isTest⟩ := List.mem_filter.mp member
    exact ⟨by simpa using isTest, body, found, (List.mem_filter.mp (mem_placed stands)).1⟩

/-- The names in a file whose nodes are well named are words and paths. -/
theorem words_of_wellNamed (wellNamed : Php.WellNamed document.code document.root) :
    Words document := by
  have declared {suite : Declared} (member : suite ∈ suites document) :=
    holds_of_mem_declaredClasses (holds_wellNamed document) wellNamed (List.mem_filter.mp member).1
  refine ⟨fun suite member => ?_, fun suite member => (declared member).inNamespace,
    fun suite member method test => ?_⟩
  · obtain ⟨declaration, kind, ⟨name, found, text⟩, _⟩ := declared member
    obtain ⟨allowed, role⟩ := allows_of_child? declaration found
    rw [kind] at allowed
    rw [text, toList_string]
    exact allowed role
  · obtain ⟨isTest, body, found, stands⟩ := mem_testMethods test
    obtain ⟨name, found', _⟩ := isTest.isTest
    have inClass := (declared member).declaration
    have wellNamedMethod := (inClass.child (List.mem_of_find?_eq_some found)).child stands
    obtain ⟨allowed, role⟩ := allows_of_child? wellNamedMethod found'
    rw [isTest.isMethod] at allowed
    rw [methodName_of_child? found', toList_string]
    exact allowed role

end Words

/-- The places of a suite, in source order. -/
def Declared.places (document : Php.Document) (suite : Declared) : List Place :=
  .suite :: (suite.testMethods document).flatMap fun method =>
    .test (methodName document method) ::
      (List.range (Markers.ofDeclaration document method).annotations.testWith.length).map
        (.dataSet (methodName document method))

/-- A node stands at a place of a suite. -/
structure StandsAt (suite : Declared) (place : Place) (node : Definition) : Prop where
  kind : node.kind ≠ .namespaceSuite
  qualifiedClass : node.qualifiedClass = some suite.qualifiedName
  id : node.id = suite.qualifiedName ++ node.tail
  tail : node.tail = place.text
  bare : node.IsBare ↔ place = .suite

section Nodes

variable {document : Php.Document} {suite : Declared} {node : Definition}

/-- The identifier of a suite or a test is the name of the class and what follows it. -/
theorem id_eq_of_unique (ofClass : IsOfClass suite node) (kind : node.kind ≠ .dataSet)
    (id : node.id =
      (Identifier.unique node.inNamespace node.className node.methodName).getD "") :
    node.id = suite.qualifiedName ++ node.tail := by
  rw [id, Identifier.unique_getD, Definition.tail, if_neg kind, String.append_empty,
    ofClass.className, ofClass.inNamespace]
  rfl

/-- The node of a suite stands at the place of the suite. -/
theorem standsAt_suite (stands : IsSuiteNode document suite node) : StandsAt suite .suite node where
  kind := by simp [stands.kind]
  qualifiedClass := stands.qualifiedClass
  id := id_eq_of_unique stands.toIsOfClass (by simp [stands.kind]) stands.id
  tail := by
    rw [Definition.tail, stands.kind, stands.methodName, if_neg (by decide), String.append_empty,
      Identifier.memberPart_none]
    rfl
  bare := iff_of_true (.inl stands.kind) rfl

/-- The identifier of a test says its method after the name of the class. -/
theorem memberPart_of_isTestNode {method : Php.Placed}
    (stands : IsTestNode document suite method node) (className : Php.IsWord suite.name.toList)
    (named : Php.IsWord (methodName document method).toList) :
    Identifier.memberPart node.className node.methodName = "::" ++ methodName document method := by
  have known : node.methodName = some (methodName document method) := by
    rw [stands.methodName]
    have occupied := (Identifier.isName_of_isWord named).ne_empty
    unfold methodName at occupied ⊢
    cases found : (method.node.child? .name).map document.string with
    | none => simp [found] at occupied
    | some name => rfl
  rw [stands.className, known,
    Identifier.memberPart_some (Identifier.isName_of_isWord className).ne_empty
      (Identifier.isName_of_isWord named).ne_empty]

/-- The node of a test stands at the place of its method. -/
theorem standsAt_test {method : Php.Placed} (stands : IsTestNode document suite method node)
    (className : Php.IsWord suite.name.toList)
    (named : Php.IsWord (methodName document method).toList) :
    StandsAt suite (.test (methodName document method)) node where
  kind := by simp [stands.kind]
  qualifiedClass := stands.qualifiedClass
  id := id_eq_of_unique stands.toIsOfClass (by simp [stands.kind]) stands.id
  tail := by
    rw [Definition.tail, memberPart_of_isTestNode stands className named, stands.kind,
      if_neg (by decide), String.append_empty]
    rfl
  bare := by
    refine iff_of_false ?_ (by simp)
    rintro (isClass | ⟨-, noName⟩)
    · simp [stands.kind] at isClass
    · rw [stands.className] at noName
      exact (Identifier.isName_of_isWord className).ne_empty (Option.some.inj noName)

/-- The node of a data set stands at the place of its method and its number. -/
theorem standsAt_dataSet {method : Php.Placed} {test : Definition} {index : Nat}
    (testStands : IsTestNode document suite method test)
    (stands : IsDataSetNode suite test index node) (className : Php.IsWord suite.name.toList)
    (named : Php.IsWord (methodName document method).toList) :
    StandsAt suite (.dataSet (methodName document method) index) node := by
  have part : Identifier.memberPart node.className node.methodName =
      "::" ++ methodName document method := by
    rw [stands.className, stands.methodName, ← testStands.className,
      memberPart_of_isTestNode testStands className named]
  have tail : node.tail = "::" ++ methodName document method ++ (" " ++ node.label) := by
    rw [Definition.tail, part, if_pos stands.kind]
  refine ⟨by simp [stands.kind], stands.qualifiedClass, ?_, ?_, ?_⟩
  · have above := standsAt_test testStands className named
    rw [stands.id, Identifier.dataSet, above.id, above.tail, tail, String.append_assoc,
      String.append_assoc]
    rfl
  · rw [tail, stands.label]
    rfl
  · exact iff_of_false (by simp [Definition.IsBare, stands.kind]) (by simp)

/-- Data sets have nothing below them. -/
theorem flatMap_nodes_dataSets {method : Php.Placed} {test : Definition}
    (stands : IsTestNode document suite method test) :
    test.children.flatMap Definition.nodes = test.children :=
  calc
    test.children.flatMap Definition.nodes = test.children.flatMap fun dataSet => [dataSet] :=
        List.flatMap_congr fun dataSet among => by
          obtain ⟨index, _, standsFor⟩ := exists_left_of_mem_right stands.dataSets among
          rw [Definition.nodes_eq, standsFor.children]
          rfl
    _ = test.children := List.flatMap_singleton' test.children

/-- The nodes of a suite and of what is below it stand at its places, one by one and in source
order. -/
theorem forall₂_places (words : Words document) (member : suite ∈ suites document)
    (stands : IsSuiteNode document suite node) :
    List.Forall₂ (StandsAt suite) (suite.places document) node.nodes := by
  have className := words.className suite member
  have tests := (List.forall₂_and_left _ _).mpr ⟨words.methods suite member, stands.tests⟩
  rw [Definition.nodes_eq, Definition.forestNodes_eq_flatMap]
  refine List.Forall₂.cons (standsAt_suite stands) (List.rel_flatMap tests ?_)
  rintro method test ⟨named, testStands⟩
  rw [Definition.nodes_eq, Definition.forestNodes_eq_flatMap]
  refine List.Forall₂.cons (standsAt_test testStands className named) ?_
  rw [flatMap_nodes_dataSets testStands, List.forall₂_map_left_iff]
  exact testStands.dataSets.imp fun index dataSet stands =>
    standsAt_dataSet testStands stands className named

end Nodes

section Places

variable {document : Php.Document}

/-- The places of the suites of a file, in source order. -/
def spots (document : Php.Document) : List (Declared × Place) :=
  (suites document).flatMap fun suite => (suite.places document).map fun place => (suite, place)

/-- What a place in a file is called: the namespace and the name of the class, and the place in the
class. -/
def spotName (spot : Declared × Place) : (Option String × String) × Place :=
  ((spot.1.inNamespace, spot.1.name), spot.2)

/-- If a class declares no method twice, its tests have different names. -/
theorem nodup_testNames {declared : Declared} (once : (declared.methodNames document).Nodup) :
    ((declared.testMethods document).map (methodName document)).Nodup := by
  unfold Declared.methodNames at once
  unfold Declared.testMethods
  cases found : declared.declaration.node.child? .body with
  | none => exact List.nodup_nil
  | some body =>
      rw [found] at once
      dsimp only at once ⊢
      rw [filter_isTestMethod]
      exact once.sublist (List.filter_sublist.map (methodName document))

/-- In a class that declares no method twice, no place comes twice. -/
theorem nodup_places {declared : Declared} (once : (declared.methodNames document).Nodup) :
    (declared.places document).Nodup := by
  rw [Declared.places, List.nodup_cons]
  refine ⟨by simp, ?_⟩
  refine nodup_flatMap_of_name (fun method => some (methodName document method)) Place.method?
    ?_ ?_ ?_
  · simp [Place.method?]
  · change ((declared.testMethods document).map (some ∘ methodName document)).Nodup
    rw [← List.map_map]
    exact (nodup_testNames once).map fun _ _ => Option.some.inj
  · intro method _
    refine List.nodup_cons.mpr ⟨by simp, List.nodup_range.map ?_⟩
    rintro index index' equal
    exact (Place.dataSet.inj equal).2

/-- In a file that declares its classes and methods once, no place comes twice. -/
theorem nodup_spots (once : DeclaresOnce document) : ((spots document).map spotName).Nodup := by
  rw [spots, List.map_flatMap]
  refine nodup_flatMap_of_name (fun suite => (suite.inNamespace, suite.name)) Prod.fst ?_ ?_ ?_
  · simp [spotName]
  · exact once.classes.sublist (List.filter_sublist.map _)
  · intro suite member
    rw [List.map_map]
    refine (nodup_places (once.methods suite (List.mem_filter.mp member).1)).map ?_
    rintro place place' equal
    exact (Prod.mk.inj equal).2

/-- In a file whose classes and methods are words, all places of a suite are named. -/
theorem named_of_mem_places (words : Words document) {suite : Declared}
    (member : suite ∈ suites document) {place : Place} (among : place ∈ suite.places document) :
    place.Named := by
  rcases List.mem_cons.mp among with rfl | below
  · simp [Place.Named, Place.method?]
  · obtain ⟨method, isTest, here⟩ := List.mem_flatMap.mp below
    have word := words.methods suite member method isTest
    have ofMethod : place.method? = some (methodName document method) := by
      rcases List.mem_cons.mp here with rfl | dataSet
      · rfl
      · obtain ⟨index, _, rfl⟩ := List.mem_map.mp dataSet
        rfl
    simpa [Place.Named, ofMethod] using word

/-- A node stands at a place of a suite of a file. -/
structure StandsIn (document : Php.Document) (spot : Declared × Place) (node : Definition) : Prop
    extends StandsAt spot.1 spot.2 node where
  suite : spot.1 ∈ suites document
  place : spot.2 ∈ spot.1.places document

/-- What a place in a file is called can be told from the identifier of the node that stands
there. -/
theorem spotName_eq_of_id_eq (words : Words document) {spot spot' : Declared × Place}
    {node node' : Definition} (stands : StandsIn document spot node)
    (stands' : StandsIn document spot' node') (equal : node.id = node'.id) :
    spotName spot = spotName spot' := by
  have named := named_of_mem_places words stands.suite stands.place
  have named' := named_of_mem_places words stands'.suite stands'.place
  have present {suite : Declared} (member : suite ∈ suites document) :=
    present_of_mem_declaredClasses (List.mem_filter.mp member).1
  rw [stands.id, stands'.id, stands.tail, stands'.tail] at equal
  obtain ⟨namespaces, classes, texts⟩ := Identifier.qualifiedClass_append_inj
    (present stands.suite) (present stands'.suite)
    (Identifier.isName_of_isWord (words.className _ stands.suite))
    (Identifier.isName_of_isWord (words.className _ stands'.suite))
    (Place.no_separator_text named.isName) (Place.no_separator_text named'.isName)
    (Place.head?_text _) (Place.head?_text _)
    (by simpa [Declared.qualifiedName] using congrArg String.toList equal)
  rw [spotName, spotName, namespaces, classes,
    Place.text_injective named.isName named'.isName texts]

/-- The nodes below the namespaces of a forest stand at the places of its file, one by one and in
source order. -/
theorem forall₂_spots (words : Words document) {classes : List Definition}
    (stand : List.Forall₂ (IsSuiteNode document) (suites document) classes) :
    List.Forall₂ (StandsIn document) (spots document) (classes.flatMap Definition.nodes) := by
  have inFile := (List.forall₂_and_left _ _).mpr ⟨fun suite member => member, stand⟩
  refine List.rel_flatMap inFile ?_
  rintro suite node ⟨member, stands⟩
  rw [List.forall₂_map_left_iff]
  have places := forall₂_places words member stands
  refine ((List.forall₂_and_left _ _).mpr ⟨fun place among => among, places⟩).imp ?_
  rintro place node ⟨among, standsAt⟩
  exact ⟨standsAt, member, among⟩

/-- The node of a namespace is called like the namespace, which is a path in the file. -/
theorem isPath_of_isRoot (words : Words document) {file : String} {forest : List Definition}
    (stand : List.Forall₂ (IsSuiteNode document) (suites document)
      (forest.flatMap Definition.members))
    {root : Definition} (member : root ∈ forest) (grouped : Definition.IsRoot file root)
    (kind : root.kind = .namespaceSuite) :
    root.inNamespace = some root.id ∧ Php.IsPath root.id.toList := by
  cases grouped with
  | classSuite other _ => simp [other] at kind
  | @namespaceSuite name span children occupied within =>
      obtain ⟨child, among⟩ := List.exists_mem_of_ne_nil children occupied
      have below : child ∈ forest.flatMap Definition.members :=
        List.mem_flatMap.mpr ⟨_, member, by rw [Definition.members, if_pos kind]; exact among⟩
      obtain ⟨suite, inFile, stands⟩ := exists_left_of_mem_right stand below
      have named : suite.inNamespace = some name := by
        rw [← stands.inNamespace, (within child among).2]
      exact ⟨rfl, words.inNamespace suite inFile name named⟩

/-- A node of a forest is the node of a namespace, called by a path, or stands at a place of a
suite. -/
theorem cases_of_mem_forestNodes (words : Words document) {file : String} {forest : List Definition}
    (stand : List.Forall₂ (IsSuiteNode document) (suites document)
      (forest.flatMap Definition.members))
    (grouped : ∀ root ∈ forest, Definition.IsRoot file root) {node : Definition}
    (member : node ∈ Definition.forestNodes forest) :
    (node.kind = .namespaceSuite ∧ node.inNamespace = some node.id ∧ Php.IsPath node.id.toList) ∨
      ∃ spot ∈ spots document, StandsIn document spot node := by
  rcases Definition.mem_forestNodes member with ⟨root, kind⟩ | below
  · exact .inl ⟨kind, isPath_of_isRoot words stand root (grouped node root) kind⟩
  · exact .inr (exists_left_of_mem_right (forall₂_spots words stand) below)

/-- The nodes of the classes of a forest and of what is below them have different identifiers. -/
theorem pairwise_id_ne (words : Words document) (once : DeclaresOnce document)
    {forest : List Definition}
    (stand : List.Forall₂ (IsSuiteNode document) (suites document)
      (forest.flatMap Definition.members)) :
    (Definition.forestNodes forest).Pairwise fun first second =>
      first.kind ≠ .namespaceSuite → second.kind ≠ .namespaceSuite → first.id ≠ second.id := by
  have spotsStand := forall₂_spots words stand
  have noNamespace (node) (member : node ∈ (forest.flatMap Definition.members).flatMap
      Definition.nodes) : node.kind ≠ .namespaceSuite := by
    obtain ⟨spot, _, stands⟩ := exists_left_of_mem_right spotsStand member
    exact stands.kind
  have apart : ((Definition.forestNodes forest).filter fun node =>
      node.kind ≠ .namespaceSuite).Pairwise fun first second => first.id ≠ second.id := by
    rw [Definition.filter_forestNodes noNamespace]
    refine pairwise_of_forall₂ spotsStand ?_ (List.pairwise_map.mp (nodup_spots once))
    intro spot spot' node node' stands stands' other equal
    exact other (spotName_eq_of_id_eq words stands stands' equal)
  rw [List.pairwise_filter] at apart
  refine apart.imp fun {first second} different kind kind' => ?_
  exact different (by simpa using kind) (by simpa using kind')

/-- **Identifiers of tests in classes.** In a file that declares its classes and methods once, two
nodes have one identifier exactly if both are nodes of one namespace, or one is the node of a
namespace and the other the node of a class called like it. -/
theorem pairwise_sharesId (words : Words document) (once : DeclaresOnce document) {file : String}
    {forest : List Definition} (found : forest? document file = some forest)
    {coincide : Definition.Lineage → Definition.Lineage → Prop}
    (never : ∀ first second, ¬ coincide first second) :
    (Definition.forestLineages [] forest).Pairwise fun first second =>
      (first.node.id = second.node.id ↔
        Definition.SharesId (coincide first second) first.node second.node) := by
  obtain ⟨stand, grouped⟩ := roots_of_forest? found
  have standing {lineage : Definition.Lineage}
      (member : lineage ∈ Definition.forestLineages [] forest) :=
    cases_of_mem_forestNodes words stand grouped
      (Definition.map_node_forestLineages [] forest ▸ List.mem_map_of_mem member)
  refine Definition.pairwise_sharesId (fun lineage member => ?_) ?_ ?_
  · rcases standing member with ⟨kind, named, _⟩ | ⟨spot, _, stands⟩
    · exact ⟨fun _ => named, fun other => absurd kind other, fun other => absurd kind other⟩
    · refine ⟨fun kind => absurd kind stands.kind,
        fun _ => ⟨_, stands.qualifiedClass, stands.id⟩, fun _ isBare => ?_⟩
      rw [stands.tail, stands.bare.mp isBare]
      rfl
  · intro above member node member' kind kind' equal
    obtain ⟨_, _, path⟩ := (standing member).resolve_right fun ⟨_, _, other⟩ => other.kind kind
    obtain ⟨spot, _, stands⟩ := (standing member').resolve_left fun ⟨other, _⟩ => kind' other
    -- No namespace is called like a test or a data set, as these have a colon or a number sign.
    by_cases bare : spot.2 = .suite
    · exact stands.bare.mpr bare
    · rw [equal, stands.id, stands.tail, String.toList_append] at path
      exact absurd path (Place.not_isPath_append_text bare
        (named_of_mem_places words stands.suite stands.place) _)
  · have apart := pairwise_id_ne words once stand
    rw [← Definition.map_node_forestLineages [], List.pairwise_map] at apart
    exact apart.imp fun {first second} different kind kind' =>
      iff_of_false (different kind kind') (never first second)

end Places

end PhpTestIndex.PhpUnit
