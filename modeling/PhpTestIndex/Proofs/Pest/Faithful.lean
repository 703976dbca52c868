import PhpTestIndex.Proofs.Pest.Chain
import PhpTestIndex.Proofs.Pest.Inside
import PhpTestIndex.Proofs.Test.Faithful

/-! # Tests registered by calls say what is written

The description of a call is a string that stands in the call, and what is chained to it says the
strings and the rows that stand in the chain. The name of a test goes around the descriptions of its
groups with signs. So the forest of an unbroken file is faithful to it, if the place of the file
shows no placeholder (`PhpTestIndex.Pest.isFaithful_of_read`).
-/

namespace PhpTestIndex.Pest

section Names

/-- The words that are put in front of a description make no placeholder. -/
theorem isClean_testLabel {function description : String} (clean : Php.IsClean description) :
    Php.IsClean (testLabel function description) := by
  unfold testLabel
  split
  · rename_i word
    simp only [Bool.or_eq_true, decide_eq_true_eq] at word
    rcases word with rfl | rfl
    · exact clean.after (by decide) (by decide)
    · exact clean.after (by decide) (by decide)
  · exact clean

/-- A test is labelled by its description, with one of two words before it or none. -/
theorem testLabel_mem (function description : String) :
    testLabel function description ∈
      [description, "it " ++ description, "arch " ++ description] := by
  unfold testLabel
  split
  · rename_i word
    simp only [Bool.or_eq_true, decide_eq_true_eq] at word
    rcases word with rfl | rfl
    · exact List.mem_cons_of_mem _ List.mem_cons_self
    · exact List.mem_cons_of_mem _ (List.mem_cons_of_mem _ List.mem_cons_self)
  · exact List.mem_cons_self

/-- The groups around a name add only their descriptions and signs. -/
theorem isClean_namePrefix_append {groups : List String} {name : String}
    (clean : ∀ group ∈ groups, Php.IsClean group) (cleanName : Php.IsClean name) :
    Php.IsClean (namePrefix groups ++ name) := by
  induction groups with
  | nil => exact cleanName
  | cons group rest ih =>
      obtain ⟨first, others⟩ := List.forall_mem_cons.mp clean
      have unfolded : namePrefix (group :: rest) ++ name =
          "`" ++ (group ++ "` → " ++ (namePrefix rest ++ name)) := by
        simp [namePrefix, String.append_assoc]
      rw [unfolded]
      exact (first.glue (by decide) (by decide) (ih others)).after (by decide) (by decide)

/-- What stands before a quote is a part of the text. -/
theorem infix_of_upToQuote {quote : Char} {chars key rest : List Char}
    (found : Identifier.upToQuote quote chars = some (key, rest)) : key <:+: chars := by
  unfold Identifier.upToQuote at found
  split at found
  · cases found
  · obtain ⟨rfl, _⟩ := Prod.mk.inj (Option.some.inj found)
    exact (List.takeWhile_prefix _).isInfix

/-- The key of a row is a part of the row. -/
theorem infix_of_rowKey? {row key : List Char} (found : Identifier.rowKey? row = some key) :
    key <:+: row := by
  have trimmed : Text.trimStart row <:+: row := Text.dropWhile_isInfix Text.isBlank row
  unfold Identifier.rowKey? at found
  dsimp only at found
  split at found
  case h_3 => cases found
  all_goals
    rename_i rest quoted
    rw [quoted] at trimmed
    split at found
    · cases found
    · rename_i upTo
      split at found
      · cases found
        exact (infix_of_upToQuote upTo).trans ((List.suffix_cons _ rest).isInfix.trans trimmed)
      · cases found

/-- The values of a row, shortened or not, are a part of the row. -/
theorem rowValues_isInfix (row : List Char) : Identifier.rowValues row <:+: row := by
  unfold Identifier.rowValues
  refine (Text.trim_isInfix _).trans ((Text.getD_isInfix ?_).trans (Text.trim_isInfix row))
  intro part found
  obtain ⟨rest, opened, closed⟩ := Option.bind_eq_some_iff.mp found
  exact (Text.infix_of_before? closed).trans (Text.infix_of_after? opened)

/-- The label of a clean row is clean, whether it is made from the key or from the values. -/
theorem isClean_rowLabel {row : String} (clean : Php.IsClean row) :
    Php.IsClean (Identifier.rowLabel row) := by
  unfold Identifier.rowLabel
  split
  · rename_i key found
    have cleanKey : Php.IsClean (String.ofList key) := by
      apply Php.IsClean.of_part clean
      rw [String.toList_ofList]
      exact infix_of_rowKey? found
    exact (cleanKey.after (by decide) (by decide)).before (by decide) (by decide)
  · have cleanValues : Php.IsClean (String.ofList (Identifier.rowValues row.toList)) := by
      apply Php.IsClean.of_part clean
      rw [String.toList_ofList]
      exact rowValues_isInfix row.toList
    exact (cleanValues.after (by decide) (by decide)).before (by decide) (by decide)

end Names

section Sources

variable {document : Php.Document} {value : Php.Node} {read : String}

/-- What is read as a string stands in the file as a literal. -/
theorem hasSource_of_stringValue? (inside : document.root.Inside value)
    (found : document.stringValue? value = some read) : document.HasSource value := by
  refine ⟨value, inside, .inr ?_, .root⟩
  obtain ⟨chars, reads, _⟩ := Option.map_eq_some_iff.mp found
  unfold Php.stringValue? at reads
  split at reads
  · rename_i isPlain
    simp [isPlain]
  · rename_i isInterpolated
    simp [isInterpolated]
  · cases reads

end Sources

section Written

variable {text : List Char} {document : Php.Document}
  (parsed : Php.Document.read text = .ok document) (unbroken : Php.Unbroken text document)

include parsed unbroken

theorem written_of_stringValue? {value : Php.Node} {read : String}
    (inside : document.root.Inside value) (found : document.stringValue? value = some read) :
    Php.Written text document read :=
  Php.written_of_hasSource parsed unbroken (hasSource_of_stringValue? inside found) (.string found)

/-- **What a call says is written:** its strings and its rows. -/
theorem written_of_annotations {call : Call} (isOf : call.IsOf document document.root)
    {value : String} (said : value ∈ (call.annotations document).values) :
    Php.Written text document value := by
  obtain ⟨isTodo, marked⟩ :
      ∃ isTodo, MarkedBy document isTodo call.chain (call.annotations document) :=
    ⟨_, MarkedBy.nil.foldl call.chain⟩
  have given {name : String} {node : Php.Node} (among : node ∈ handedTo name call.chain) :
      document.root.Inside node := by
    obtain ⟨link, ofName, among⟩ := List.mem_flatMap.mp among
    exact isOf.chain link (List.mem_filter.mp ofName).1 node among
  have strings {name : String}
      (found : value ∈ (handedTo name call.chain).filterMap document.stringValue?) :
      Php.Written text document value := by
    obtain ⟨node, among, reads⟩ := List.mem_filterMap.mp found
    exact written_of_stringValue? parsed unbroken (given among) reads
  simp only [Annotations.values, marked.testWith, marked.dataProvider, marked.group, marked.depends,
    marked.testdox, List.append_nil, List.mem_append] at said
  rcases said with ((dataSet | depends) | group) | row
  · obtain ⟨node, among, reads⟩ := List.mem_filterMap.mp dataSet
    unfold namedDataSet? at reads
    split at reads
    · cases reads
    · exact written_of_stringValue? parsed unbroken (given among) reads
  · exact strings depends
  · exact strings group
  · obtain ⟨array, among, ofArray⟩ := List.mem_flatMap.mp row
    unfold rowsOf at ofArray
    split at ofArray
    · obtain ⟨element, isElement, rfl⟩ := List.mem_map.mp ofArray
      obtain ⟨inArray, kind⟩ := List.mem_filter.mp isElement
      refine Php.written_of_hasSource parsed unbroken ?_ .text
      exact ⟨element, (given among).child inArray, .inr (by simp [of_decide_eq_true kind]), .root⟩
    · cases ofArray

end Written

/-! ### Forests -/

/-- What holds of the nodes of each registration holds of the nodes of all. -/
theorem forall_forestNodes_defineAll {motive : Definition → Prop} {document : Php.Document}
    {parent : Definition} {context : Context} {registrations : List Registration}
    (each : ∀ registration ∈ registrations,
      ∀ node ∈ Definition.forestNodes (define document parent registration context).1.toList,
        motive node) :
    ∀ node ∈ Definition.forestNodes (defineAll document parent registrations context).1,
      motive node := by
  intro node among
  rw [defineAll_fst, Definition.forestNodes_eq_flatMap] at among
  obtain ⟨root, isRoot, inRoot⟩ := List.mem_flatMap.mp among
  obtain ⟨registration, present, made⟩ := List.mem_flatMap.mp isRoot
  refine each registration present node ?_
  rw [Definition.forestNodes_eq_flatMap]
  exact List.mem_flatMap.mpr ⟨root, made, inRoot⟩

section Forests

variable {text : List Char} {document : Php.Document} {parent : Definition}
  (parsed : Php.Document.read text = .ok document)
  (absent : ¬ Php.placeholder <:+: text) (unbroken : Php.Unbroken text document)

include parsed absent unbroken

/-- A test and its data sets say what is written. -/
theorem isFaithful_testDefinition (ofParent : parent.IsClean) {call : Call}
    (isOf : call.IsOf document document.root) {context : Context}
    (groups : ∀ group ∈ context.describePath, Php.IsClean group) :
    ∀ node ∈ (testDefinition document context parent call).nodes,
      node.IsFaithful text document := by
  have code := Php.code_of_read parsed
  obtain ⟨value, inside, reads⟩ := isOf.description
  have described := written_of_stringValue? parsed unbroken inside reads
  have label := @isClean_testLabel call.function _ (described.isClean code absent)
  have name := isClean_namePrefix_append groups label
  rw [← testName_eq] at name
  have values {value : String} (said : value ∈ (call.annotations document).values) :=
    written_of_annotations parsed unbroken isOf said
  have clean (children : List Definition) := @Definition.isClean_member _ call.node.span _ ofParent
    .method name _ label _ (fun value said => (values said).isClean code absent) children
  rw [Definition.nodes_eq]
  refine List.forall_mem_cons.mpr ⟨⟨clean _, fun _ => values, fun isGroup => ?_, fun _ => ?_⟩, ?_⟩
  · cases isGroup
  · exact ⟨call.description, described, testLabel_mem call.function call.description⟩
  · refine Definition.isFaithful_dataSets (clean []) (List.forall_mem_map.mpr ?_)
    intro row isRow
    have written := values (List.mem_append_right _ isRow)
    exact ⟨_, isClean_rowLabel (written.isClean code absent), rfl⟩

/-- A group says what is written, whatever stands in it. -/
theorem isFaithful_groupHead (ofParent : parent.IsClean) {call : Call}
    (isOf : call.IsOf document document.root) {context : Context}
    (groups : ∀ group ∈ context.describePath, Php.IsClean group) (children : List Definition) :
    Definition.IsFaithful text document
      { groupHead document context parent call with children := children } := by
  have code := Php.code_of_read parsed
  obtain ⟨value, inside, reads⟩ := isOf.description
  have described := written_of_stringValue? parsed unbroken inside reads
  have label := described.isClean code absent
  have quoted := (label.after (by decide : Php.IsForeign "`") (by decide)).before
    (by decide : Php.IsForeign "`") (by decide)
  have name := isClean_namePrefix_append groups quoted
  rw [← groupName_append_singleton] at name
  have values {value : String} (said : value ∈ (call.annotations document).values) :=
    written_of_annotations parsed unbroken isOf said
  have clean := @Definition.isClean_member _ call.node.span _ ofParent .describe name _ label _
    (fun value said => (values said).isClean code absent) children
  refine ⟨clean, fun _ => values, fun _ => described, fun isTest => ?_⟩
  cases isTest

/-- What a registration defines says what is written. -/
theorem isFaithful_define {registration : Registration}
    (isOf : registration.IsOf document document.root) (ofParent : parent.IsClean)
    {context : Context} (groups : ∀ group ∈ context.describePath, Php.IsClean group) :
    ∀ node ∈ Definition.forestNodes (define document parent registration context).1.toList,
      node.IsFaithful text document := by
  induction isOf generalizing parent context with
  | @mk call inner ofCall _ ih =>
      by_cases isGroup : call.function = describeFunction
      · have group := isFaithful_groupHead parsed absent unbroken ofParent ofCall groups
        have opened : ∀ group ∈ (context.enter (.describe call.description)).describePath,
            Php.IsClean group := by
          rw [Context.describePath_enter_describe]
          refine List.forall_mem_append.mpr ⟨groups, List.forall_mem_singleton.mpr ?_⟩
          exact (group []).clean.label
        have below := forall_forestNodes_defineAll fun registration among =>
          ih registration among (group []).clean opened
        rw [define_of_eq isGroup]
        split
        · simp
        · rw [Option.toList_some, Definition.forestNodes_cons, Definition.forestNodes_nil,
            List.append_nil, Definition.nodes_eq]
          exact List.forall_mem_cons.mpr ⟨group _, below⟩
      · rw [define_of_ne isGroup]
        simpa using isFaithful_testDefinition parsed absent unbroken ofParent ofCall groups

/-- **Tests registered by calls say what is written,** if the place of their file shows no
placeholder. -/
theorem isFaithful_of_read {reader : Reader} {directory file : String} {forest : List Definition}
    (cleanNamespace : Php.IsClean (syntheticClass directory reader.root file).1)
    (cleanClass : Php.IsClean (syntheticClass directory reader.root file).2)
    (found : (reader.read directory document file).1 = some forest) :
    ∀ node ∈ Definition.forestNodes forest, node.IsFaithful text document := by
  have inNamespace := Php.isClean_of_mem_some cleanNamespace
  rw [read_fst, suiteHead_eq] at found
  generalize (syntheticClass directory reader.root file).1 = name at found inNamespace
  generalize (syntheticClass directory reader.root file).2 = className at found cleanClass
  have clean (children : List Definition) := @Definition.isClean_ofClass className file
    document.root.span _ inNamespace cleanClass _ cleanClass Annotations.none
    (by simp [Annotations.values, Annotations.none]) children
  have tests := forall_forestNodes_defineAll fun registration among =>
    @isFaithful_define _ _ _ parsed absent unbroken registration (isOf_ofStatements among)
      (clean []) .start (by simp)
  split at found
  · cases found
  · obtain rfl := Option.some.inj found
    refine Definition.isFaithful_groupByNamespace (List.forall_mem_singleton.mpr rfl) ?_
    refine List.forall_mem_singleton.mpr ?_
    rw [Definition.nodes_eq]
    refine List.forall_mem_cons.mpr ⟨⟨clean _, ?_, fun isGroup => ?_, fun isTest => ?_⟩, tests⟩
    · simp [Definition.ofClass, Annotations.values, Annotations.none]
    · cases isGroup
    · cases isTest

end Forests

end PhpTestIndex.Pest
