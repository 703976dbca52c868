import Mathlib.Order.Nat
import PhpTestIndex.Proofs.Test.Grouping

/-! # Runs of classes of one namespace

The node of a namespace goes from the start of its first class to the end of its last one
(`PhpTestIndex.Definition.spansClasses_of_mem_groupByNamespace`), and classes of one namespace that
follow each other stand under one node
(`PhpTestIndex.Definition.exists_node_of_run`).
-/

namespace PhpTestIndex.Definition

variable {file name : String} {root definition : Definition} {roots classes : List Definition}

/-- The node of a namespace goes from the start of its first class to the end of its last one. -/
def SpansClasses (root : Definition) : Prop :=
  root.kind = .namespaceSuite → ∃ first last, root.children.head? = some first ∧
    root.children.getLast? = some last ∧ root.span = ⟨first.span.start, last.span.stop⟩

/-- Filing a class extends the node that it joins up to its own end, and a node that it starts is as
long as the class. -/
theorem spansClasses_addToRoots (kind : definition.kind = .classSuite)
    (spanned : ∀ root ∈ roots, root.SpansClasses) :
    ∀ root ∈ addToRoots file roots definition, root.SpansClasses := by
  have alone (name : String) :
      SpansClasses { ofNamespace name file definition.span with children := [definition] } := by
    intro _
    exact ⟨definition, definition, rfl, rfl, rfl⟩
  unfold addToRoots
  split
  · have itself : definition.SpansClasses := by
      intro other
      simp [kind] at other
    exact List.forall_mem_cons.mpr ⟨itself, spanned⟩
  · rename_i name _
    dsimp only
    split
    · exact List.forall_mem_singleton.mpr (alone name)
    · rename_i root earlier
      obtain ⟨spannedRoot, others⟩ := List.forall_mem_cons.mp spanned
      split
      · rename_i same
        refine List.forall_mem_cons.mpr ⟨?_, others⟩
        intro isNamespace
        obtain ⟨first, last, starts, _, span⟩ := spannedRoot isNamespace
        refine ⟨first, definition, ?_, List.getLast?_concat, ?_⟩
        · rw [List.head?_append, starts]
          rfl
        · rw [span]
      · exact List.forall_mem_cons.mpr ⟨alone name, spanned⟩

/-- Every node for a namespace reaches from its first class to its last one, however many classes
are filed. -/
theorem spansClasses_foldl (kinds : ∀ definition ∈ classes, definition.kind = .classSuite)
    (spanned : ∀ root ∈ roots, root.SpansClasses) :
    ∀ root ∈ classes.foldl (addToRoots file) roots, root.SpansClasses := by
  induction classes generalizing roots with
  | nil => exact spanned
  | cons definition rest ih =>
      obtain ⟨kind, others⟩ := List.forall_mem_cons.mp kinds
      exact ih others (spansClasses_addToRoots kind spanned)

/-- How far a node reaches does not depend on its depth. -/
theorem SpansClasses.assignDepth (spanned : root.SpansClasses) (depth : Nat) :
    (root.assignDepth depth).SpansClasses := by
  intro kind
  rw [assignDepth_kind] at kind
  obtain ⟨first, last, starts, ends, span⟩ := spanned kind
  refine ⟨first.assignDepth (depth + 1), last.assignDepth (depth + 1), ?_, ?_, ?_⟩
  · rw [assignDepth_children, List.head?_map, starts]
    rfl
  · rw [assignDepth_children, List.getLast?_map, ends]
    rfl
  · rw [assignDepth_span, assignDepth_span, assignDepth_span, span]

/-- The node of a namespace in a grouped forest spans its classes. -/
theorem spansClasses_of_mem_groupByNamespace
    (kinds : ∀ definition ∈ classes, definition.kind = .classSuite)
    (member : root ∈ groupByNamespace file classes) : root.SpansClasses := by
  rw [groupByNamespace, assignForestDepth_eq_map] at member
  obtain ⟨ground, present, rfl⟩ := List.mem_map.mp member
  have spanned : ground.SpansClasses :=
    spansClasses_foldl kinds (by simp) ground (List.mem_reverse.mp present)
  exact spanned.assignDepth 0

/-- Of items in order, all stand between the start of the first and the end of the last one. -/
theorem bounds_of_pairwise {items : List Definition} {first last item : Definition}
    (pairwise : items.Pairwise fun item item' => item.span.stop.offset ≤ item'.span.start.offset)
    (forward : ∀ item ∈ items, item.span.start.offset ≤ item.span.stop.offset)
    (starts : items.head? = some first) (ends : items.getLast? = some last)
    (member : item ∈ items) :
    first.span.start.offset ≤ item.span.start.offset ∧
      item.span.stop.offset ≤ last.span.stop.offset := by
  have goes := forward item member
  constructor
  · obtain ⟨rest, rfl⟩ := List.head?_eq_some_iff.mp starts
    rcases List.mem_cons.mp member with rfl | later
    · exact le_rfl
    · have own := forward first List.mem_cons_self
      exact own.trans ((List.pairwise_cons.mp pairwise).1 item later)
  · obtain ⟨rest, rfl⟩ := List.getLast?_eq_some_iff.mp ends
    rcases List.mem_append.mp member with earlier | here
    · have own := forward last (by simp)
      exact ((List.pairwise_append.mp pairwise).2.2 item earlier last (by simp)).trans own
    · rw [List.mem_singleton.mp here]

/-- A root goes on as another one, which may have more classes. -/
structure GoesOnAs (root root' : Definition) : Prop where
  kind : root'.kind = root.kind
  id : root'.id = root.id
  children : ∃ late, root'.children = root.children ++ late

/-- No root is lost when a class is filed: it stays, or goes on as the node with one class more. -/
theorem exists_goesOnAs_addToRoots (file : String) (definition : Definition)
    (member : root ∈ roots) :
    ∃ root' ∈ addToRoots file roots definition, GoesOnAs root root' := by
  have same : GoesOnAs root root := ⟨rfl, rfl, [], (List.append_nil _).symm⟩
  unfold addToRoots
  split
  · exact ⟨root, List.mem_cons_of_mem _ member, same⟩
  · dsimp only
    split
    · cases member
    · rename_i first earlier
      split
      · rcases List.mem_cons.mp member with rfl | later
        · exact ⟨_, List.mem_cons_self, rfl, rfl, [definition], rfl⟩
        · exact ⟨root, List.mem_cons_of_mem _ later, same⟩
      · exact ⟨root, List.mem_cons_of_mem _ member, same⟩

/-- No root is lost while classes are filed; each goes on as one that holds all it held. -/
theorem exists_goesOnAs_foldl (file : String) (classes : List Definition) (member : root ∈ roots) :
    ∃ root' ∈ classes.foldl (addToRoots file) roots, GoesOnAs root root' := by
  induction classes generalizing roots root with
  | nil => exact ⟨root, member, rfl, rfl, [], (List.append_nil _).symm⟩
  | cons definition rest ih =>
      obtain ⟨between, among, first⟩ := exists_goesOnAs_addToRoots file definition member
      obtain ⟨root', present, later⟩ := ih among
      obtain ⟨early, children⟩ := first.children
      obtain ⟨late, more⟩ := later.children
      refine ⟨root', present, later.kind.trans first.kind, later.id.trans first.id,
        early ++ late, ?_⟩
      rw [more, children, List.append_assoc]

/-- A class of a namespace is the last one under the node of the namespace when it is added. -/
theorem exists_addToRoots_eq_cons (file : String) (roots : List Definition)
    (named : definition.inNamespace = some name) :
    ∃ root earlier early, addToRoots file roots definition = root :: earlier ∧
      root.isNamespace name ∧ root.children = early ++ [definition] := by
  have alone : isNamespace { ofNamespace name file definition.span with
      children := [definition] } name := by
    simp [isNamespace, ofNamespace]
  unfold addToRoots
  rw [named]
  dsimp only
  split
  · exact ⟨_, [], [], rfl, alone, rfl⟩
  · rename_i root earlier
    split
    · rename_i same
      exact ⟨_, earlier, root.children, rfl, same, rfl⟩
    · exact ⟨_, root :: earlier, [], rfl, alone, rfl⟩

/-- Classes of the namespace of the last root come under it. -/
theorem foldl_addToRoots_of_isNamespace (file : String) (earlier : List Definition)
    (same : root.isNamespace name)
    (within : ∀ definition ∈ classes, definition.inNamespace = some name) :
    ∃ root', classes.foldl (addToRoots file) (root :: earlier) = root' :: earlier ∧
      root'.isNamespace name ∧ root'.children = root.children ++ classes := by
  induction classes generalizing root with
  | nil => exact ⟨root, rfl, same, (List.append_nil _).symm⟩
  | cons definition rest ih =>
      obtain ⟨named, others⟩ := List.forall_mem_cons.mp within
      let longer : Definition :=
        { root with
          span := ⟨root.span.start, definition.span.stop⟩
          children := root.children ++ [definition] }
      have added : addToRoots file (root :: earlier) definition = longer :: earlier := by
        simp [addToRoots, named, same, longer]
      have stays : longer.isNamespace name := same
      obtain ⟨root', split, isNamespace, children⟩ := ih stays others
      refine ⟨root', ?_, isNamespace, ?_⟩
      · rw [List.foldl_cons, added, split]
      · rw [children, List.append_assoc]
        rfl

/-- **Classes of one namespace that follow each other share a node.** -/
theorem exists_node_of_run {before run after : List Definition}
    (kinds : ∀ definition ∈ before ++ run ++ after, definition.kind = .classSuite)
    (occupied : run ≠ []) (within : ∀ definition ∈ run, definition.inNamespace = some name) :
    ∃ root ∈ groupByNamespace file (before ++ run ++ after), root.kind = .namespaceSuite ∧
      root.inNamespace = some name ∧
      ∃ early late, root.children = (early ++ run ++ late).map (assignDepth 1) := by
  obtain ⟨definition, rest, rfl⟩ := List.exists_cons_of_ne_nil occupied
  obtain ⟨named, others⟩ := List.forall_mem_cons.mp within
  obtain ⟨begun, earlier, early, split, ofName, children⟩ :=
    exists_addToRoots_eq_cons file (before.foldl (addToRoots file) []) named
  obtain ⟨root, grown, stays, inRoot⟩ :=
    foldl_addToRoots_of_isNamespace file earlier ofName others
  have present : root ∈ (before ++ definition :: rest).foldl (addToRoots file) [] := by
    rw [List.foldl_append, List.foldl_cons, split, grown]
    exact List.mem_cons_self
  -- The classes that come later may be added to the root, but do not take any from it.
  obtain ⟨final, among, goesOn⟩ := exists_goesOnAs_foldl file after present
  rw [← List.foldl_append] at among
  simp only [isNamespace, Bool.and_eq_true, decide_eq_true_eq] at stays
  have kind : final.kind = .namespaceSuite := goesOn.kind.trans stays.1
  have inNamespace : final.inNamespace = some name := by
    have grouped := (foldl_addToRoots (before ++ definition :: rest ++ after) kinds []
      (by simp)).2 final among
    have id : final.id = name := goesOn.id.trans stays.2
    cases grouped with
    | classSuite other _ => simp [other] at kind
    | namespaceSuite own span occupied within => exact congrArg some id
  obtain ⟨late, more⟩ := goesOn.children
  refine ⟨final.assignDepth 0, ?_, by simpa using kind, by simpa using inNamespace, early, late, ?_⟩
  · rw [groupByNamespace, assignForestDepth_eq_map]
    exact List.mem_map_of_mem (List.mem_reverse.mpr among)
  · rw [assignDepth_children, more, inRoot, children]
    simp

end PhpTestIndex.Definition
