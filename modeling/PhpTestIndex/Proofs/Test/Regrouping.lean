import Mathlib.Data.List.Chain
import PhpTestIndex.Proofs.Correspondence
import PhpTestIndex.Proofs.Test.Lineage
import PhpTestIndex.Proofs.Test.Runs

/-! # What grouping gathers

Grouping puts each maximal run of classes of one namespace under one node, which goes from the first
class of the run to the last one, and leaves the classes as they are, depths aside
(`PhpTestIndex.Definition.GathersRuns`). Since it does not look at depths, the classes that are
taken out of a grouped forest are grouped into the same forest again
(`PhpTestIndex.Definition.groupByNamespace_gathersRuns`).
-/

namespace PhpTestIndex.Definition

variable {file name : String} {root next suite definition other : Definition}
  {roots roots' classes classes' forest : List Definition}

/-! ### Depths aside -/

/-- Two trees differ in nothing but the depths of their nodes. -/
inductive AlikeButDepth : Definition → Definition → Prop
  | mk {node other : Definition} (head : node.head = other.head)
      (children : List.Forall₂ AlikeButDepth node.children other.children) :
      AlikeButDepth node other

namespace AlikeButDepth

/-- Trees that are alike but for depths show the same at their roots. -/
theorem head (alike : AlikeButDepth definition other) : definition.head = other.head := by
  cases alike with
  | mk head _ => exact head

/-- Trees that are alike but for depths have as many children, alike in pairs. -/
theorem children (alike : AlikeButDepth definition other) :
    List.Forall₂ AlikeButDepth definition.children other.children := by
  cases alike with
  | mk _ children => exact children

theorem inNamespace (alike : AlikeButDepth definition other) :
    definition.inNamespace = other.inNamespace :=
  (congrArg Definition.inNamespace alike.head :)

theorem span (alike : AlikeButDepth definition other) : definition.span = other.span :=
  (congrArg Definition.span alike.head :)

theorem isNamespace (alike : AlikeButDepth definition other) (name : String) :
    definition.isNamespace name = other.isNamespace name :=
  (congrArg (fun head : Definition => head.isNamespace name) alike.head :)

/-- Setting depths leaves a tree alike. -/
theorem of_assignDepth (definition : Definition) (depth : Nat) :
    AlikeButDepth definition (definition.assignDepth depth) := by
  induction definition using induction_children generalizing depth with
  | step definition ih =>
      refine .mk ?_ ?_
      · rw [Definition.assignDepth_eq]
        rfl
      · rw [assignDepth_children, List.forall₂_map_right_iff, List.forall₂_same]
        exact fun child member => ih child member (depth + 1)

/-- Trees that are alike are the same after depths are set. -/
theorem assignDepth_eq (alike : AlikeButDepth definition other) (depth : Nat) :
    definition.assignDepth depth = other.assignDepth depth := by
  induction definition using induction_children generalizing other depth with
  | step definition ih =>
      have below : definition.children.map (assignDepth (depth + 1)) =
          other.children.map (assignDepth (depth + 1)) :=
        map_eq_map_of_forall₂ alike.children fun child member _ same =>
          ih child member same (depth + 1)
      calc
        definition.assignDepth depth
          = { definition.head with
              depth := depth
              children := definition.children.map (assignDepth (depth + 1)) } :=
            Definition.assignDepth_eq depth definition
        _ = { other.head with
              depth := depth
              children := other.children.map (assignDepth (depth + 1)) } := by
            rw [alike.head, below]
        _ = other.assignDepth depth := (Definition.assignDepth_eq depth other).symm

end AlikeButDepth

/-- Adding a class to roots does not look at depths. -/
theorem alike_addToRoots (alike : List.Forall₂ AlikeButDepth roots roots')
    (same : AlikeButDepth definition other) :
    List.Forall₂ AlikeButDepth (addToRoots file roots definition)
      (addToRoots file roots' other) := by
  have alone (name : String) : AlikeButDepth
      { ofNamespace name file definition.span with children := [definition] }
      { ofNamespace name file other.span with children := [other] } := by
    refine .mk ?_ (.cons same .nil)
    rw [same.span]
    rfl
  unfold addToRoots
  rw [← same.inNamespace]
  cases definition.inNamespace with
  | none => exact .cons same alike
  | some name =>
      cases alike with
      | nil => exact .cons (alone name) .nil
      | @cons root root' earlier earlier' sameRoot others =>
          dsimp only
          rw [← sameRoot.isNamespace name]
          split
          · have heads : { root.head with span := ⟨root.span.start, definition.span.stop⟩ } =
                { root'.head with span := ⟨root'.span.start, other.span.stop⟩ } := by
              rw [sameRoot.head, sameRoot.span, same.span]
            exact .cons (.mk heads (List.rel_append sameRoot.children (.cons same .nil))) others
          · exact .cons (alone name) (.cons sameRoot others)

/-- Filing classes looks at no depth: like classes filed into like forests give like forests. -/
theorem alike_foldl (alike : List.Forall₂ AlikeButDepth roots roots')
    (same : List.Forall₂ AlikeButDepth classes classes') :
    List.Forall₂ AlikeButDepth (classes.foldl (addToRoots file) roots)
      (classes'.foldl (addToRoots file) roots') := by
  induction same generalizing roots roots' with
  | nil => exact alike
  | cons first _ ih => exact ih (alike_addToRoots alike first)

/-- Classes that are alike are grouped into the same forest. -/
theorem groupByNamespace_eq_of_alike (same : List.Forall₂ AlikeButDepth classes classes') :
    groupByNamespace file classes = groupByNamespace file classes' := by
  have alike : List.Forall₂ AlikeButDepth (classes.foldl (addToRoots file) []).reverse
      (classes'.foldl (addToRoots file) []).reverse :=
    List.forall₂_reverse_iff.mpr (alike_foldl .nil same)
  rw [groupByNamespace, groupByNamespace, assignForestDepth_eq_map, assignForestDepth_eq_map]
  exact map_eq_map_of_forall₂ alike fun _ _ _ sameRoot => sameRoot.assignDepth_eq 0

/-- The classes of a grouped forest are those that were grouped, depths aside. -/
theorem forall₂_members_groupByNamespace (file : String)
    (kinds : ∀ suite ∈ classes, suite.kind = .classSuite) :
    List.Forall₂ AlikeButDepth classes ((groupByNamespace file classes).flatMap members) := by
  rw [flatMap_members_groupByNamespace kinds, List.forall₂_map_right_iff, List.forall₂_same]
  exact fun suite _ => .of_assignDepth suite suite.groupedDepth

/-! ### Neighbouring roots -/

/-- Two nodes are not nodes of one namespace. -/
def Apart (root next : Definition) : Prop :=
  ∀ name, root.isNamespace name → ¬ next.isNamespace name

theorem Apart.symm (apart : Apart root next) : Apart next root :=
  fun name here there => apart name there here

/-- A class that stands at the top is apart from whatever is beside it. -/
theorem apart_of_classSuite (kind : definition.kind = .classSuite) (root : Definition) :
    Apart definition root := by
  intro name isNamespace
  simp [Definition.isNamespace, kind] at isNamespace

/-- Adding a class keeps neighbouring roots apart: a class of the namespace of the last root comes
under that root. -/
theorem isChain_addToRoots (kind : definition.kind = .classSuite)
    (apart : roots.IsChain Apart) : (addToRoots file roots definition).IsChain Apart := by
  unfold addToRoots
  cases definition.inNamespace with
  | none => exact apart.cons fun root _ => apart_of_classSuite kind root
  | some name =>
      dsimp only
      split
      · exact .singleton _
      · rename_i root earlier
        obtain ⟨neighbour, others⟩ := List.isChain_cons.mp apart
        by_cases same : root.isNamespace name
        · rw [if_pos same]
          exact others.cons neighbour
        · rw [if_neg same]
          refine .cons_cons ?_ apart
          intro other isNamespace isSame
          have equal : name = other := of_decide_eq_true isNamespace
          exact same (equal ▸ isSame)

/-- Filing classes one after the other never puts two nodes of one namespace beside each other. -/
theorem isChain_foldl (kinds : ∀ suite ∈ classes, suite.kind = .classSuite)
    (apart : roots.IsChain Apart) : (classes.foldl (addToRoots file) roots).IsChain Apart := by
  induction classes generalizing roots with
  | nil => exact apart
  | cons suite rest ih =>
      obtain ⟨kind, others⟩ := List.forall_mem_cons.mp kinds
      exact ih others (isChain_addToRoots kind apart)

/-- In a grouped forest no two neighbours are nodes of one namespace, so each node gathers as much
as it can. -/
theorem isChain_groupByNamespace (kinds : ∀ suite ∈ classes, suite.kind = .classSuite) :
    (groupByNamespace file classes).IsChain Apart := by
  have apart : (classes.foldl (addToRoots file) []).IsChain Apart := isChain_foldl kinds .nil
  have turned : (classes.foldl (addToRoots file) []).reverse.IsChain Apart :=
    List.isChain_reverse.mpr (apart.imp fun _ _ => Apart.symm)
  rw [groupByNamespace, assignForestDepth_eq_map, List.isChain_map]
  refine turned.imp fun root next neighbours name => ?_
  simpa [isNamespace] using neighbours name

/-! ### Runs -/

/-- A node is made for a namespace when its first class is filed, so it is never empty. -/
theorem IsRoot.members_ne_nil (grouped : IsRoot file root) : root.members ≠ [] := by
  cases grouped with
  | classSuite kind _ => simp [members, kind]
  | namespaceSuite name span occupied _ => simpa [members, ofNamespace] using occupied

/-- A class under a root is of the namespace of which the root is the node. -/
theorem IsRoot.inNamespace_eq_some_iff (grouped : IsRoot file root)
    (member : suite ∈ root.members) :
    suite.inNamespace = some name ↔ root.isNamespace name := by
  cases grouped with
  | classSuite kind outside =>
      simp only [members, kind, reduceCtorEq, ↓reduceIte, List.mem_singleton] at member
      simp [member, outside, isNamespace, kind]
  | namespaceSuite own span _ within =>
      simp only [members, ofNamespace, ↓reduceIte] at member
      rw [(within suite member).2, Option.some_inj]
      exact (decide_eq_true_iff (p := own = name)).symm

/-- A class without a namespace that stands for a root is the root. -/
theorem IsRoot.eq_of_outside (grouped : IsRoot file root) (member : suite ∈ root.members)
    (outside : suite.inNamespace = none) : suite = root := by
  cases grouped with
  | classSuite kind _ =>
      simpa only [members, kind, reduceCtorEq, ↓reduceIte, List.mem_singleton] using member
  | namespaceSuite own span _ within =>
      simp only [members, ofNamespace, ↓reduceIte] at member
      cases outside.symm.trans (within suite member).2

/-- The last class of some roots stands under the last root. -/
theorem exists_getLast?_of_members (grouped : ∀ root ∈ forest, IsRoot file root)
    (ends : (forest.flatMap members).getLast? = some suite) :
    ∃ root, forest.getLast? = some root ∧ suite ∈ root.members := by
  rcases List.eq_nil_or_concat' forest with rfl | ⟨before, root, rfl⟩
  · cases ends
  · have occupied : root.members ≠ [] := (grouped root (by simp)).members_ne_nil
    rw [List.flatMap_append, List.flatMap_singleton, List.getLast?_append_of_ne_nil _ occupied]
      at ends
    exact ⟨root, List.getLast?_concat, List.mem_of_getLast? ends⟩

/-- The first class of some roots stands under the first root. -/
theorem exists_head?_of_members (grouped : ∀ root ∈ forest, IsRoot file root)
    (starts : (forest.flatMap members).head? = some suite) :
    ∃ root, forest.head? = some root ∧ suite ∈ root.members := by
  cases forest with
  | nil => cases starts
  | cons root after =>
      have occupied : root.members ≠ [] := (grouped root List.mem_cons_self).members_ne_nil
      rw [List.flatMap_cons, List.head?_append_of_ne_nil _ occupied] at starts
      exact ⟨root, rfl, List.mem_of_head? starts⟩

/-- Some classes, which stand between others, are a maximal run of classes of a namespace. -/
structure IsRun (name : String) (early run late : List Definition) : Prop where
  occupied : run ≠ []
  within : ∀ suite ∈ run, suite.inNamespace = some name
  begins : ∀ suite, early.getLast? = some suite → suite.inNamespace ≠ some name
  ends : ∀ suite, late.head? = some suite → suite.inNamespace ≠ some name

/-- A forest has every maximal run of classes of one namespace under a node of its own. -/
structure GathersRuns (file : String) (classes forest : List Definition) : Prop where
  /-- The classes of the forest are the given ones in order, depths aside. -/
  kept : List.Forall₂ AlikeButDepth classes (forest.flatMap members)
  /-- There are no other roots than classes without a namespace and nodes of namespaces. -/
  roots : ∀ root ∈ forest, IsRoot file root
  outside : ∀ suite ∈ forest.flatMap members, suite.inNamespace = none → suite ∈ forest
  runs : ∀ before root after name, forest = before ++ root :: after → root.isNamespace name →
    ∃ early run late, classes = early ++ (run ++ late) ∧ IsRun name early run late ∧
      List.Forall₂ AlikeButDepth early (before.flatMap members) ∧
      List.Forall₂ AlikeButDepth run root.children ∧
      ∃ first last, run.head? = some first ∧ run.getLast? = some last ∧
        root.span = ⟨first.span.start, last.span.stop⟩
  apart : forest.IsChain Apart
  depths : ∀ lineage ∈ forestLineages [] forest, lineage.node.depth = lineage.above.length

/-- Where the classes of a node of a namespace come from, they are a maximal run. -/
theorem isRun_of_isNamespace {before after early run late : List Definition}
    (grouped : ∀ node ∈ before ++ root :: after, IsRoot file node)
    (apart : (before ++ root :: after).IsChain Apart) (isNamespace : root.isNamespace name)
    (ofBefore : List.Forall₂ AlikeButDepth early (before.flatMap members))
    (ofRoot : List.Forall₂ AlikeButDepth run root.members)
    (ofAfter : List.Forall₂ AlikeButDepth late (after.flatMap members)) :
    IsRun name early run late := by
  obtain ⟨groupedBefore, groupedRest⟩ := List.forall_mem_append.mp grouped
  obtain ⟨groupedRoot, groupedAfter⟩ := List.forall_mem_cons.mp groupedRest
  obtain ⟨_, following, preceding⟩ := List.isChain_append.mp apart
  have succeeding := (List.isChain_cons.mp following).1
  refine ⟨?_, ?_, ?_, ?_⟩
  · rintro rfl
    exact groupedRoot.members_ne_nil (List.forall₂_nil_left_iff.mp ofRoot)
  · intro suite member
    obtain ⟨other, present, alike⟩ := exists_left_of_mem_right ofRoot.flip member
    exact alike.inNamespace.trans ((groupedRoot.inNamespace_eq_some_iff present).mpr isNamespace)
  · intro suite ends ofName
    obtain ⟨other, last, alike⟩ := exists_getLast?_left ofBefore.flip ends
    obtain ⟨neighbour, isLast, present⟩ := exists_getLast?_of_members groupedBefore last
    have isRoot := groupedBefore neighbour (List.mem_of_getLast? isLast)
    have same := (isRoot.inNamespace_eq_some_iff present).mp (alike.inNamespace.symm.trans ofName)
    exact preceding neighbour isLast root rfl name same isNamespace
  · intro suite starts ofName
    obtain ⟨other, first, alike⟩ := exists_head?_left ofAfter.flip starts
    obtain ⟨neighbour, isFirst, present⟩ := exists_head?_of_members groupedAfter first
    have isRoot := groupedAfter neighbour (List.mem_of_head? isFirst)
    have same := (isRoot.inNamespace_eq_some_iff present).mp (alike.inNamespace.symm.trans ofName)
    exact succeeding neighbour isFirst name isNamespace same

/-- The node of a namespace stands for a maximal run of the classes that were grouped. -/
theorem exists_isRun_of_groupByNamespace {before after : List Definition}
    (kinds : ∀ suite ∈ classes, suite.kind = .classSuite)
    (split : groupByNamespace file classes = before ++ root :: after)
    (isNamespace : root.isNamespace name) :
    ∃ early run late, classes = early ++ (run ++ late) ∧ IsRun name early run late ∧
      List.Forall₂ AlikeButDepth early (before.flatMap members) ∧
      List.Forall₂ AlikeButDepth run root.children ∧
      ∃ first last, run.head? = some first ∧ run.getLast? = some last ∧
        root.span = ⟨first.span.start, last.span.stop⟩ := by
  have kind : root.kind = .namespaceSuite := by
    simp only [Definition.isNamespace, Bool.and_eq_true, decide_eq_true_eq] at isNamespace
    exact isNamespace.1
  have inRoot : root.members = root.children := if_pos kind
  have kept : List.Forall₂ AlikeButDepth classes
      (before.flatMap members ++ (root.members ++ after.flatMap members)) := by
    simpa [split] using forall₂_members_groupByNamespace file kinds
  obtain ⟨early, rest, rfl, ofBefore, ofRest⟩ := exists_append_of_forall₂ kept
  obtain ⟨run, late, rfl, ofRoot, ofAfter⟩ := exists_append_of_forall₂ ofRest
  have isRun : IsRun name early run late := by
    have grouped : ∀ node ∈ groupByNamespace file (early ++ (run ++ late)), IsRoot file node :=
      fun node member => isRoot_of_mem_groupByNamespace kinds member
    have apart : (groupByNamespace file (early ++ (run ++ late))).IsChain Apart :=
      isChain_groupByNamespace kinds
    rw [split] at grouped apart
    exact isRun_of_isNamespace grouped apart isNamespace ofBefore ofRoot ofAfter
  have present : root ∈ groupByNamespace file (early ++ (run ++ late)) := by simp [split]
  obtain ⟨first, last, starts, ends, span⟩ :=
    spansClasses_of_mem_groupByNamespace kinds present kind
  rw [inRoot] at ofRoot
  obtain ⟨opening, begins, sameStart⟩ := exists_head?_left ofRoot starts
  obtain ⟨closing, finishes, sameStop⟩ := exists_getLast?_left ofRoot ends
  refine ⟨early, run, late, rfl, isRun, ofBefore, ofRoot, opening, closing, begins, finishes, ?_⟩
  rw [span, sameStart.span, sameStop.span]

/-- **Grouping gathers maximal runs and loses nothing.** Taking the classes out of the grouped
forest gives back the classes with nothing changed but depths; each node of a namespace holds a
maximal run of the classes, from the start of the first to the end of the last one; and what was
taken out is grouped into the same forest again. -/
theorem groupByNamespace_gathersRuns (file : String)
    (kinds : ∀ suite ∈ classes, suite.kind = .classSuite) :
    GathersRuns file classes (groupByNamespace file classes) ∧
      groupByNamespace file ((groupByNamespace file classes).flatMap members) =
        groupByNamespace file classes := by
  have kept := forall₂_members_groupByNamespace file kinds
  refine ⟨⟨kept, fun root member => isRoot_of_mem_groupByNamespace kinds member, ?_,
    fun before root after name split isNamespace =>
      exists_isRun_of_groupByNamespace kinds split isNamespace,
    isChain_groupByNamespace kinds, fun lineage member => depth_of_mem_forestLineages member⟩,
    (groupByNamespace_eq_of_alike kept).symm⟩
  intro suite member outside
  obtain ⟨root, present, ofRoot⟩ := List.mem_flatMap.mp member
  have itself := (isRoot_of_mem_groupByNamespace kinds present).eq_of_outside ofRoot outside
  exact itself ▸ present

/-- Classes of two namespaces and one without, with a method in the second one; a namespace comes
back after the class without a namespace, and depths are not set. -/
def reentered : List Definition :=
  let span (line : UInt32) : Span := ⟨⟨line, 0, 0⟩, ⟨line + 1, 0, 0⟩⟩
  let suite (inNamespace : Option String) (name : String) (line : UInt32) : Definition :=
    { ofClass inNamespace name "Mixed.php" (span line) with depth := 7 }
  let second := suite (some "A") "SecondTest" 5
  [suite (some "A") "FirstTest" 2,
    { second with children := [member second .method "test_it" (span 6)] },
    suite none "GlobalTest" 9, suite (some "A") "AgainTest" 12, suite (some "B") "OtherTest" 15]

/-- A namespace that is left for a class outside all namespaces, and then entered again, gets a
second node. -/
theorem reentered_gathersRuns :
    (groupByNamespace "Mixed.php" reentered).map
        (fun root => (root.id, root.span.start.line, root.span.stop.line, root.members.map label)) =
      [("A", 2, 6, ["FirstTest", "SecondTest"]), ("GlobalTest", 9, 10, ["GlobalTest"]),
        ("A", 12, 13, ["AgainTest"]), ("B", 15, 16, ["OtherTest"])] ∧
    GathersRuns "Mixed.php" reentered (groupByNamespace "Mixed.php" reentered) ∧
      groupByNamespace "Mixed.php" ((groupByNamespace "Mixed.php" reentered).flatMap members) =
        groupByNamespace "Mixed.php" reentered :=
  ⟨by decide +kernel, groupByNamespace_gathersRuns "Mixed.php" (by decide +kernel)⟩

end PhpTestIndex.Definition
