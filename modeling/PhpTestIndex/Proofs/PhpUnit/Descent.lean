import Mathlib.Data.List.Perm.Subperm
import PhpTestIndex.PhpUnit.Hierarchy

/-! # Descent from a test case

The parents of the classes of a file are any finite map: they may form a cycle, and a parent may be
a class of another file.  Following them from a class visits no class twice, so it ends, and it
finds a test case exactly if the chain of the parents has one
(`PhpTestIndex.PhpUnit.Hierarchy.extendsTestCase_iff_exists_chain`).

A class that is met again hides nothing. Every class that was visited has a parent that is no test
case and that was visited too, or is about to be (`Hierarchy.Explored`), so at the end the visited
classes are closed under parents.
-/

namespace PhpTestIndex.PhpUnit.Hierarchy

variable {hierarchy : Hierarchy} {visited : List String} {name parent : String}

/-- The file says that a class has a parent. -/
def HasParent (hierarchy : Hierarchy) (child parent : String) : Prop :=
  hierarchy.lookup child = some (some parent)

/-- A class has one parent at most, as a hierarchy is searched from the front. -/
theorem HasParent.eq {first second : String} (one : hierarchy.HasParent name first)
    (other : hierarchy.HasParent name second) : first = second := by
  unfold HasParent at one other
  rw [one] at other
  injection other with same
  injection same

/-! ### One step of the way -/

theorem ascend_of_mem (member : name ∈ visited) :
    hierarchy.ascend visited name = (false, visited) := by
  rw [ascend, dif_pos (by simpa using member)]

/-- The search stops at a class without a known parent, after visiting it. -/
theorem ascend_of_orphan (fresh : name ∉ visited)
    (orphan : ∀ parent, ¬ hierarchy.HasParent name parent) :
    hierarchy.ascend visited name = (false, name :: visited) := by
  rw [ascend, dif_neg (by simpa using fresh)]
  split
  · rename_i parent entered
    exact absurd entered (orphan parent)
  · rfl

/-- At a class with a parent, the search is over if that is a test case, and goes on with it
otherwise. -/
theorem ascend_of_hasParent (fresh : name ∉ visited) (child : hierarchy.HasParent name parent) :
    hierarchy.ascend visited name =
      if isTestCaseName parent then (true, name :: visited)
      else hierarchy.ascend (name :: visited) parent := by
  rw [ascend, dif_neg (by simpa using fresh)]
  split
  · rename_i found entered
    rw [HasParent.eq child entered]
  · rename_i missing
    exact absurd child (missing parent)

/-- To prove something of following the parents, prove it for each way in which a step ends or goes
on. -/
theorem ascend_induction (hierarchy : Hierarchy) {motive : List String → String → Prop}
    (met : ∀ visited name, name ∈ visited → motive visited name)
    (orphan : ∀ visited name, name ∉ visited →
      (∀ parent, ¬ hierarchy.HasParent name parent) → motive visited name)
    (found : ∀ visited name parent, name ∉ visited → hierarchy.HasParent name parent →
      isTestCaseName parent = true → motive visited name)
    (climb : ∀ visited name parent, name ∉ visited → hierarchy.HasParent name parent →
      isTestCaseName parent = false → motive (name :: visited) parent → motive visited name)
    (visited : List String) (name : String) : motive visited name := by
  induction visited, name using ascend.induct hierarchy with
  | case1 visited name member => exact met visited name (by simpa using member)
  | case2 visited name fresh parent entered _ isTestCase =>
      exact found visited name parent (by simpa using fresh) entered isTestCase
  | case3 visited name fresh parent entered _ other step =>
      exact climb visited name parent (by simpa using fresh) entered (by simpa using other) step
  | case4 visited name fresh missing =>
      exact orphan visited name (by simpa using fresh) missing

/-! ### What is found is there -/

/-- A chain of parents of some length at least one that ends in a class with the name of a test
case. -/
def ReachesTestCase (hierarchy : Hierarchy) (name : String) : Prop :=
  ∃ (length : Nat) (chain : Nat → String), 1 ≤ length ∧ chain 0 = name ∧
    (∀ index < length, hierarchy.HasParent (chain index) (chain (index + 1))) ∧
    "TestCase".toList <:+ Php.shortName (chain length).toList

/-- A class is a test case by its name if the last part of the name ends in `TestCase`. -/
theorem isTestCaseName_iff (name : String) :
    isTestCaseName name = true ↔ "TestCase".toList <:+ Php.shortName name.toList :=
  List.isSuffixOf_iff_suffix

/-- A class whose parent is a test case reaches one in one step. -/
theorem reachesTestCase_of_parent (child : hierarchy.HasParent name parent)
    (isTestCase : isTestCaseName parent = true) : hierarchy.ReachesTestCase name := by
  refine ⟨1, fun index => if index = 0 then name else parent, Nat.le_refl 1, rfl, ?_, ?_⟩
  · intro index below
    obtain rfl : index = 0 := by omega
    exact child
  · exact (isTestCaseName_iff parent).mp isTestCase

/-- A class whose parent reaches a test case reaches it in one step more. -/
theorem ReachesTestCase.cons (child : hierarchy.HasParent name parent)
    (reaches : hierarchy.ReachesTestCase parent) : hierarchy.ReachesTestCase name := by
  obtain ⟨length, chain, _, start, linked, last⟩ := reaches
  refine ⟨length + 1, fun | 0 => name | index + 1 => chain index, by omega, rfl, ?_, last⟩
  intro index below
  cases index with
  | zero =>
      show hierarchy.HasParent name (chain 0)
      rw [start]
      exact child
  | succ index => exact linked index (by omega)

/-- What the search reports is true: every step that it takes is a step of a chain. -/
theorem reachesTestCase_of_ascend (visited : List String) (name : String)
    (arrived : (hierarchy.ascend visited name).1 = true) : hierarchy.ReachesTestCase name := by
  induction visited, name using ascend_induction hierarchy with
  | met visited name member =>
      rw [ascend_of_mem member] at arrived
      contradiction
  | orphan visited name fresh missing =>
      rw [ascend_of_orphan fresh missing] at arrived
      contradiction
  | found visited name parent _ child isTestCase =>
      exact reachesTestCase_of_parent child isTestCase
  | climb visited name parent fresh child other step =>
      rw [ascend_of_hasParent fresh child, other] at arrived
      exact .cons child (step arrived)

/-! ### What is there is found -/

/-- The parents of the visited classes are known, and none is a test case. -/
def Explored (hierarchy : Hierarchy) (visited known : List String) : Prop :=
  ∀ child ∈ visited, ∀ parent, hierarchy.HasParent child parent →
    isTestCaseName parent = false ∧ parent ∈ known

/-- Knowing more classes does not undo what was explored. -/
theorem Explored.mono {known wider : List String} (explored : hierarchy.Explored visited known)
    (included : known ⊆ wider) : hierarchy.Explored visited wider := by
  intro child member parent descends
  have ⟨other, present⟩ := explored child member parent descends
  exact ⟨other, included present⟩

/-- A class whose parent is known and is no test case can be added to what was explored. -/
theorem Explored.cons {known : List String} (explored : hierarchy.Explored visited known)
    (newest : ∀ parent, hierarchy.HasParent name parent →
      isTestCaseName parent = false ∧ parent ∈ known) :
    hierarchy.Explored (name :: visited) known := by
  intro child member parent descends
  rcases List.mem_cons.mp member with rfl | member
  · exact newest parent descends
  · exact explored child member parent descends

/-- The search forgets no class that it has visited. -/
theorem subset_ascend (visited : List String) (name : String) :
    name :: visited ⊆ (hierarchy.ascend visited name).2 := by
  induction visited, name using ascend_induction hierarchy with
  | met visited name member =>
      rw [ascend_of_mem member]
      exact List.cons_subset.mpr ⟨member, List.Subset.refl _⟩
  | orphan visited name fresh missing =>
      rw [ascend_of_orphan fresh missing]
      exact List.Subset.refl _
  | found visited name parent fresh child isTestCase =>
      rw [ascend_of_hasParent fresh child, isTestCase]
      exact List.Subset.refl _
  | climb visited name parent fresh child other step =>
      rw [ascend_of_hasParent fresh child, other]
      exact List.Subset.trans (List.subset_cons_self _ _) step

/-- If no test case is found, the visited classes are closed under parents. -/
theorem explored_of_ascend (visited : List String) (name : String)
    (missed : (hierarchy.ascend visited name).1 = false)
    (explored : hierarchy.Explored visited (name :: visited)) :
    hierarchy.Explored (hierarchy.ascend visited name).2 (hierarchy.ascend visited name).2 := by
  induction visited, name using ascend_induction hierarchy with
  | met visited name member =>
      rw [ascend_of_mem member]
      exact explored.mono (List.cons_subset.mpr ⟨member, List.Subset.refl _⟩)
  | orphan visited name fresh missing =>
      rw [ascend_of_orphan fresh missing]
      exact explored.cons fun parent descends => absurd descends (missing parent)
  | found visited name parent fresh child isTestCase =>
      rw [ascend_of_hasParent fresh child, isTestCase] at missed
      contradiction
  | climb visited name parent fresh child other step =>
      rw [ascend_of_hasParent fresh child, other] at missed ⊢
      apply step missed
      apply (explored.mono (List.subset_cons_self parent _)).cons
      intro found descends
      rw [descends.eq child]
      exact ⟨other, List.mem_cons_self⟩

/-- A chain that starts among explored classes never leaves them, by induction on its length. -/
theorem chain_mem_of_explored (explored : hierarchy.Explored visited visited)
    {length : Nat} {chain : Nat → String} (start : chain 0 ∈ visited)
    (linked : ∀ index < length, hierarchy.HasParent (chain index) (chain (index + 1))) :
    ∀ index ≤ length, chain index ∈ visited := by
  intro index within
  induction index with
  | zero => exact start
  | succ index previous =>
      exact (explored _ (previous (by omega)) _ (linked index (by omega))).2

/-- If some chain reaches a test case, the search finds one: otherwise the classes that it has
visited would hold the whole chain and none would have a test case for a parent. -/
theorem ascend_of_reachesTestCase (reaches : hierarchy.ReachesTestCase name) :
    (hierarchy.ascend [] name).1 = true := by
  by_contra missed
  have explored := explored_of_ascend [] name (by simpa using missed) (by simp [Explored])
  obtain ⟨length, chain, positive, start, linked, last⟩ := reaches
  have entered : chain 0 ∈ (hierarchy.ascend [] name).2 := by
    rw [start]
    exact subset_ascend [] name List.mem_cons_self
  obtain ⟨before, rfl⟩ : ∃ before, length = before + 1 := ⟨length - 1, by omega⟩
  have member := chain_mem_of_explored explored entered linked before (by omega)
  have other := (explored _ member _ (linked before (by omega))).1
  rw [(isTestCaseName_iff _).mpr last] at other
  contradiction

/-! ### How far the way goes -/

/-- The classes that were visited are different ones, and all but the latest have a parent. -/
structure OnTheWay (hierarchy : Hierarchy) (visited : List String) : Prop where
  nodup : visited.Nodup
  known : ∀ child ∈ visited, ∃ parent, hierarchy.HasParent child parent

/-- A new class with a parent goes on the way. -/
theorem OnTheWay.cons (way : hierarchy.OnTheWay visited) (fresh : name ∉ visited)
    (child : hierarchy.HasParent name parent) : hierarchy.OnTheWay (name :: visited) := by
  constructor
  · exact List.nodup_cons.mpr ⟨fresh, way.nodup⟩
  · intro other member
    rcases List.mem_cons.mp member with rfl | member
    · exact ⟨parent, child⟩
    · exact way.known other member

/-- There are no more classes on the way than the hierarchy has entries. -/
theorem OnTheWay.length_le (way : hierarchy.OnTheWay visited) :
    visited.length ≤ hierarchy.length := by
  have entries : visited ⊆ hierarchy.map Prod.fst := by
    intro child member
    obtain ⟨parent, descends⟩ := way.known child member
    obtain ⟨before, after, rfl, _⟩ := List.lookup_eq_some_iff.mp descends
    simp
  have bounded := (way.nodup.subperm entries).length_le
  rwa [List.length_map] at bounded

/-- A class is visited once, and only the last one may be unknown. -/
theorem visited_of_ascend (visited : List String) (name : String)
    (way : hierarchy.OnTheWay visited) :
    (hierarchy.ascend visited name).2.Nodup ∧
      (hierarchy.ascend visited name).2.length ≤ hierarchy.length + 1 := by
  induction visited, name using ascend_induction hierarchy with
  | met visited name member =>
      rw [ascend_of_mem member]
      exact ⟨way.nodup, Nat.le_succ_of_le way.length_le⟩
  | orphan visited name fresh missing =>
      rw [ascend_of_orphan fresh missing]
      exact ⟨List.nodup_cons.mpr ⟨fresh, way.nodup⟩, Nat.succ_le_succ way.length_le⟩
  | found visited name parent fresh child isTestCase =>
      rw [ascend_of_hasParent fresh child, isTestCase]
      have longer := way.cons fresh child
      exact ⟨longer.nodup, Nat.le_succ_of_le longer.length_le⟩
  | climb visited name parent fresh child other step =>
      rw [ascend_of_hasParent fresh child, other]
      exact step (way.cons fresh child)

/-- **Descent.** Whatever cycles the parents form and wherever they leave the file, following them
from a class visits no class twice, so it ends, and it finds a test case exactly if there is a chain
of at least one parent that ends in a class whose short name ends with `TestCase`. -/
theorem extendsTestCase_iff_exists_chain (hierarchy : Hierarchy) (name : String) :
    (hierarchy.extendsTestCase name = true ↔
      ∃ (length : Nat) (chain : Nat → String), 1 ≤ length ∧ chain 0 = name ∧
        (∀ index < length, hierarchy.lookup (chain index) = some (some (chain (index + 1)))) ∧
        "TestCase".toList <:+ Php.shortName (chain length).toList) ∧
      (hierarchy.ascend [] name).2.Nodup ∧
      (hierarchy.ascend [] name).2.length ≤ hierarchy.length + 1 := by
  constructor
  · constructor
    · intro arrived
      exact reachesTestCase_of_ascend [] name arrived
    · intro reaches
      exact ascend_of_reachesTestCase reaches
  · apply visited_of_ascend [] name
    exact ⟨List.nodup_nil, by simp⟩

example :
    extendsTestCase [("A", some "B"), ("B", some "C"), ("C", some "A")] "A" = false ∧
      extendsTestCase [("A", some "B"), ("B", some "Other\\BaseTestCase")] "A" = true := by
  decide +kernel

end PhpTestIndex.PhpUnit.Hierarchy
