import Mathlib.Data.List.Lex
import Mathlib.Data.List.Sort
import Mathlib.Data.String.Basic
import PhpTestIndex.Path

/-! # The order of paths

Paths are compared step by step (`PhpTestIndex.Path.Before`): the root stands before `.`, `.` before
`..`, and `..` before names. Sorting some paths gives a list in which each stands before those after
it (`PhpTestIndex.Path.pairwise_sorted`), with the same steps as before
(`PhpTestIndex.Path.mem_steps_sorted_iff`), and these two determine the steps of the list
(`PhpTestIndex.Path.map_steps_eq_of_mem_iff`).
-/

namespace PhpTestIndex.Path

/-! ### Steps -/

/-- A step that a path takes. -/
inductive Step
  | root
  | here
  | above
  | name (text : String)
deriving DecidableEq

namespace Step

/-- The step that a component stands for. -/
def ofComponent (component : String) : Step :=
  if component = "." then here else if component = ".." then above else name component

/-- The rank of a kind of step. -/
def rank : Step → Nat
  | root => 0
  | here => 1
  | above => 2
  | name _ => 3

/-- A step stands before another one: by its rank, and among names by their texts. -/
inductive Before : Step → Step → Prop
  | rank {step next : Step} (lower : step.rank < next.rank) : Before step next
  | name {text next : String} (lower : text < next) : Before (name text) (name next)

/-- A text that steps can be told from and ordered by. -/
def key : Step → String
  | root => "0"
  | here => "1"
  | above => "2"
  | name text => "3" ++ text

/-- The keys of steps are ordered as the steps are. -/
theorem key_lt_iff (step next : Step) : step.key < next.key ↔ step.Before next := by
  have ofRank : step.Before next ↔ step.rank < next.rank ∨
      ∃ text text', step = name text ∧ next = name text' ∧ text < text' := by
    constructor
    · rintro (lower | lower)
      · exact .inl lower
      · exact .inr ⟨_, _, rfl, rfl, lower⟩
    · rintro (lower | ⟨text, text', rfl, rfl, lower⟩)
      · exact .rank lower
      · exact .name lower
  rw [ofRank, String.lt_iff_toList_lt]
  cases step with
  | name text =>
      cases next with
      | name text' => simp [key, rank, ← String.lt_iff_toList_lt]
      | _ => simp [key, rank, List.cons_lt_cons_iff]
  | _ => cases next <;> simp [key, rank, List.cons_lt_cons_iff]

/-- The key of a step tells the step. -/
theorem key_injective : Function.Injective key := by
  intro step next same
  have letters := congrArg String.toList same
  cases step <;> cases next <;> simp [key] at letters ⊢
  exact String.toList_inj.mp letters

/-- The key of a component is its rank, and for a name the name after it. -/
theorem key_ofComponent (component : String) :
    (ofComponent component).key =
      if component = "." then "1" else if component = ".." then "2" else "3" ++ component := by
  unfold ofComponent
  split
  · rfl
  · split <;> rfl

end Step

/-- The steps of a path. -/
def steps (path : String) : List Step :=
  (if isAbsolute path then [.root] else []) ++ (components path).map Step.ofComponent

/-- A path stands before another one, which goes on where it ends or takes a later step where they
part. -/
def Before (path other : String) : Prop :=
  List.Lex Step.Before (steps path) (steps other)

/-! ### Keys -/

/-- Paths are ordered by the keys of their steps. -/
theorem orderKey_eq (path : String) : orderKey path = (steps path).map Step.key := by
  have single : (if isAbsolute path then [Step.root] else []).map Step.key =
      if isAbsolute path then ["0"] else [] := by
    split <;> rfl
  rw [orderKey, steps, List.map_append, single, List.map_map]
  congr 1
  exact List.map_congr_left fun component _ => (Step.key_ofComponent component).symm

theorem orderKey_eq_iff {path other : String} :
    orderKey path = orderKey other ↔ steps path = steps other := by
  rw [orderKey_eq, orderKey_eq, (List.map_injective_iff.mpr Step.key_injective).eq_iff]

/-- Lists of keys are ordered as the lists of steps are. -/
theorem lex_key_iff (steps next : List Step) :
    List.Lex (· < ·) (steps.map Step.key) (next.map Step.key) ↔
      List.Lex Step.Before steps next := by
  induction steps generalizing next with
  | nil => cases next <;> simp
  | cons step steps ih =>
      cases next with
      | nil => simp
      | cons first next =>
          simp only [List.map_cons, List.cons_lex_cons_iff, ih, Step.key_lt_iff,
            Step.key_injective.eq_iff]

/-- A path stands before another one exactly if its key does. -/
theorem orderKey_lt_iff {path other : String} :
    orderKey path < orderKey other ↔ Before path other := by
  rw [Before, ← lex_key_iff, ← orderKey_eq, ← orderKey_eq]
  exact List.lt_iff_lex_lt _ _

/-- A path may stand before another one unless its key comes later. -/
theorem precedes_iff (path other : String) :
    precedes path other = true ↔ orderKey path ≤ orderKey other := by
  have later : (orderKey other).lex (orderKey path) (fun part next => decide (part < next)) = true ↔
      orderKey other < orderKey path := by
    rw [List.lex_eq_true_iff_lex]
    simp only [decide_eq_true_eq]
    exact (List.lt_iff_lex_lt _ _).symm
  rw [precedes, Bool.not_eq_true', ← Bool.not_eq_true, later, not_lt]

/-! ### Sorting -/

/-- After sorting, no path stands behind one with a later key. -/
theorem pairwise_mergeSort (paths : List String) :
    (paths.mergeSort precedes).Pairwise fun path other => orderKey path ≤ orderKey other := by
  have transitive (a b c : String) (first : precedes a b = true) (second : precedes b c = true) :
      precedes a c = true := by
    rw [precedes_iff] at first second ⊢
    exact first.trans second
  have total (a b : String) : (precedes a b || precedes b a) = true := by
    rw [Bool.or_eq_true, precedes_iff, precedes_iff]
    exact le_total _ _
  exact (List.pairwise_mergeSort transitive total paths).imp fun {path other} before =>
    (precedes_iff path other).mp before

/-- Dropping repeated paths leaves the others in their order. -/
theorem dropRepeated_sublist (path : String) (rest : List String) :
    (dropRepeated path rest).Sublist (path :: rest) := by
  induction rest generalizing path with
  | nil => exact List.Sublist.refl _
  | cons next rest ih =>
      rw [dropRepeated]
      split
      · exact (ih path).trans ((List.sublist_cons_self next rest).cons_cons path)
      · exact (ih next).cons_cons path

/-- The first of some paths with the same steps stays. -/
theorem mem_orderKey_dropRepeated_iff (path : String) (rest : List String) (key : List String) :
    key ∈ (dropRepeated path rest).map orderKey ↔ key ∈ (path :: rest).map orderKey := by
  induction rest generalizing path with
  | nil => rfl
  | cons next rest ih =>
      rw [dropRepeated]
      split
      · rename_i same
        rw [ih]
        simp [same]
      · simp only [List.map_cons, List.mem_cons, ih]

/-- After dropping repeated paths from sorted ones, every key is later than those before it. -/
theorem pairwise_dropRepeated {path : String} {rest : List String}
    (ordered : (path :: rest).Pairwise fun path other => orderKey path ≤ orderKey other) :
    (dropRepeated path rest).Pairwise fun path other => orderKey path < orderKey other := by
  induction rest generalizing path with
  | nil => exact List.pairwise_singleton _ _
  | cons next rest ih =>
      obtain ⟨first, later⟩ := List.pairwise_cons.mp ordered
      rw [dropRepeated]
      split
      · apply ih
        have smaller := fun other member => first other (List.mem_cons_of_mem _ member)
        exact List.pairwise_cons.mpr ⟨smaller, (List.pairwise_cons.mp later).2⟩
      · rename_i different
        refine List.pairwise_cons.mpr ⟨fun other member => ?_, ih later⟩
        have afterFirst : orderKey path < orderKey next :=
          lt_of_le_of_ne (first next List.mem_cons_self) different
        rcases List.mem_cons.mp ((dropRepeated_sublist next rest).mem member) with rfl | among
        · exact afterFirst
        · exact afterFirst.trans_le ((List.pairwise_cons.mp later).1 other among)

/-- Of some sorted paths, each stands before those after it. -/
theorem pairwise_sorted (paths : List String) : (sorted paths).Pairwise Before := by
  have ordered := pairwise_mergeSort paths
  unfold sorted
  cases sorts : paths.mergeSort precedes with
  | nil => exact List.Pairwise.nil
  | cons path rest =>
      rw [sorts] at ordered
      exact (pairwise_dropRepeated ordered).imp orderKey_lt_iff.mp

/-- Sorting lists no path that was not there. -/
theorem mem_of_mem_sorted {paths : List String} {path : String} (member : path ∈ sorted paths) :
    path ∈ paths := by
  unfold sorted at member
  cases sorts : paths.mergeSort precedes with
  | nil =>
      rw [sorts] at member
      cases member
  | cons first rest =>
      rw [sorts] at member
      exact List.mem_mergeSort.mp (sorts ▸ (dropRepeated_sublist first rest).mem member)

/-- Sorting keeps the steps of the paths. -/
theorem mem_steps_sorted_iff (paths : List String) (taken : List Step) :
    taken ∈ (sorted paths).map steps ↔ taken ∈ paths.map steps := by
  constructor
  · intro member
    obtain ⟨path, among, rfl⟩ := List.mem_map.mp member
    exact List.mem_map_of_mem (mem_of_mem_sorted among)
  · intro member
    obtain ⟨path, among, rfl⟩ := List.mem_map.mp member
    have here : orderKey path ∈ (paths.mergeSort precedes).map orderKey :=
      List.mem_map_of_mem (List.mem_mergeSort.mpr among)
    unfold sorted
    cases sorts : paths.mergeSort precedes with
    | nil =>
        rw [sorts] at here
        cases here
    | cons first rest =>
        rw [sorts, ← mem_orderKey_dropRepeated_iff] at here
        obtain ⟨kept, stays, same⟩ := List.mem_map.mp here
        exact List.mem_map.mpr ⟨kept, stays, orderKey_eq_iff.mp same⟩

/-- Paths of which each stands before those after it take different steps. -/
theorem nodup_map_steps {paths : List String} (ordered : paths.Pairwise Before) :
    (paths.map steps).Nodup := by
  rw [List.Nodup, List.pairwise_map]
  refine ordered.imp fun {path other} before same => ?_
  rw [← orderKey_lt_iff, orderKey_eq_iff.mpr same] at before
  exact lt_irrefl _ before

/-- Two lists in which each path stands before those after it take the same steps if the same steps
are taken by some path of either. -/
theorem map_steps_eq_of_mem_iff {paths others : List String} (ordered : paths.Pairwise Before)
    (ordered' : others.Pairwise Before)
    (same : ∀ taken, taken ∈ paths.map steps ↔ taken ∈ others.map steps) :
    paths.map steps = others.map steps := by
  have keys (list : List String) (ordered : list.Pairwise Before) :
      ((list.map steps).map (List.map Step.key)).Pairwise (· < ·) := by
    rw [List.map_map, List.pairwise_map]
    exact ordered.imp fun {path other} before => by
      simpa only [Function.comp, ← orderKey_eq] using orderKey_lt_iff.mpr before
  apply List.map_injective_iff.mpr (List.map_injective_iff.mpr Step.key_injective)
  apply (keys paths ordered).eq_of_mem_iff (keys others ordered')
  intro taken
  simp only [List.mem_map (f := List.map Step.key), same]

end PhpTestIndex.Path
