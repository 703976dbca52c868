import Mathlib.Data.List.Forall2
import Mathlib.Data.List.Nodup

/-! # Lists that correspond element by element

What the theory of the readers needs of `List.Forall₂` beyond the library: an element on one side
has a counterpart on the other, keeping what satisfies a rule corresponds to making what a function
makes of it, and what tells the elements on one side apart tells their counterparts apart. Lists
that are put together from lists have no repetition if the list from which an element comes can be
told from it.
-/

namespace PhpTestIndex

variable {α β : Type} {relates : α → β → Prop}

/-- Every element on the right is the counterpart of an element on the left. -/
theorem exists_left_of_mem_right {left : List α} {right : List β}
    (related : List.Forall₂ relates left right) {result : β} (member : result ∈ right) :
    ∃ item ∈ left, relates item result := by
  induction related with
  | nil => cases member
  | @cons item first rest others relatedFirst _ ih =>
      rcases List.mem_cons.mp member with rfl | later
      · exact ⟨item, List.mem_cons_self, relatedFirst⟩
      · obtain ⟨other, among, relatedOther⟩ := ih later
        exact ⟨other, List.mem_cons_of_mem item among, relatedOther⟩

/-- Keeping what satisfies a rule and making what a function makes of it agree, element by element,
if the function makes something exactly of what satisfies the rule. -/
theorem forall₂_filter_filterMap {rule : α → Prop} [DecidablePred rule] {make : α → Option β}
    {items : List α}
    (made : ∀ item ∈ items, rule item → ∃ result, make item = some result ∧ relates item result)
    (left : ∀ item ∈ items, ¬ rule item → make item = none) :
    List.Forall₂ relates (items.filter fun item => rule item) (items.filterMap make) := by
  induction items with
  | nil => exact List.Forall₂.nil
  | cons item rest ih =>
      obtain ⟨madeFirst, madeRest⟩ := List.forall_mem_cons.mp made
      obtain ⟨leftFirst, leftRest⟩ := List.forall_mem_cons.mp left
      by_cases kept : rule item
      · obtain ⟨result, equal, related⟩ := madeFirst kept
        rw [List.filter_cons_of_pos (by simpa using kept), List.filterMap_cons_some equal]
        exact List.Forall₂.cons related (ih madeRest leftRest)
      · rw [List.filter_cons_of_neg (by simpa using kept),
          List.filterMap_cons_none (leftFirst kept)]
        exact ih madeRest leftRest

/-- What holds between the elements on the left goes over to their counterparts. -/
theorem pairwise_of_forall₂ {between : α → α → Prop} {between' : β → β → Prop} {left : List α}
    {right : List β} (related : List.Forall₂ relates left right)
    (carries : ∀ {item item' result result'}, relates item result → relates item' result' →
      between item item' → between' result result')
    (pairwise : left.Pairwise between) : right.Pairwise between' := by
  induction related with
  | nil => exact List.Pairwise.nil
  | @cons item result rest results relatedFirst relatedRest ih =>
      obtain ⟨first, later⟩ := List.pairwise_cons.mp pairwise
      refine List.pairwise_cons.mpr ⟨fun other member => ?_, ih later⟩
      obtain ⟨source, among, relatedOther⟩ := exists_left_of_mem_right relatedRest member
      exact carries relatedFirst relatedOther (first source among)

/-- The first elements of lists that correspond are both absent or correspond. -/
theorem rel_head? {left : List α} {right : List β} (related : List.Forall₂ relates left right) :
    Option.Rel relates left.head? right.head? := by
  cases related with
  | nil => exact .none
  | cons first _ => exact .some first

/-- Two optional values are related if both are missing, or both are there and are related. -/
theorem cases_of_rel {left : Option α} {right : Option β}
    (related : Option.Rel relates left right) :
    (left = none ∧ right = none) ∨
      ∃ item result, left = some item ∧ right = some result ∧ relates item result := by
  cases related with
  | none => exact .inl ⟨rfl, rfl⟩
  | some both => exact .inr ⟨_, _, rfl, rfl, both⟩

/-- The first element on the right is the counterpart of the first one on the left. -/
theorem exists_head?_left {left : List α} {right : List β}
    (related : List.Forall₂ relates left right) {result : β} (starts : right.head? = some result) :
    ∃ item, left.head? = some item ∧ relates item result := by
  cases related with
  | nil => cases starts
  | @cons item first _ _ relatedFirst _ =>
      obtain rfl : first = result := Option.some.inj starts
      exact ⟨item, rfl, relatedFirst⟩

/-- The last of some items is related to the last of the others. -/
theorem exists_getLast?_left {left : List α} {right : List β}
    (related : List.Forall₂ relates left right) {result : β} (ends : right.getLast? = some result) :
    ∃ item, left.getLast? = some item ∧ relates item result := by
  rw [← List.head?_reverse] at ends
  obtain ⟨item, starts, stands⟩ := exists_head?_left (List.forall₂_reverse_iff.mpr related) ends
  exact ⟨item, List.head?_reverse.symm.trans starts, stands⟩

/-- Two functions that agree on counterparts make the same of lists that correspond. -/
theorem map_eq_map_of_forall₂ {γ : Type} {left : List α} {right : List β} {make : α → γ}
    {make' : β → γ} (related : List.Forall₂ relates left right)
    (agree : ∀ item ∈ left, ∀ {result}, relates item result → make item = make' result) :
    left.map make = right.map make' := by
  induction related with
  | nil => rfl
  | @cons item result rest results relatedFirst _ ih =>
      obtain ⟨first, later⟩ := List.forall_mem_cons.mp agree
      rw [List.map_cons, List.map_cons, first relatedFirst, ih later]

/-- Where the list on the right is put together, the one on the left is. -/
theorem exists_append_of_forall₂ {left : List α} {before after : List β}
    (related : List.Forall₂ relates left (before ++ after)) :
    ∃ early late, left = early ++ late ∧ List.Forall₂ relates early before ∧
      List.Forall₂ relates late after :=
  ⟨_, _, (List.take_append_drop before.length left).symm,
    List.forall₂_take_append left before after related,
    List.forall₂_drop_append left before after related⟩

/-- Where a result stands among what is made of some items, the item stands of which it is made. -/
theorem exists_split_of_filterMap {make : α → Option β} {items : List α} {before after : List β}
    {result : β} (split : items.filterMap make = before ++ result :: after) :
    ∃ early item late, items = early ++ item :: late ∧ make item = some result ∧
      early.filterMap make = before ∧ late.filterMap make = after := by
  obtain ⟨first, rest, rfl, made, more⟩ := List.filterMap_eq_append_iff.mp split
  obtain ⟨skipped, item, late, rfl, nothing, here, later⟩ := List.filterMap_eq_cons_iff.mp more
  refine ⟨first ++ skipped, item, late, by rw [List.append_assoc], here, ?_, later⟩
  rw [List.filterMap_append, made, List.filterMap_eq_nil_iff.mpr nothing, List.append_nil]

/-- What is kept of some items, told by a key that it keeps, is a part of the items. -/
theorem map_filterMap_sublist {γ : Type} {make : α → Option β} {key : α → γ} {key' : β → γ}
    (keeps : ∀ {item result}, make item = some result → key' result = key item) (items : List α) :
    ((items.filterMap make).map key').Sublist (items.map key) := by
  induction items with
  | nil => exact .slnil
  | cons item rest ih =>
      cases made : make item with
      | none =>
          rw [List.filterMap_cons_none made]
          exact ih.cons _
      | some result =>
          rw [List.filterMap_cons_some made, List.map_cons, List.map_cons, keeps made]
          exact ih.cons_cons _

/-- Of items in order, one that stands neither before the item of which the first result of a run is
made nor after that of the last one, and is not one of the run itself, stands between the two. -/
theorem exists_between_of_run {make : α → Option β} {precedes : α → α → Prop} {items : List α}
    (ordered : items.Pairwise precedes) {before run after : List β}
    (split : items.filterMap make = before ++ (run ++ after)) {first last : β}
    (starts : run.head? = some first) (ends : run.getLast? = some last) {item : α}
    (member : item ∈ items) (notOfRun : ∀ result ∈ run, make item ≠ some result)
    (notBefore : ∀ opening, make opening = some first → ¬ precedes item opening)
    (notAfter : ∀ closing, make closing = some last → ¬ precedes closing item) :
    ∃ early opening between closing late,
      items = early ++ opening :: (between ++ closing :: late) ∧
      make opening = some first ∧ make closing = some last ∧ item ∈ between ∧
      ∀ other ∈ between, ∀ result, make other = some result → result ∈ run := by
  obtain ⟨rest, rfl⟩ := List.head?_eq_some_iff.mp starts
  obtain ⟨early, opening, further, rfl, isFirst, _, made⟩ := exists_split_of_filterMap split
  obtain ⟨_, following, preceding⟩ := List.pairwise_append.mp ordered
  rcases List.mem_append.mp member with earlier | beyond
  · exact absurd (preceding item earlier opening List.mem_cons_self) (notBefore opening isFirst)
  rcases List.mem_cons.mp beyond with rfl | beyond
  · exact absurd isFirst (notOfRun first List.mem_cons_self)
  obtain ⟨afterOpening, following⟩ := List.pairwise_cons.mp following
  rcases List.eq_nil_or_concat' rest with rfl | ⟨inner, final, rfl⟩
  · obtain rfl : first = last := Option.some.inj ends
    exact absurd (afterOpening item beyond) (notAfter opening isFirst)
  · have back : (first :: inner ++ [final]).getLast? = some final := List.getLast?_concat
    obtain rfl : final = last := Option.some.inj (back.symm.trans ends)
    have made : further.filterMap make = inner ++ final :: after := by
      rw [made, List.append_eq, List.append_assoc, List.singleton_append]
    obtain ⟨between, closing, late, rfl, isLast, middle, _⟩ := exists_split_of_filterMap made
    rcases List.mem_append.mp beyond with inBetween | beyond
    · refine ⟨early, opening, between, closing, late, rfl, isFirst, isLast, inBetween, ?_⟩
      intro other present result equal
      have inner' : result ∈ inner := middle ▸ List.mem_filterMap.mpr ⟨other, present, equal⟩
      exact List.mem_cons_of_mem first (List.mem_append_left _ inner')
    rcases List.mem_cons.mp beyond with rfl | beyond
    · exact absurd isLast (notOfRun final (by simp))
    · have ending := (List.pairwise_append.mp following).2.1
      exact absurd ((List.pairwise_cons.mp ending).1 item beyond) (notAfter closing isLast)

/-- Lists put together have no repetition if none has one, and the list from which an element comes
can be told from the element by a name. -/
theorem nodup_flatMap_of_name {γ : Type} {items : List α} {list : α → List β} (name : α → γ)
    (nameIn : β → γ) (recovers : ∀ item ∈ items, ∀ result ∈ list item, nameIn result = name item)
    (names : (items.map name).Nodup) (lists : ∀ item ∈ items, (list item).Nodup) :
    (items.flatMap list).Nodup := by
  refine List.nodup_flatMap.mpr ⟨lists, ?_⟩
  refine (List.pairwise_map.mp names).imp_of_mem fun {item item'} member member' other => ?_
  intro result here there
  exact other ((recovers item member result here).symm.trans (recovers item' member' result there))

end PhpTestIndex
