import Mathlib.Data.List.ProdSigma
import PhpTestIndex.Proofs.Session.History
import PhpTestIndex.Proofs.Test.Traversal

/-! # What listeners are told

The forest of a file is announced as a visit from the roots down: for each node in turn, every
listener that came for its kind is told, in the order in which the listeners came
(`PhpTestIndex.Announcement.ofForest_eq_due`). Whether a listener fails changes neither the forest
nor what anybody is told, so after any calls the announcements are known from the listeners that
came and from the forest (`PhpTestIndex.Session.announcements_after_calls`).
-/

namespace PhpTestIndex

namespace Announcement

/-- Who is told of which node, and with which index: an announcement but for how it is taken. -/
def told (announcement : Announcement) : Nat × Definition × Option Nat :=
  (announcement.listener, announcement.node, announcement.index)

/-- What the listeners are to be told of a node that stands at a position among its siblings: each
that came for its kind, in order, and with the position if the node is a data set. -/
def dueAt (listeners : List Listener) (node : Definition) (position : Nat) : List Announcement :=
  let index := if node.kind = .dataSet then some position else none
  (listeners.zipIdx.filter fun entry => entry.1.kind = node.kind).map fun entry =>
    ⟨entry.2, node, index, entry.1.react node index⟩

/-- What the listeners are to be told of some trees: of each node before its children. -/
def due (listeners : List Listener) (forest : List Definition) : List Announcement :=
  (Definition.located forest).flatMap fun entry => dueAt listeners entry.1 entry.2

variable (listeners : List Listener)

/-- A node is announced to the listeners of its kind, in the order in which they were added, each
with its place in that order. -/
theorem ofNodeFrom_eq (first : Nat) (node : Definition) (index : Option Nat) :
    ofNodeFrom first node index listeners =
      ((listeners.zipIdx first).filter fun entry => entry.1.kind = node.kind).map fun entry =>
        ⟨entry.2, node, index, entry.1.react node index⟩ := by
  induction listeners generalizing first with
  | nil => rfl
  | cons listener rest ih =>
      rw [ofNodeFrom, List.zipIdx_cons, List.filter_cons, ih]
      by_cases same : listener.kind = node.kind
      · simp [same]
      · simp [same]

/-- A data set is announced with its position among the rows, and any other node without one; that
is what is due at the node. -/
theorem ofNode_indexOf (node : Definition) (position : Nat) :
    ofNode listeners node (indexOf node position) = dueAt listeners node position :=
  ofNodeFrom_eq listeners 0 node _

/-- A tree announces its root and then its children, which are counted from zero. -/
theorem ofTree_eq (position : Nat) (root : Definition) :
    ofTree listeners position root =
      dueAt listeners root position ++ ofForest listeners 0 root.children := by
  rw [← ofNode_indexOf]
  cases root
  rfl

/-- Trees beside each other are announced one after the other, each with its own position. -/
theorem ofForest_eq (position : Nat) (forest : List Definition) :
    ofForest listeners position forest =
      (forest.zipIdx position).flatMap fun entry =>
        dueAt listeners entry.1 entry.2 ++ ofForest listeners 0 entry.1.children := by
  induction forest generalizing position with
  | nil => rfl
  | cons root rest ih =>
      rw [ofForest, ih, ofTree_eq, List.zipIdx_cons, List.flatMap_cons]

/-- **Announcing is visiting.** Some trees are announced node by node, each before its children, and
all that is due to the listeners is said. -/
theorem ofForest_eq_due (forest : List Definition) :
    ofForest listeners 0 forest = due listeners forest := by
  induction forest using Definition.induction_forest with
  | step forest ih =>
      rw [ofForest_eq, due, Definition.located_eq, List.flatMap_assoc]
      refine List.flatMap_congr fun entry member => ?_
      rw [ih entry.1 (List.fst_mem_of_mem_zipIdx member), List.flatMap_cons, due]

/-- Who is told of a node does not depend on how the listeners take it. -/
theorem map_told_dueAt {others : List Listener}
    (kinds : others.map Listener.kind = listeners.map Listener.kind) (node : Definition)
    (position : Nat) :
    (dueAt others node position).map told = (dueAt listeners node position).map told := by
  have byKind (some' : List Listener) :
      (dueAt some' node position).map told =
        ((some'.map Listener.kind).zipIdx.filter fun entry => entry.1 = node.kind).map fun entry =>
          (entry.2, node, if node.kind = .dataSet then some position else none) := by
    rw [dueAt, List.zipIdx_map, List.filter_map, List.map_map, List.map_map]
    rfl
  rw [byKind, byKind, kinds]

/-- What is told, to whom and in which order depends on the kinds of the listeners alone, and not on
how they react. -/
theorem map_told_due {others : List Listener}
    (kinds : others.map Listener.kind = listeners.map Listener.kind) (forest : List Definition) :
    (due others forest).map told = (due listeners forest).map told := by
  rw [due, due, List.map_flatMap, List.map_flatMap]
  exact List.flatMap_congr fun entry _ => map_told_dueAt listeners kinds entry.1 entry.2

/-- The listener came for the kind of a node, and it fails there. -/
def failsAt (entry : Definition × Nat) (listener : Listener) : Bool :=
  listener.kind = entry.1.kind &&
    listener.react entry.1 (if entry.1.kind = .dataSet then some entry.2 else none) ≠ []

/-- As many announcements of a node fail as there are listeners of its kind that fail at it. -/
theorem failures_dueAt (node : Definition) (position : Nat) :
    failures (dueAt listeners node position) = listeners.countP (failsAt (node, position)) := by
  have numbered : listeners = listeners.zipIdx.map Prod.fst := by rw [List.zipIdx_map_fst]
  conv_rhs => rw [numbered, List.countP_map]
  rw [failures, dueAt, List.countP_map, List.countP_filter]
  refine List.countP_congr fun entry _ => ?_
  simp [failed, failsAt, and_comm]

/-- As many announcements fail as there are nodes and listeners such that the listener fails at the
node. -/
theorem failures_due (forest : List Definition) :
    failures (due listeners forest) =
      (Definition.located forest ×ˢ listeners).countP fun pair => failsAt pair.1 pair.2 := by
  have pairs (entries : List (Definition × Nat)) :
      entries ×ˢ listeners = entries.flatMap fun entry => listeners.map (Prod.mk entry) := rfl
  rw [failures, due, pairs, List.countP_flatMap, List.countP_flatMap]
  congr 1
  refine List.map_congr_left fun entry _ => ?_
  rw [Function.comp_apply, Function.comp_apply, List.countP_map]
  exact failures_dueAt listeners entry.1 entry.2

end Announcement

namespace Session

/-- The listeners that come in some calls, in order. -/
def listenersIn (calls : List Call) : List Listener :=
  calls.filterMap fun
    | .listen listener => some listener
    | _ => none

/-- The listeners after some calls are those before and those that came. -/
theorem listeners_after (session : Session) (calls : List Call) :
    (session.after calls).listeners = session.listeners ++ listenersIn calls := by
  induction calls generalizing session with
  | nil => simp [after, listenersIn]
  | cons call rest ih =>
      rw [after, List.foldl_cons, ← after, ih]
      cases call with
      | listen listener => simp [answer, listen, listenersIn]
      | setRoot root => rfl
      | parse directory file text => rw [answer, (parse_snd ..).2]; rfl
      | find directory file text => rw [answer, find_snd, (parse_snd ..).2]; rfl

section Reading

variable (session : Session) (directory file : String) (text : List Char)

/-- What is announced of a text is what is due for its forest; of a text without a forest nothing is
announced. -/
theorem announcements_read :
    (session.read directory file text).announcements =
      match (session.read directory file text).result with
      | .ok (some forest) => Announcement.due session.listeners forest
      | _ => [] := by
  rw [read_eq]
  cases Php.Document.read text with
  | error fault => rfl
  | ok document =>
      cases found : document.forest? directory session.root file with
      | none => simp only [found, Outcome.announcements_mk_nil]
      | some forest =>
          simp only [found, Outcome.announcements_mk_append]
          exact Announcement.ofForest_eq_due session.listeners forest

/-- Other listeners find the same forest. -/
theorem result_read_listeners (others : List Listener) :
    ({ session with listeners := others }.read directory file text).result =
      (session.read directory file text).result := by
  rw [read_result, read_result]

end Reading

/-- **What listeners are told.** After any calls, reading a text that has a forest tells each
listener that has come of each node of its kind: node by node in the order of a visit of the trees,
at each node in the order in which the listeners came, and with an index exactly at a data set,
which is its position among its siblings. Reading any other text tells nobody anything. As many
announcements fail as there are nodes and listeners such that the listener fails at the node. With
other listeners, who may fail anywhere, the result is the same, and if these came for the same
kinds, they are told the same. -/
theorem announcements_after_calls (root : String) (calls : List Call) (directory file : String)
    (text : List Char) :
    let session := (start root).after calls
    let outcome := session.read directory file text
    (match outcome.result with
      | .ok (some forest) =>
        outcome.announcements = Announcement.due (listenersIn calls) forest ∧
          (Definition.located forest).map Prod.fst =
            forest.flatMap (fun tree => (Definition.Walk.ofTree tree).visited) ∧
          Announcement.failures outcome.announcements =
            (Definition.located forest ×ˢ listenersIn calls).countP fun pair =>
              Announcement.failsAt pair.1 pair.2
      | _ => outcome.announcements = []) ∧
      ∀ others : List Listener,
        let outcome' := { session with listeners := others }.read directory file text
        outcome'.result = outcome.result ∧
          (others.map Listener.kind = (listenersIn calls).map Listener.kind →
            outcome'.announcements.map Announcement.told =
              outcome.announcements.map Announcement.told) := by
  intro session outcome
  have came : session.listeners = listenersIn calls := listeners_after (start root) calls
  have announced := session.announcements_read directory file text
  rw [came] at announced
  constructor
  · cases result : outcome.result with
    | error fault => simpa [outcome, result] using announced
    | ok found =>
        cases found with
        | none => simpa [outcome, result] using announced
        | some forest =>
            have due : outcome.announcements = Announcement.due (listenersIn calls) forest := by
              simpa [outcome, result] using announced
            refine ⟨due, ?_, due ▸ Announcement.failures_due _ forest⟩
            rw [Definition.map_fst_located, Definition.forestNodes_eq_flatMap]
            refine List.flatMap_congr fun tree _ => ?_
            rw [Definition.Walk.visited_eq, Definition.Walk.ofTree, Definition.forestNodes_cons,
              Definition.forestNodes_nil, List.append_nil]
  · intro others outcome'
    have same : outcome'.result = outcome.result :=
      session.result_read_listeners directory file text others
    refine ⟨same, fun kinds => ?_⟩
    have announced' := { session with listeners := others }.announcements_read directory file text
    rw [result_read_listeners] at announced'
    rw [announced, announced']
    rcases (session.read directory file text).result with _ | _ | forest
    · rfl
    · rfl
    · exact Announcement.map_told_due _ kinds forest

end Session

end PhpTestIndex
