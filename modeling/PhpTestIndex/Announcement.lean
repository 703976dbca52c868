import PhpTestIndex.Test.Definition

/-!
# Announcing tests

Listeners hear of every node of their kind.  A tree is announced from the root down and siblings in
order; the listeners of a node are told in the order in which they came.  A data set is announced
with its index among its siblings.

A listener may fail.  A failure is recorded and keeps nobody else from being told.
-/

namespace PhpTestIndex

/-- One who hears of the nodes of a kind. -/
structure Listener where
  kind : TestKind
  /-- Why the listener fails at a node: the causes, the outermost first; none if it does not
  fail. -/
  react : Definition → Option Nat → List String

instance : Inhabited Listener :=
  ⟨⟨.method, fun _ _ => []⟩⟩

/-- A listener was told of a node. -/
structure Announcement where
  /-- The number of the listener, in the order in which listeners came. -/
  listener : Nat
  node : Definition
  index : Option Nat
  /-- The causes of the failure, if the listener failed. -/
  causes : List String
deriving Inhabited

namespace Announcement

/-- The listener failed. -/
def failed (announcement : Announcement) : Bool :=
  !announcement.causes.isEmpty

/-- What is said about a failure. -/
def warning (announcement : Announcement) : String :=
  announcement.node.kind.name ++ " listener failed for " ++ announcement.node.id ++ ": " ++
    Text.join ": " announcement.causes

/-- Tell the listeners, who are numbered from `first` on, of one node. -/
def ofNodeFrom (first : Nat) (node : Definition) (index : Option Nat) :
    List Listener → List Announcement
  | [] => []
  | listener :: rest =>
    let later := ofNodeFrom (first + 1) node index rest
    if listener.kind = node.kind then ⟨first, node, index, listener.react node index⟩ :: later
    else later

/-- Tell the listeners of one node. -/
def ofNode (listeners : List Listener) (node : Definition) (index : Option Nat) :
    List Announcement :=
  ofNodeFrom 0 node index listeners

/-- The index with which a node is announced: that of a data set among its siblings. -/
def indexOf (node : Definition) (position : Nat) : Option Nat :=
  if node.kind = .dataSet then some position else none

mutual

/-- Announce a tree whose root stands at a position among its siblings. -/
def ofTree (listeners : List Listener) (position : Nat) : Definition → List Announcement
  | ⟨kind, id, label, inNamespace, className, methodName, qualifiedClass, file, span, depth,
      annotations, children⟩ =>
    let node : Definition :=
      ⟨kind, id, label, inNamespace, className, methodName, qualifiedClass, file, span, depth,
        annotations, children⟩
    ofNode listeners node (indexOf node position) ++ ofForest listeners 0 children

/-- Announce several trees, the first of which stands at a position. -/
def ofForest (listeners : List Listener) (position : Nat) :
    List Definition → List Announcement
  | [] => []
  | tree :: rest => ofTree listeners position tree ++ ofForest listeners (position + 1) rest

end

/-- The number of listeners that failed. -/
def failures (announcements : List Announcement) : Nat :=
  announcements.countP failed

/-- What is said about the failures, in order. -/
def warnings (announcements : List Announcement) : List String :=
  (announcements.filter failed).map warning

end Announcement

end PhpTestIndex
