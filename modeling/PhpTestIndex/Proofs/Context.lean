import PhpTestIndex.Context

/-! # Scopes are blocks

A reader enters and leaves scopes and sets names in any order, and it may leave more often than it
entered. A scope is left by the first exit after it that has no scope of its own to leave
(`PhpTestIndex.Context.IsLeft`). After any moves, the open scopes are those that were entered and
not left (`PhpTestIndex.Context.entered_after`), and what stands between entering and leaving a
scope has no effect on the scopes around it. Leaving a scope forgets the name that belongs to it,
and no other (`PhpTestIndex.Context.after_isBlockStructured`).
-/

namespace PhpTestIndex

/-- The description of a group. -/
def Scope.description? : Scope → Option String
  | .describe description => some description
  | _ => none

namespace Context

/-- What a reader can do with its context. -/
inductive Move
  | enter (scope : Scope)
  | exit
  | setNamespace (name : Option String)
  | setClass (name : Option String)
deriving DecidableEq, Repr

/-- The context after a move. -/
def move (context : Context) : Move → Context
  | .enter scope => context.enter scope
  | .exit => context.exit
  | .setNamespace name => context.setNamespace name
  | .setClass name => context.setClass name

/-- The context after some moves, one after the other. -/
def after (context : Context) (moves : List Move) : Context :=
  moves.foldl move context

/-- Each scope that the moves enter they leave, and they leave no other. -/
inductive Balanced : List Move → Prop
  | nil : Balanced []
  | setNamespace (name : Option String) {rest : List Move} (later : Balanced rest) :
      Balanced (.setNamespace name :: rest)
  | setClass (name : Option String) {rest : List Move} (later : Balanced rest) :
      Balanced (.setClass name :: rest)
  | block (scope : Scope) {inner rest : List Move} (inside : Balanced inner)
      (later : Balanced rest) : Balanced (.enter scope :: (inner ++ .exit :: rest))

/-- The scope that was entered just before the moves is left by one of them. -/
def IsLeft (moves : List Move) : Prop :=
  ∃ inner rest, moves = inner ++ .exit :: rest ∧ Balanced inner

/-- The number of exits that leave no scope entered in the moves. -/
def surplus : List Move → Nat
  | [] => 0
  | .enter _ :: rest => surplus rest - 1
  | .exit :: rest => surplus rest + 1
  | .setNamespace _ :: rest => surplus rest
  | .setClass _ :: rest => surplus rest

section Matching

variable {inner moves : List Move}

/-- Moves that are balanced leave no scope too many. -/
theorem surplus_append (balanced : Balanced inner) (rest : List Move) :
    surplus (inner ++ rest) = surplus rest := by
  induction balanced generalizing rest with
  | nil => rfl
  | setNamespace name _ ih => exact ih rest
  | setClass name _ ih => exact ih rest
  | block scope _ _ ihInside ihLater =>
      rw [List.cons_append, List.append_assoc, surplus, ihInside, List.cons_append, surplus, ihLater,
        Nat.add_sub_cancel]

/-- If a scope is left, some exit among the moves belongs to no scope entered in them. -/
theorem surplus_pos_of_isLeft (left : IsLeft moves) : 0 < surplus moves := by
  obtain ⟨inner, rest, rfl, balanced⟩ := left
  rw [surplus_append balanced, surplus]
  exact Nat.succ_pos _

/-- The first such exit leaves the scope. The induction is on the moves and cuts off a balanced part
at every entry that is left again. -/
theorem isLeft_of_surplus_pos : ∀ {moves : List Move}, 0 < surplus moves → IsLeft moves
  | .exit :: rest, _ => ⟨[], rest, rfl, .nil⟩
  | .setNamespace name :: rest, positive => by
    obtain ⟨inner, others, rfl, balanced⟩ : IsLeft rest := isLeft_of_surplus_pos positive
    exact ⟨.setNamespace name :: inner, others, rfl, .setNamespace name balanced⟩
  | .setClass name :: rest, positive => by
    obtain ⟨inner, others, rfl, balanced⟩ : IsLeft rest := isLeft_of_surplus_pos positive
    exact ⟨.setClass name :: inner, others, rfl, .setClass name balanced⟩
  | .enter scope :: rest, positive => by
    -- The first exit leaves the scope itself, and there is another one after it.
    have two : 1 < surplus rest := Nat.lt_of_sub_pos positive
    obtain ⟨inner, others, split, balanced⟩ : IsLeft rest := isLeft_of_surplus_pos (by omega)
    have shorter : others.length < rest.length := by
      rw [split, List.length_append, List.length_cons]
      omega
    rw [split, surplus_append balanced, surplus] at two
    obtain ⟨between, last, split', balanced'⟩ : IsLeft others := isLeft_of_surplus_pos (by omega)
    refine ⟨.enter scope :: (inner ++ .exit :: between), last, ?_, .block scope balanced balanced'⟩
    rw [split, split']
    simp
termination_by moves => moves.length

theorem isLeft_iff : IsLeft moves ↔ 0 < surplus moves :=
  ⟨surplus_pos_of_isLeft, isLeft_of_surplus_pos⟩

instance : DecidablePred IsLeft :=
  fun _ => decidable_of_iff _ isLeft_iff.symm

end Matching

/-- The scopes that are entered and not left, in the order in which they are entered. -/
def stillOpen : List Move → List Scope
  | [] => []
  | .enter scope :: later => if IsLeft later then stillOpen later else scope :: stillOpen later
  | .exit :: later => stillOpen later
  | .setNamespace _ :: later => stillOpen later
  | .setClass _ :: later => stillOpen later

/-- Leaving the scope forgets the name that belongs to it, and no other. -/
structure Forgets (scope : Scope) (inside outside : Context) : Prop where
  currentNamespace : outside.currentNamespace =
    if scope = .namespaceBody then none else inside.currentNamespace
  currentClass : outside.currentClass = if scope = .classBody then none else inside.currentClass

/-- The scopes that are open within the file, the innermost first. -/
def entered (context : Context) : List Scope :=
  context.scopes.dropLast

section Exits

variable {context : Context}

/-- The stack has the file at its bottom and the scopes that were entered above it. -/
theorem scopes_eq (context : Context) : context.scopes = context.entered ++ [.file] := by
  obtain ⟨inside, split⟩ := List.getLast?_eq_some_iff.mp context.outermost
  rw [entered, split, List.dropLast_concat]

/-- Entering puts the scope on top of those that are open. -/
theorem entered_enter (context : Context) (scope : Scope) :
    (context.enter scope).entered = scope :: context.entered := by
  have opened : (context.enter scope).scopes = (scope :: context.entered) ++ [.file] :=
    congrArg (scope :: ·) (scopes_eq context)
  rw [entered, opened, List.dropLast_concat]

/-- Where something is open within the file, leaving takes away the innermost scope. -/
theorem one_lt_length_scopes_iff : 1 < context.scopes.length ↔ context.entered ≠ [] := by
  rw [scopes_eq context, List.length_append, List.length_singleton, Nat.lt_add_left_iff_pos,
    List.length_pos_iff]

/-- Where only the file is open, leaving changes nothing: the file itself is never left. -/
theorem exit_eq_of_entered_eq_nil (nothing : context.entered = []) : context.exit = context := by
  unfold exit
  rw [dif_neg fun inside => one_lt_length_scopes_iff.mp inside nothing]

/-- Where a scope was entered, leaving takes the innermost one from the stack. -/
theorem scopes_exit_of_ne_nil (inside : context.entered ≠ []) :
    context.exit.scopes = context.scopes.tail := by
  unfold exit
  rw [dif_pos (one_lt_length_scopes_iff.mpr inside)]
  split <;> rfl

/-- Of the scopes that were entered, leaving takes off the innermost, if there is any. -/
theorem entered_exit (context : Context) : context.exit.entered = context.entered.tail := by
  by_cases nothing : context.entered = []
  · rw [exit_eq_of_entered_eq_nil nothing, nothing]
    rfl
  · rw [entered, scopes_exit_of_ne_nil nothing, entered, List.tail_dropLast]

/-- Leaving a scope forgets the name that belongs to it and keeps every other name. -/
theorem forgets_exit {scope : Scope} {outer : List Scope}
    (innermost : context.entered = scope :: outer) : Forgets scope context context.exit := by
  have head : context.scopes.head? = some scope := by
    rw [scopes_eq, innermost]
    rfl
  have inside : context.entered ≠ [] := by simp [innermost]
  unfold exit
  rw [dif_pos (one_lt_length_scopes_iff.mpr inside), head]
  cases scope <;> exact ⟨rfl, rfl⟩

end Exits

/-- The file itself is described by nothing. -/
theorem describePath_eq (context : Context) :
    context.describePath = context.entered.reverse.filterMap Scope.description? := by
  have whole : context.describePath = context.scopes.reverse.filterMap Scope.description? := rfl
  rw [whole, scopes_eq, List.reverse_append]
  rfl

section Runs

variable {inner : List Move} (context : Context)

/-- **The open scopes.** After some moves, the scopes that they entered and did not leave are open, and
around them those that were open before, but for as many as there are exits left over. -/
theorem entered_after (moves : List Move) :
    (context.after moves).entered =
      (stillOpen moves).reverse ++ context.entered.drop (surplus moves) := by
  induction moves generalizing context with
  | nil => rfl
  | cons next rest ih =>
      rw [after, List.foldl_cons, ← after, ih]
      cases next with
      | enter scope =>
          have entered : (context.move (.enter scope)).entered = scope :: context.entered :=
            entered_enter context scope
          rw [entered, stillOpen, surplus]
          by_cases left : IsLeft rest
          · -- One of the exits left over is for this scope.
            obtain ⟨count, positive⟩ := Nat.exists_eq_add_one.mpr (isLeft_iff.mp left)
            rw [if_pos left, positive, List.drop_succ_cons, Nat.add_sub_cancel]
          · have none' : surplus rest = 0 := by
              rw [isLeft_iff] at left
              omega
            rw [if_neg left, none', List.reverse_cons]
            simp
      | exit =>
          have entered : (context.move .exit).entered = context.entered.tail := entered_exit context
          rw [entered, stillOpen, surplus, List.drop_tail]
      | setNamespace name => rfl
      | setClass name => rfl

/-- Moves that are balanced leave nothing open. -/
theorem stillOpen_append (balanced : Balanced inner) (rest : List Move) :
    stillOpen (inner ++ rest) = stillOpen rest := by
  induction balanced generalizing rest with
  | nil => rfl
  | setNamespace name _ ih => exact ih rest
  | setClass name _ ih => exact ih rest
  | @block scope inner others inside _ ihInside ihLater =>
      have left : IsLeft (inner ++ .exit :: (others ++ rest)) := ⟨inner, others ++ rest, rfl, inside⟩
      rw [List.cons_append, List.append_assoc, List.cons_append, stillOpen, if_pos left, ihInside,
        stillOpen, ihLater]

/-- Moves that leave what they enter change no scope. -/
theorem entered_after_of_balanced (balanced : Balanced inner) :
    (context.after inner).entered = context.entered := by
  have nothing := stillOpen_append balanced []
  have noExit := surplus_append balanced []
  rw [List.append_nil] at nothing noExit
  rw [entered_after, nothing, noExit]
  rfl

/-- After balanced moves, the scope that was entered before them is on top again. -/
theorem entered_after_enter (scope : Scope) (balanced : Balanced inner) :
    (context.after (.enter scope :: inner)).entered = scope :: context.entered :=
  (entered_after_of_balanced (context.enter scope) balanced).trans (entered_enter context scope)

end Runs

/-- **Scopes are blocks.** After any moves from the start of a file, however often a reader tries to
leave what it did not enter, the open scopes are those that were entered and not left, around them
the file, and the path of descriptions is that of the groups among them in the order in which they
were entered. Leaving takes the innermost scope away and forgets the name that belongs to it and no
other; where only the file is open, it changes nothing. Entering a scope, moving in it and leaving
it again restores the open scopes and the path. -/
theorem after_isBlockStructured (moves : List Move) (scope : Scope) {inner : List Move}
    (balanced : Balanced inner) :
    let context := start.after moves
    let inside := context.after (.enter scope :: inner)
    (context.scopes = (stillOpen moves).reverse ++ [.file] ∧
      context.describePath = (stillOpen moves).filterMap Scope.description?) ∧
    (stillOpen moves = [] → context.exit = context) ∧
    (∀ innermost ∈ (stillOpen moves).getLast?,
      context.exit.scopes = (stillOpen moves).dropLast.reverse ++ [.file] ∧
        Forgets innermost context context.exit) ∧
    inside.exit.scopes = context.scopes ∧ inside.exit.describePath = context.describePath ∧
    Forgets scope inside inside.exit := by
  intro context inside
  have opened : context.entered = (stillOpen moves).reverse := by
    have nothing : start.entered = [] := rfl
    rw [start.entered_after moves, nothing, List.drop_nil, List.append_nil]
  have insideScope : inside.entered = scope :: context.entered :=
    context.entered_after_enter scope balanced
  have restored : inside.exit.entered = context.entered := by
    rw [entered_exit, insideScope, List.tail_cons]
  refine ⟨⟨?_, ?_⟩, fun nothing => ?_, fun innermost last => ?_, ?_, ?_, ?_⟩
  · rw [scopes_eq, opened]
  · rw [describePath_eq, opened, List.reverse_reverse]
  · exact exit_eq_of_entered_eq_nil (by rw [opened, nothing, List.reverse_nil])
  · obtain ⟨outer, split⟩ := List.getLast?_eq_some_iff.mp last
    have innermostFirst : context.entered = innermost :: outer.reverse := by
      rw [opened, split, List.reverse_append]
      rfl
    refine ⟨?_, forgets_exit innermostFirst⟩
    rw [scopes_eq, entered_exit, innermostFirst, split, List.dropLast_concat, List.tail_cons]
  · rw [scopes_eq, restored, ← scopes_eq]
  · rw [describePath_eq, restored, describePath_eq]
  · exact forgets_exit insideScope

/-- A reader leaves before it enters anything, and goes from a namespace on into a group. -/
def outOfNamespace : List Move :=
  [.exit, .enter (.describe "outer"), .enter .namespaceBody, .setNamespace (some "A"), .exit,
    .setClass (some "ATest"), .enter (.describe "inner")]

/-- A reader goes through a group and changes the namespace on the way. -/
def throughGroup : List Move :=
  [.setClass (some "BTest"), .enter (.describe "passing"), .exit, .setNamespace (some "B")]

/-- A reader that changes the namespace inside a group finds the group closed behind it, and exits
before any entry leave nothing. -/
theorem throughGroup_isBlockStructured :
    Balanced throughGroup ∧
      stillOpen outOfNamespace = [.describe "outer", .describe "inner"] ∧
      (let context := start.after outOfNamespace
       let inside := context.after (.enter .classBody :: throughGroup)
       context.describePath = ["outer", "inner"] ∧
         context.currentClass = some "ATest" ∧
         inside.exit.scopes = context.scopes ∧
         inside.exit.currentClass = none ∧ inside.exit.currentNamespace = some "B") := by
  have balanced : Balanced throughGroup :=
    .setClass _ (.block (.describe "passing") .nil (.setNamespace _ .nil))
  have opened : stillOpen outOfNamespace = [.describe "outer", .describe "inner"] := by
    decide +kernel
  obtain ⟨⟨_, path⟩, _, _, restored, _, forgets⟩ :=
    after_isBlockStructured outOfNamespace .classBody balanced
  rw [opened] at path
  exact ⟨balanced, opened, path, by decide +kernel, restored, forgets.currentClass,
    forgets.currentNamespace.trans (by decide +kernel)⟩

end Context

end PhpTestIndex
