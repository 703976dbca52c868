import Mathlib.Data.List.Basic
import Mathlib.Tactic.MkIffOfInductiveProp
import PhpTestIndex.Text.Blank

/-! # White space around a text

Trimming takes off white space at both ends and nothing else: what has none at its ends is found
again whatever white space is put around it (`PhpTestIndex.Text.trim_around`), and no character that
is shown is lost (`PhpTestIndex.Text.shownCount_trim`).
-/

namespace PhpTestIndex

namespace Text

variable {chars rest lead trail : List Char} {c : Char}

/-- Only white space stands there. -/
def IsBlank (chars : List Char) : Prop :=
  ∀ c ∈ chars, isBlank c = true

/-- No white space stands at either end. -/
@[mk_iff]
structure IsTrimmed (chars : List Char) : Prop where
  atStart : ∀ c ∈ chars.head?, isBlank c = false
  atEnd : ∀ c ∈ chars.getLast?, isBlank c = false

instance : Decidable (IsBlank chars) :=
  decidable_of_iff (chars.all isBlank = true) List.all_eq_true

instance : Decidable (IsTrimmed chars) :=
  decidable_of_iff
    ((chars.head?.all fun c => !isBlank c) = true ∧ (chars.getLast?.all fun c => !isBlank c) = true)
    (by simp [isTrimmed_iff, Option.all_eq_true])

theorem isBlank_nil : IsBlank [] :=
  fun _ member => nomatch member

theorem isBlank_append : IsBlank (lead ++ trail) ↔ IsBlank lead ∧ IsBlank trail :=
  List.forall_mem_append

theorem trimStart_append (blank : IsBlank lead) (chars : List Char) :
    trimStart (lead ++ chars) = trimStart chars :=
  List.dropWhile_append_of_pos blank

/-- Trimming takes off blanks that are put behind. -/
theorem trimEnd_append (blank : IsBlank trail) (chars : List Char) :
    trimEnd (chars ++ trail) = trimEnd chars := by
  have reversed : ∀ c ∈ trail.reverse, isBlank c = true :=
    fun c member => blank c (List.mem_reverse.mp member)
  rw [trimEnd, dropEndWhile, List.reverse_append, List.dropWhile_append_of_pos reversed]
  rfl

/-- Nothing is taken off at the start of a text that starts with a character that is not blank. -/
theorem trimStart_of_head? (shown : ∀ c ∈ chars.head?, isBlank c = false) :
    trimStart chars = chars := by
  cases chars with
  | nil => rfl
  | cons c rest => rw [trimStart, List.dropWhile_cons_of_neg (by simp [shown c rfl])]

/-- Nothing is taken off at the end of a text that ends with one. -/
theorem trimEnd_of_getLast? (shown : ∀ c ∈ chars.getLast?, isBlank c = false) :
    trimEnd chars = chars := by
  rw [← List.head?_reverse] at shown
  rw [trimEnd, dropEndWhile, ← trimStart, trimStart_of_head? shown, List.reverse_reverse]

theorem trim_of_isTrimmed (trimmed : IsTrimmed chars) : trim chars = chars := by
  rw [trim, trimStart_of_head? trimmed.atStart, trimEnd_of_getLast? trimmed.atEnd]

/-- Blanks behind a text do not change what is left after trimming. -/
theorem trim_append (blank : IsBlank trail) (chars : List Char) :
    trim (chars ++ trail) = trim chars := by
  have gone : trimStart trail = [] := by
    have dropped := trimStart_append blank []
    rwa [List.append_nil] at dropped
  rw [trim, trim, trimStart, List.dropWhile_append, ← trimStart, ← trimStart, gone]
  split
  · rename_i nothing
    rw [List.isEmpty_iff.mp nothing]
  · exact trimEnd_append blank _

/-- White space around a text is taken off, and nothing else. -/
theorem trim_around (before : IsBlank lead) (trimmed : IsTrimmed chars) (after : IsBlank trail) :
    trim (lead ++ chars ++ trail) = chars := by
  rw [trim_append after, trim, trimStart_append before]
  exact trim_of_isTrimmed trimmed

/-- What is left starts with the first character that is not blank. -/
theorem trimStart_eq_cons_iff (shown : isBlank c = false) :
    trimStart chars = c :: rest ↔ ∃ lead, IsBlank lead ∧ chars = lead ++ c :: rest := by
  constructor
  · intro trimmed
    refine ⟨chars.takeWhile isBlank, List.all_eq_true.mp List.all_takeWhile, ?_⟩
    rw [← trimmed]
    exact List.takeWhile_append_dropWhile.symm
  · rintro ⟨lead, blank, rfl⟩
    rw [trimStart_append blank, trimStart_of_head? (by simp [shown])]

/-- The number of characters that are not white space. -/
def shownCount (chars : List Char) : Nat :=
  chars.countP fun c => !isBlank c

theorem shownCount_append (first second : List Char) :
    shownCount (first ++ second) = shownCount first + shownCount second :=
  List.countP_append

/-- Dropping blanks drops no character that counts. -/
theorem shownCount_dropWhile_isBlank (chars : List Char) :
    shownCount (chars.dropWhile isBlank) = shownCount chars := by
  have blank : shownCount (chars.takeWhile isBlank) = 0 := by
    rw [shownCount, List.countP_eq_zero]
    intro c member
    simp [List.all_eq_true.mp List.all_takeWhile c member]
  have whole : shownCount chars =
      shownCount (chars.takeWhile isBlank) + shownCount (chars.dropWhile isBlank) := by
    rw [← shownCount_append, List.takeWhile_append_dropWhile]
  omega

/-- Trimming keeps all characters that are not blank. -/
theorem shownCount_trim (chars : List Char) : shownCount (trim chars) = shownCount chars := by
  have reversed (chars : List Char) : shownCount chars.reverse = shownCount chars :=
    List.countP_reverse
  rw [trim, trimEnd, dropEndWhile, reversed, shownCount_dropWhile_isBlank, reversed, trimStart,
    shownCount_dropWhile_isBlank]

end Text

end PhpTestIndex
