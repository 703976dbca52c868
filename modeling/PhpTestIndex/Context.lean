/-!
# Scopes

A `Context` says where in a file a reader stands: the scopes that are open, the namespace and the
class.  The scope of the file is always open: it is the outermost one, and it is never left.  Leaving a
namespace or a class forgets its name.

A reader of files keeps its context from one file to the next and restarts it with each file.
-/

namespace PhpTestIndex

/-- A scope that can be open. -/
inductive Scope
  | file
  /-- The body of a namespace in braces. -/
  | namespaceBody
  | classBody
  /-- A group of tests under a description. -/
  | describe (description : String)
deriving DecidableEq, Repr

/-- Where in a file a reader stands. -/
structure Context where
  /-- The open scopes, the innermost first. -/
  scopes : List Scope
  currentNamespace : Option String
  currentClass : Option String
  /-- The file is open around all other scopes. -/
  outermost : scopes.getLast? = some .file
deriving DecidableEq, Repr

namespace Context

/-- The start of a file. -/
def start : Context :=
  ⟨[.file], none, none, rfl⟩

instance : Inhabited Context :=
  ⟨start⟩

/-- Begin another file: of what the file before left open nothing is kept. -/
def restart (_ : Context) : Context :=
  start

/-- Enter a scope. -/
def enter (context : Context) (scope : Scope) : Context :=
  { context with
    scopes := scope :: context.scopes
    outermost := by rw [List.getLast?_cons, context.outermost, Option.getD_some] }

/-- Leave the innermost scope; the outermost one, which is the file, is never left. -/
def exit (context : Context) : Context :=
  if inside : 1 < context.scopes.length then
    let outside : Context :=
      { context with
        scopes := context.scopes.tail
        outermost := by
          rw [List.getLast?_tail, if_neg (Nat.ne_of_gt inside), context.outermost] }
    match context.scopes.head? with
    | some .classBody => { outside with currentClass := none }
    | some .namespaceBody => { outside with currentNamespace := none }
    | _ => outside
  else context

/-- Set the namespace of what follows; an empty name is none. -/
def setNamespace (context : Context) (name : Option String) : Context :=
  { context with currentNamespace := name.filter fun text => text ≠ "" }

/-- Set the class of what follows. -/
def setClass (context : Context) (name : Option String) : Context :=
  { context with currentClass := name }

/-- The descriptions of the open groups, the outermost first. -/
def describePath (context : Context) : List String :=
  context.scopes.reverse.filterMap fun
    | .describe description => some description
    | _ => none

@[simp] theorem describePath_start : start.describePath = [] := rfl

@[simp] theorem describePath_enter_describe (context : Context) (description : String) :
    (context.enter (.describe description)).describePath =
      context.describePath ++ [description] := by
  simp [describePath, enter]

/-- Something is always open. -/
theorem scopes_ne_nil (context : Context) : context.scopes ≠ [] := by
  intro nothing
  simpa [nothing] using context.outermost

@[simp] theorem exit_enter_describe (context : Context) (description : String) :
    (context.enter (.describe description)).exit = context := by
  have inside : 1 < (context.enter (.describe description)).scopes.length :=
    Nat.succ_lt_succ (List.length_pos_iff.mpr context.scopes_ne_nil)
  rw [exit, dif_pos inside]
  rfl

end Context

end PhpTestIndex
