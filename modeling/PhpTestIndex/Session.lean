import PhpTestIndex.Announcement
import PhpTestIndex.Pest.Dialect
import PhpTestIndex.PhpUnit.Dialect
import PhpTestIndex.Text.Quoted

/-! # Sessions

A `Session` reads files into definition trees.  A file is read as a file with tests in classes, and
if it has none, as a file that registers tests by calls.  The tree is announced to the listeners;
before that, every identifier that occurs again is reported.

A session keeps its readers from one file to the next, and with them the scopes in which they stand
and the root that the reader of calls was told last.
-/

namespace PhpTestIndex

/-- The definition tree of a file that was read; relative paths are seen from `directory`. -/
def Php.Document.forest? (document : Php.Document) (directory root file : String) :
    Option (List Definition) :=
  (PhpUnit.forest? document file).or (Pest.forest? directory root document file)

/-- The nodes whose identifier some node before them has; `seen` holds the identifiers before. -/
def repeatedIds (seen : List String) : List Definition → List Definition
  | [] => []
  | node :: rest =>
    if seen.contains node.id then node :: repeatedIds seen rest
    else repeatedIds (node.id :: seen) rest

/-- What is said about the identifiers that occur again in a file. -/
def duplicateWarnings (file : String) (forest : List Definition) : List String :=
  (repeatedIds [] (Definition.forestNodes forest)).map fun node =>
    "duplicate test id '" ++ node.id ++ "' in " ++ file

/-- Something that happens while a file is read. -/
inductive Event
  | warned (text : String)
  | told (announcement : Announcement)

/-- A listener is told, and if it fails, this is said. -/
def Event.ofAnnouncement (announcement : Announcement) : List Event :=
  .told announcement :: if announcement.failed then [.warned announcement.warning] else []

/-- What reading a file gives. -/
structure Outcome where
  /-- The tree, if the file has tests. -/
  result : Except Php.SyntaxError (Option (List Definition))
  /-- What happens on the way, in order. -/
  events : List Event

namespace Outcome

/-- What is said on the way, in order. -/
def warnings (outcome : Outcome) : List String :=
  outcome.events.filterMap fun
    | .warned text => some text
    | .told _ => none

/-- What listeners are told on the way, in order. -/
def announcements (outcome : Outcome) : List Announcement :=
  outcome.events.filterMap fun
    | .warned _ => none
    | .told announcement => some announcement

section Events

variable (result : Except Php.SyntaxError (Option (List Definition))) (said : List String)
  (told : List Announcement)

theorem announcements_mk_nil : (Outcome.mk result []).announcements = [] := rfl

theorem announcements_mk_append :
    (Outcome.mk result (said.map .warned ++ told.flatMap Event.ofAnnouncement)).announcements =
      told := by
  unfold announcements
  dsimp only
  induction said with
  | nil =>
      induction told with
      | nil => rfl
      | cons first rest ih =>
          rw [List.map_nil, List.nil_append] at ih ⊢
          rw [List.flatMap_cons, List.filterMap_append, ih, Event.ofAnnouncement]
          cases first.failed <;> rfl
  | cons text rest ih => exact ih

theorem warnings_mk_append :
    (Outcome.mk result (said.map .warned ++ told.flatMap Event.ofAnnouncement)).warnings =
      said ++ Announcement.warnings told := by
  unfold warnings
  dsimp only
  induction said with
  | nil =>
      induction told with
      | nil => rfl
      | cons first rest ih =>
          rw [List.map_nil, List.nil_append, List.nil_append] at ih ⊢
          rw [List.flatMap_cons, List.filterMap_append, ih, Event.ofAnnouncement,
            Announcement.warnings, Announcement.warnings, List.filter_cons]
          cases first.failed <;> rfl
  | cons text rest ih => exact congrArg (List.cons text) ih

end Events

end Outcome

/-- Those who listen, the root of the tests, and the readers of files. -/
structure Session where
  listeners : List Listener
  root : String
  /-- Where the reader of tests in classes stands. -/
  classContext : Context
  /-- The reader of tests that are registered by calls. -/
  callReader : Pest.Reader
deriving Inhabited

namespace Session

/-- A session without listeners that has not read anything. -/
def start (root : String) : Session :=
  ⟨[], root, .start, .start⟩

/-- Add a listener. -/
def listen (session : Session) (listener : Listener) : Session :=
  { session with listeners := session.listeners ++ [listener] }

/-- Change the root of the tests. -/
def setRoot (session : Session) (root : String) : Session :=
  { session with root := root }

/-- Announce some trees. -/
def announce (session : Session) (forest : List Definition) : List Announcement :=
  Announcement.ofForest session.listeners 0 forest

/-- The tests of a file that was read, and the session after it.  The reader of calls is asked, and
told the root, only if there are no tests in classes. -/
def findTests (session : Session) (directory file : String) (document : Php.Document) :
    Option (List Definition) × Session :=
  let (inClasses, classContext) := PhpUnit.read document file session.classContext
  let session := { session with classContext := classContext }
  match inClasses with
  | some forest => (some forest, session)
  | none =>
    let (byCalls, callReader) :=
      (session.callReader.setRoot session.root).read directory document file
    (byCalls, { session with callReader := callReader })

/-- Read a file, and give the session after it; relative paths are seen from `directory`. -/
def parse (session : Session) (directory file : String) (text : List Char) : Outcome × Session :=
  match Php.Document.read text with
  | .error fault => (⟨.error fault, []⟩, session)
  | .ok document =>
    let (found, after) := session.findTests directory file document
    match found with
    | none => (⟨.ok none, []⟩, after)
    | some forest =>
      let announced := (session.announce forest).flatMap Event.ofAnnouncement
      (⟨.ok (some forest), (duplicateWarnings file forest).map .warned ++ announced⟩, after)

/-- What reading a file gives. -/
def read (session : Session) (directory file : String) (text : List Char) : Outcome :=
  (session.parse directory file text).1

/-- The tests of a text that parses and has any, and the session after it; a fault is passed
over. -/
def find (session : Session) (directory file : String) (text : List Char) :
    Option (List Definition) × Session :=
  let (outcome, after) := session.parse directory file text
  match outcome.result with
  | .ok found => (found, after)
  | .error _ => (none, after)

/-- The number of listeners of each kind that has any. -/
def listenerCounts (session : Session) : List (TestKind × Nat) :=
  (TestKind.all.map fun kind =>
    (kind, session.listeners.countP fun listener => listener.kind = kind)).filter fun entry =>
      entry.2 ≠ 0

/-- How a session shows itself to a programmer. -/
def description (session : Session) : String :=
  let counts := session.listenerCounts.map fun entry => entry.1.title ++ ": " ++ toString entry.2
  "TestParser \x7b dialects: [\"phpunit\", \"pest\"], events: EventEmitter \x7b listeners: \x7b" ++
    Text.join ", " counts ++ "\x7d \x7d, root: " ++ Text.quoted session.root ++ " \x7d"

end Session

end PhpTestIndex
