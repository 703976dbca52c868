import PhpTestIndex.Session

/-! # Reading has no memory

A session keeps its readers from one file to the next, and a file may leave a reader in any scope
and with any root. Nothing of this reaches the next file: what reading a file gives depends on the
listeners and the root of the session alone (`PhpTestIndex.Session.read_eq_fresh`), and the root is
changed by being set and by nothing else. After any calls, a text therefore gives the tests that a
session which has not read anything finds (`PhpTestIndex.Session.result_after_calls`).
-/

namespace PhpTestIndex.Session

/-- What a session can be asked. -/
inductive Call
  | listen (listener : Listener)
  | setRoot (root : String)
  | parse (directory file : String) (text : List Char)
  | find (directory file : String) (text : List Char)

/-- The session after a call. -/
def answer (session : Session) : Call → Session
  | .listen listener => session.listen listener
  | .setRoot root => session.setRoot root
  | .parse directory file text => (session.parse directory file text).2
  | .find directory file text => (session.find directory file text).2

/-- The session after some calls, one after the other. -/
def after (session : Session) (calls : List Call) : Session :=
  calls.foldl answer session

/-- The root after some calls: the one that was set last. -/
def rootAfter (root : String) : List Call → String
  | [] => root
  | .setRoot later :: rest => rootAfter later rest
  | _ :: rest => rootAfter root rest

/-- A session that has not read anything, with the listeners and the root of this one. -/
def fresh (session : Session) : Session :=
  { start session.root with listeners := session.listeners }

section Step

variable (session : Session) (directory file : String)

/-- The tests that are found do not depend on what the readers have kept. -/
theorem findTests_fst (document : Php.Document) :
    (session.findTests directory file document).1 =
      document.forest? directory session.root file := by
  have inClasses : (PhpUnit.read document file session.classContext).1 =
      PhpUnit.forest? document file := rfl
  have byCalls : ((session.callReader.setRoot session.root).read directory document file).1 =
      Pest.forest? directory session.root document file := rfl
  unfold findTests Php.Document.forest?
  rw [← inClasses, ← byCalls]
  rcases PhpUnit.read document file session.classContext with ⟨found, context⟩
  cases found with
  | none => rfl
  | some forest => rfl

/-- Looking for tests changes neither the root nor the listeners of a session. -/
theorem findTests_snd (document : Php.Document) :
    (session.findTests directory file document).2.root = session.root ∧
      (session.findTests directory file document).2.listeners = session.listeners := by
  unfold findTests
  dsimp only
  split <;> exact ⟨rfl, rfl⟩

variable (text : List Char)

/-- What reading a file gives, without the readers. -/
theorem read_eq :
    session.read directory file text =
      match Php.Document.read text with
      | .error fault => ⟨.error fault, []⟩
      | .ok document =>
        match document.forest? directory session.root file with
        | none => ⟨.ok none, []⟩
        | some forest =>
          ⟨.ok (some forest), (duplicateWarnings file forest).map .warned ++
            (session.announce forest).flatMap Event.ofAnnouncement⟩ := by
  unfold read parse
  cases Php.Document.read text with
  | error fault => rfl
  | ok document =>
      simp only [← findTests_fst]
      rcases session.findTests directory file document with ⟨found, later⟩
      cases found with
      | none => rfl
      | some forest => rfl

/-- **What reading gives depends on the listeners and the root alone.** -/
theorem read_eq_fresh :
    session.read directory file text = session.fresh.read directory file text := by
  rw [read_eq, read_eq]
  rfl

/-- Reading a file gives the tests in classes, or else those registered by calls, or the fault for
which the text does not parse. -/
theorem read_result :
    (session.read directory file text).result =
      (Php.Document.read text).map fun document =>
        document.forest? directory session.root file := by
  rw [read_eq]
  cases Php.Document.read text with
  | error fault => rfl
  | ok document =>
      simp only [Except.map]
      cases document.forest? directory session.root file with
      | none => rfl
      | some forest => rfl

/-- Parsing a text changes neither the root nor the listeners, whether it succeeds or not. -/
theorem parse_snd :
    (session.parse directory file text).2.root = session.root ∧
      (session.parse directory file text).2.listeners = session.listeners := by
  unfold parse
  cases Php.Document.read text with
  | error fault => exact ⟨rfl, rfl⟩
  | ok document =>
      have kept := session.findTests_snd directory file document
      dsimp only
      split <;> exact kept

/-- Finding leaves the session as parsing does: what differs is the answer alone. -/
theorem find_snd :
    (session.find directory file text).2 = (session.parse directory file text).2 := by
  unfold find
  dsimp only
  split <;> rfl

end Step

/-- The root changes only where it is set. -/
theorem root_after (session : Session) (calls : List Call) :
    (session.after calls).root = rootAfter session.root calls := by
  induction calls generalizing session with
  | nil => rfl
  | cons call rest ih =>
      rw [after, List.foldl_cons, ← after, ih]
      cases call with
      | listen listener => rfl
      | setRoot root => rfl
      | parse directory file text => rw [answer, (parse_snd ..).1]; rfl
      | find directory file text => rw [answer, find_snd, (parse_snd ..).1]; rfl

/-- A text is read exactly if its syntax tree has no fault. -/
theorem exists_read_eq_error_iff (text : List Char) :
    (∃ fault, Php.Document.read text = .error fault) ↔
      (Php.Node.ofCode (Php.separateTags text)).hasError = true := by
  rw [← Php.Node.isSome_firstError?, Option.isSome_iff_exists, Php.Document.read]
  cases (Php.Node.ofCode (Php.separateTags text)).firstError? with
  | none => simp
  | some fault => simp

/-- **Reading has no memory.** After any calls, reading a text gives what a session with the same
root gives that has not read anything: the tests in classes, or else the tests registered by calls
under that root, or a fault exactly if the syntax tree of the text has one. -/
theorem result_after_calls (root : String) (calls : List Call) (directory file : String)
    (text : List Char) :
    let session := (start root).after calls
    session.root = rootAfter root calls ∧
      (session.read directory file text).result =
        ((start session.root).read directory file text).result ∧
      (session.read directory file text).result =
        (Php.Document.read text).map (fun document =>
          (PhpUnit.forest? document file).or
            (Pest.forest? directory session.root document file)) ∧
      ((∃ fault, (session.read directory file text).result = .error fault) ↔
        (Php.Node.ofCode (Php.separateTags text)).hasError = true) := by
  intro session
  refine ⟨root_after (start root) calls, ?_, session.read_result directory file text, ?_⟩
  · rw [read_result, read_result]
    rfl
  · rw [← exists_read_eq_error_iff, read_result]
    cases Php.Document.read text with
    | error fault => simp [Except.map]
    | ok document => simp [Except.map]

end PhpTestIndex.Session
