import PhpTestIndex.Proofs.CommandLine.Arguments

/-! # Requests with and without an option

The request that arguments make is read in two steps: what stands before the name of the command, and
what stands after it (`PhpTestIndex.Request.Spells`). The option `--json` can only stand in
the second part, and only if the command asks for tests. So arguments with `--json` ask the question
that they ask without it (`PhpTestIndex.Request.read_of_addsJson`), and it can be added to every
question (`PhpTestIndex.Request.exists_withJson`).
-/

namespace PhpTestIndex

/-- What tests are asked for. -/
inductive Question
  | inFile (path : String)
  /-- The tests below a directory, or below those of the settings. -/
  | below (directory : Option String)

/-- The command that asks a question. -/
def Question.command (format : Format) : Question → Command
  | inFile path => .parse path format
  | below directory => .discover directory format

/-- The request with a question, to be answered in a format. -/
def Request.asking (request : Request) (question : Question) (format : Format) : Request :=
  { request with command := question.command format }

/-- What a change gives is the change of a result. -/
theorem Guidance.map_eq_ok_iff {α β : Type} {change : α → β} {result : Except Guidance α} {y : β} :
    result.map change = .ok y ↔ ∃ x, result = .ok x ∧ change x = y := by
  cases result with
  | error guidance => exact ⟨nofun, nofun⟩
  | ok x => simp [Except.map]

namespace Arguments

variable {plain json : Arguments}

/-- Arguments have the option exactly if they ask for an answer in JSON. -/
theorem has_json (arguments : Arguments) :
    arguments.has .json = decide (arguments.format = .json) := by
  unfold Arguments.format
  cases arguments.has .json <;> rfl

/-- Only what stands before the first two dashes can be an option. -/
theorem AddsJson.exists_eq {plain withJson : List String} (adds : AddsJson plain withJson) :
    ∃ before after, "--" ∉ before ∧ plain = before ++ after ∧
      withJson = before ++ "--json" :: after := by
  obtain ⟨before, after, isOption⟩ := adds
  exact ⟨before, after, isOption, rfl, rfl⟩

/-- A command that allows `--json` asks the same question with it and without it. -/
theorem Differs.command (differs : Differs plain json) {name : CommandName}
    (allowed : Switch.json.isAllowed (some name) = true) :
    Alike (fun first second => ∃ question : Question,
        first = question.command .text ∧ second = question.command .json)
      (plain.command name) (json.command name) := by
  have text : plain.format = .text := by rw [Arguments.format, differs.absent]; rfl
  have asJson : json.format = .json := by rw [Arguments.format, differs.present]; rfl
  have named (count : Nat) : json.namesUpTo count = plain.namesUpTo count := by
    rw [namesUpTo, namesUpTo, differs.names]
  cases name with
  | parse =>
      simp only [Arguments.command, named, text, asJson]
      rcases plain.namesUpTo 1 with _ | _ | ⟨file, _⟩
      · exact .error _
      · exact .error _
      · exact .ok ⟨.inFile file, rfl, rfl⟩
  | discover =>
      simp only [Arguments.command, named, text, asJson]
      cases plain.namesUpTo 1 with
      | error guidance => exact .error _
      | ok names => exact .ok ⟨.below names.head?, rfl, rfl⟩
  | init => cases allowed
  | config => cases allowed
  | help => cases allowed

/-- A question is asked only by a command that allows `--json`, in the format of its arguments. -/
theorem of_command {arguments : Arguments} {name : CommandName} {question : Question}
    {format : Format} (asked : arguments.command name = .ok (question.command format)) :
    Switch.json.isAllowed (some name) = true ∧ format = arguments.format := by
  cases name with
  | parse =>
      refine ⟨rfl, ?_⟩
      simp only [command] at asked
      split at asked
      · cases asked
      · cases asked
      · cases question with
        | inFile path =>
            injection asked with same
            injection same with _ same
            exact same.symm
        | below directory => cases asked
  | discover =>
      refine ⟨rfl, ?_⟩
      simp only [command] at asked
      obtain ⟨names, -, same⟩ := Guidance.map_eq_ok_iff.mp asked
      cases question with
      | inFile path => cases same
      | below directory =>
          injection same with _ same
          exact same.symm
  | init =>
      obtain ⟨names, -, same⟩ := Guidance.map_eq_ok_iff.mp asked
      cases question <;> cases same
  | config =>
      obtain ⟨names, -, same⟩ := Guidance.map_eq_ok_iff.mp asked
      cases question <;> cases same
  | help =>
      simp only [command] at asked
      split at asked <;> cases asked

end Arguments

namespace Request

open Arguments

/-- Arguments spell a request, or what is wrong with it: some are taken before the name of the
command, others after it, and reading ends. -/
inductive Spells : List String → Except Guidance Request → Prop
  | intro {outer : Arguments} {before : List String} {word : String} {name : CommandName}
    {taken left : List String} {last : Arguments} {result : Arguments × List String}
    (first : Takes none .empty before outer) (isName : isPlain word = true)
    (named : CommandName.ofText? word = some name)
    (second : Takes (some name) .empty taken last) (ends : Ends (some name) last left result) :
    Spells (before ++ word :: (taken ++ left)) (ofArguments outer name result.1)

/-- A request that is spelled by some arguments is what reading them gives. -/
theorem Spells.read_eq {arguments : List String} {result : Except Guidance Request}
    (spells : Spells arguments result) : Request.read arguments = result := by
  obtain @⟨outer, before, word, name, taken, left, last, result, first, isName, named, second, ends⟩ :=
    spells
  have outside : Arguments.read none .empty (before ++ word :: (taken ++ left)) =
      .ok (outer, word :: (taken ++ left)) :=
    (first.read_append _).trans (Ends.first rfl isName _).read_eq
  have inside : Arguments.read (some name) .empty (taken ++ left) = .ok result :=
    (second.read_append left).trans ends.read_eq
  rw [Request.read, outside]
  simp only [named, inside]

/-- Whatever request is read is spelled by its arguments. -/
theorem spells_of_read {arguments : List String} {request : Request}
    (asked : Request.read arguments = .ok request) : Spells arguments (.ok request) := by
  unfold Request.read at asked
  split at asked
  · cases asked
  · cases asked
  · next outer word rest outside =>
    split at asked
    · cases asked
    · next name named =>
      split at asked
      · cases asked
      · next inner _ inside =>
        rw [← asked]
        obtain ⟨before, outer', left, rfl, first, ends⟩ := exists_takes outside
        obtain ⟨taken, last, left', rfl, second, ends'⟩ := exists_takes inside
        cases ends with
        | first _ isName rest => exact .intro first isName named second ends'

/-- Something in the middle of one list is in the first part of another one, or behind it. -/
theorem exists_eq_of_append {before after taken left : List String} {argument : String}
    (same : before ++ argument :: after = taken ++ left) :
    (∃ rest, taken = before ++ argument :: rest ∧ after = rest ++ left) ∨
      ∃ start, before = taken ++ start ∧ left = start ++ argument :: after := by
  rcases List.append_eq_append_iff.mp same with ⟨middle, rfl, second⟩ | ⟨start, rfl, rfl⟩
  · cases middle with
    | nil => exact .inr ⟨[], by simp, by simpa using second.symm⟩
    | cons head rest =>
        obtain ⟨rfl, rfl⟩ := List.cons.inj second
        exact .inl ⟨rest, rfl, rfl⟩
  · exact .inr ⟨start, rfl, rfl⟩

/-- The option `--json` can only stand among what is taken after the name of the command: before the
name it is not allowed, and reading does not end at it. -/
theorem exists_eq_of_addsJson {outer last : Arguments} {name : CommandName} {word : String}
    {before taken left plain : List String} {result : Arguments × List String}
    (first : Takes none .empty before outer) (isName : isPlain word = true)
    (ends : Ends (some name) last left result)
    (adds : AddsJson plain (before ++ word :: (taken ++ left))) :
    ∃ start rest, taken = start ++ "--json" :: rest ∧
      plain = before ++ word :: (start ++ rest ++ left) := by
  obtain ⟨outside, after, isOption, rfl, same⟩ := adds.exists_eq
  -- Among what is taken before the name of the command, the option would have been refused.
  rcases exists_eq_of_append same.symm with ⟨rest, rfl, -⟩ | ⟨inside, rfl, behind⟩
  · obtain ⟨-, -, -, allowed, -⟩ := first.split
    cases allowed
  rcases inside with _ | ⟨head, start⟩
  · obtain ⟨rfl, -⟩ := List.cons.inj behind
    exact absurd isName (by decide)
  obtain ⟨rfl, afterName⟩ := List.cons.inj behind
  rcases exists_eq_of_append afterName.symm with ⟨rest, rfl, rfl⟩ | ⟨tail, rfl, atEnd⟩
  · exact ⟨start, rest, rfl, by simp⟩
  · -- Behind the end of reading there are only names after two dashes.
    exfalso
    cases ends with
    | none => simp at atEnd
    | names inside names =>
        cases tail with
        | nil => simp at atEnd
        | cons head tail =>
            obtain ⟨rfl, -⟩ := List.cons.inj atEnd
            exact isOption (by simp)
    | nothing outside => cases outside
    | first outside => cases outside

/-- The requests with and without `--json` differ only in the format of the answer. -/
theorem ofArguments_differs (outer : Arguments) {plain json : Arguments}
    (differs : Differs plain json) {name : CommandName} (allowed : Switch.json.isAllowed (some name) = true) :
    Alike (fun text json => ∃ question : Question,
        text = json.asking question .text ∧ json = json.asking question .json)
      (ofArguments outer name plain) (ofArguments outer name json) := by
  have others : json.has .debug = plain.has .debug := by
    rw [has, has, differs.same .debug (by decide)]
  simp only [ofArguments, others, differs.same .config (by decide), differs.same .root (by decide)]
  refine (differs.command allowed).map ?_
  rintro _ _ ⟨question, rfl, rfl⟩
  exact ⟨question, rfl, rfl⟩

/-- Arguments with `--json` ask a question, and without it they ask the same question. -/
theorem read_of_addsJson {plain withJson : List String} {json : Request}
    (adds : AddsJson plain withJson) (asked : Request.read withJson = .ok json) :
    ∃ question : Question, json = json.asking question .json ∧
      Request.read plain = .ok (json.asking question .text) := by
  have spells := spells_of_read asked
  generalize same : (Except.ok json : Except Guidance Request) = result at spells
  obtain @⟨outer, _, _, _, _, _, _, _, first, isName, named, second, ends⟩ := spells
  obtain ⟨start, rest, rfl, rfl⟩ := exists_eq_of_addsJson first isName ends adds
  obtain ⟨middle, before, absent, allowed, after⟩ := second.split
  obtain ⟨last', after', differs⟩ := after.without (differs_withJson absent)
  obtain ⟨result', ends', differs⟩ := ends.without differs
  have alike := ofArguments_differs outer differs allowed
  rw [← same] at alike
  obtain ⟨text, made, question, rfl, isJson⟩ := alike.exists_first
  refine ⟨question, isJson, ?_⟩
  rw [← made]
  exact (Spells.intro first isName named (before.trans after') ends').read_eq

/-- The format that is asked for is that of the arguments after the name of the command. -/
theorem of_ofArguments {outer inner : Arguments} {name : CommandName} {request : Request}
    {question : Question} {format : Format}
    (made : ofArguments outer name inner = .ok (request.asking question format)) :
    Switch.json.isAllowed (some name) = true ∧ format = inner.format := by
  obtain ⟨command, asks, isRequest⟩ := Guidance.map_eq_ok_iff.mp made
  have isCommand : command = question.command format := congrArg Request.command isRequest
  exact of_command (isCommand ▸ asks)

/-- Whether two requests ask the same does not depend on the format. -/
theorem eq_of_asking_eq {first second : Request} {question question' : Question} {format : Format}
    (same : first.asking question format = second.asking question' format) (other : Format) :
    first.asking question other = second.asking question' other := by
  obtain ⟨config, root, debug, command⟩ := first
  obtain ⟨config', root', debug', command'⟩ := second
  cases question <;> cases question' <;> simp_all [asking, Question.command]

/-- A question that is asked without `--json` can be asked with it. -/
theorem exists_withJson {arguments : List String} {request : Request} {question : Question}
    (asked : Request.read arguments = .ok (request.asking question .text)) :
    ∃ withJson, AddsJson arguments withJson ∧
      Request.read withJson = .ok (request.asking question .json) := by
  have spells := spells_of_read asked
  generalize same : (Except.ok (request.asking question .text) : Except Guidance Request) = result
    at spells
  obtain @⟨outer, before, word, name, taken, left, last, inner, first, isName, named, second, ends⟩ :=
    spells
  obtain ⟨allowed, isText⟩ := of_ofArguments same.symm
  have absent : last.has .json = false := by
    rw [← ends.has_json, has_json, ← isText]
    rfl
  -- The option goes right after the name of the command.
  have isOption : "--" ∉ before ++ [word] :=
    List.not_mem_append first.not_mem (by simpa using ne_of_isPlain isName)
  have added : Arguments.empty.addArgument (some name) "--json" =
      .ok (Arguments.empty.withJson, none) := by
    rw [addArgument_json, if_pos allowed]
    rfl
  obtain ⟨last', taken', differs⟩ := second.behind absent (differs_withJson rfl)
  obtain ⟨inner', ends', differs⟩ := ends.behind differs
  have alike := ofArguments_differs outer differs allowed
  rw [← same] at alike
  obtain ⟨json, made, question', isText, isJson⟩ := alike.exists_second
  have spelled := Spells.intro first isName named
    (.option (by decide) (by decide) added taken') ends'
  refine ⟨before ++ word :: "--json" :: (taken ++ left), ?_, ?_⟩
  · simpa using AddsJson.intro (before ++ [word]) (taken ++ left) isOption
  · rw [eq_of_asking_eq isText .json, ← isJson, ← made]
    exact spelled.read_eq

/-- A question that is asked with `--json` can be asked without it. -/
theorem exists_plain {arguments : List String} {request : Request} {question : Question}
    (asked : Request.read arguments = .ok (request.asking question .json)) :
    ∃ plain, AddsJson plain arguments ∧
      Request.read plain = .ok (request.asking question .text) := by
  suffices exists_adds : ∃ plain, AddsJson plain arguments by
    obtain ⟨plain, adds⟩ := exists_adds
    obtain ⟨question', isQuestion, askedToo⟩ := read_of_addsJson adds asked
    exact ⟨plain, adds, eq_of_asking_eq isQuestion .text ▸ askedToo⟩
  have spells := spells_of_read asked
  generalize same : (Except.ok (request.asking question .json) : Except Guidance Request) = result
    at spells
  obtain @⟨outer, before, word, name, taken, left, last, inner, first, isName, named, second, ends⟩ :=
    spells
  have present : last.has .json = true := by
    rw [← ends.has_json, has_json, ← (of_ofArguments same.symm).2]
    rfl
  obtain ⟨start, rest, rfl⟩ := second.exists_json rfl present
  have isOption : "--" ∉ before ++ word :: start := by
    have noneTaken := second.not_mem
    rw [List.mem_append, not_or] at noneTaken
    exact List.not_mem_append first.not_mem
      (List.not_mem_cons_of_ne_of_not_mem (ne_of_isPlain isName) noneTaken.1)
  exact ⟨_, by simpa using AddsJson.intro _ (rest ++ left) isOption⟩

end Request

end PhpTestIndex
