import PhpTestIndex.CommandLine

/-! # Arguments with and without an option

Arguments are read one after another (`PhpTestIndex.Arguments.Takes`), and what an argument adds does
not depend on whether `--json` stands before it (`PhpTestIndex.Arguments.Differs.addArgument`).  So
`--json` may be put wherever an option may stand and may be left out again, and the request stays
the same but for the format of its answer.
-/

namespace PhpTestIndex

/-- Two results are failures of the same kind, or related. -/
inductive Alike {α : Type} (related : α → α → Prop) : Except Guidance α → Except Guidance α → Prop
  | error (guidance : Guidance) : Alike related (.error guidance) (.error guidance)
  | ok {first second : α} (same : related first second) : Alike related (.ok first) (.ok second)

/-- A change that keeps what is related keeps results alike. -/
theorem Alike.map {α β : Type} {related : α → α → Prop} {related' : β → β → Prop}
    {first second : Except Guidance α} (alike : Alike related first second) {change : α → β}
    (kept : ∀ x y, related x y → related' (change x) (change y)) :
    Alike related' (first.map change) (second.map change) := by
  cases alike with
  | error guidance => exact .error guidance
  | ok same => exact .ok (kept _ _ same)

/-- What is like a success is a success itself. -/
theorem Alike.exists_first {α : Type} {related : α → α → Prop} {first : Except Guidance α}
    {y : α} (alike : Alike related first (.ok y)) : ∃ x, first = .ok x ∧ related x y := by
  cases alike with
  | ok same => exact ⟨_, rfl, same⟩

/-- What a success is like is a success itself. -/
theorem Alike.exists_second {α : Type} {related : α → α → Prop} {second : Except Guidance α}
    {x : α} (alike : Alike related (.ok x) second) : ∃ y, second = .ok y ∧ related x y := by
  cases alike with
  | ok same => exact ⟨_, rfl, same⟩

namespace Arguments

/-- Some arguments have the option `--json`, and others are the same without it. -/
structure Differs (plain withJson : Arguments) : Prop where
  names : withJson.names = plain.names
  absent : plain.has .json = false
  present : withJson.has .json = true
  same : ∀ switch ≠ Switch.json, withJson.options.lookup switch = plain.options.lookup switch

/-- The arguments with the option `--json` after them. -/
def withJson (arguments : Arguments) : Arguments :=
  { arguments with options := arguments.options ++ [(.json, "")] }

/-- One option more is the only thing that an argument adds to what was given. -/
theorem has_append (arguments : Arguments) (option switch : Switch) (value : String)
    (names : List String) :
    (⟨arguments.options ++ [(option, value)], names⟩ : Arguments).has switch =
      (arguments.has switch || switch == option) := by
  simp only [has, List.lookup_append, Option.isSome_or, List.lookup_cons, List.lookup_nil]
  cases switch == option <;> rfl

/-- Arguments without the option and the same with it at their end differ in it alone. -/
theorem differs_withJson {arguments : Arguments} (absent : arguments.has .json = false) :
    Differs arguments arguments.withJson where
  names := rfl
  absent := absent
  present := by rw [withJson, has_append]; simp
  same switch other := by
    have different : (switch == Switch.json) = false := by simpa using other
    simp [withJson, List.lookup_append, List.lookup_cons, different]

namespace Differs

variable {plain json : Arguments}

/-- An option other than `--json` is added to both or to none. -/
theorem addOption (differs : Differs plain json) {switch : Switch} (other : switch ≠ .json)
    (value : String) :
    Alike Differs (plain.addOption switch value) (json.addOption switch value) := by
  have added : Alike Differs
      (if (plain.options.lookup switch).isSome then
        .error (.usage "an argument cannot be used multiple times")
      else .ok { plain with options := plain.options ++ [(switch, value)] })
      (if (json.options.lookup switch).isSome then
        .error (.usage "an argument cannot be used multiple times")
      else .ok { json with options := json.options ++ [(switch, value)] }) := by
    rw [differs.same switch other]
    split
    · exact .error _
    · refine .ok ⟨differs.names, ?_, ?_, fun option different => ?_⟩
      · rw [has_append, differs.absent]
        simpa using other.symm
      · rw [has_append, differs.present, Bool.true_or]
      · simp only [List.lookup_append, differs.same option different]
  cases switch with
  | help => exact .error _
  | version => exact .error _
  | json => exact absurd rfl other
  | config => exact added
  | root => exact added
  | debug => exact added
  | force => exact added

/-- A value for another option is added, or refused, with and without `--json` alike. -/
theorem addValue (differs : Differs plain json) {switch : Switch} (other : switch ≠ .json)
    (value : String) :
    Alike Differs (plain.addValue switch value) (json.addValue switch value) := by
  unfold Arguments.addValue
  split
  · exact .error _
  · exact differs.addOption other value

/-- What an argument adds, and the option that waits for a value after it. -/
def WithWaiting (first second : Arguments × Option Switch) : Prop :=
  Differs first.1 second.1 ∧ first.2 = second.2 ∧ ∀ switch ∈ first.2, switch ≠ .json

/-- No letter stands for the option `--json`. -/
theorem ne_json_of_ofShort? {letter : Char} {switch : Switch}
    (named : Switch.ofShort? letter = some switch) : switch ≠ .json := by
  unfold Switch.ofShort? at named
  split at named <;> simp_all <;> rintro rfl <;> simp_all

/-- Options by their letters are added alike, since no letter stands for `--json`. -/
theorem addLetters (differs : Differs plain json) (command : Option CommandName)
    (letters : List Char) :
    Alike WithWaiting (plain.addLetters command letters) (json.addLetters command letters) := by
  induction letters generalizing plain json with
  | nil => exact .ok ⟨differs, rfl, nofun⟩
  | cons letter rest ih =>
      unfold Arguments.addLetters
      cases named : (Switch.ofShort? letter).filter fun switch => switch.isAllowed command with
      | none => exact .error _
      | some switch =>
          have other : switch ≠ .json := ne_json_of_ofShort? (Option.filter_eq_some_iff.mp named).1
          dsimp only
          split
          · cases rest with
            | nil => exact .ok ⟨differs, rfl, fun _ same => Option.some.inj same ▸ other⟩
            | cons c rest =>
                exact (differs.addValue other _).map fun _ _ added => ⟨added, rfl, nofun⟩
          · have added := differs.addOption other ""
            generalize plain.addOption switch "" = first at added ⊢
            generalize json.addOption switch "" = second at added ⊢
            cases added with
            | error guidance => exact .error guidance
            | ok same => exact ih same

/-- Only the word `json` stands for the option `--json`. -/
theorem eq_of_ofLong? {word : String} (named : Switch.ofLong? word = some .json) :
    word = "json" := by
  unfold Switch.ofLong? at named
  split at named <;> simp_all

/-- An option by its word is added, or refused, alike, if it is not `--json` itself. -/
theorem addWord (differs : Differs plain json) (command : Option CommandName) {word : String}
    (other : word ≠ "json") :
    Alike WithWaiting (plain.addWord command word) (json.addWord command word) := by
  unfold Arguments.addWord
  dsimp only
  cases named : (Switch.ofLong? (String.ofList (word.toList.takeWhile (· != '=')))).filter
      fun switch => switch.isAllowed command with
  | none => exact .error _
  | some switch =>
      dsimp only
      cases takes : switch.takesValue with
      | true =>
          have noJson : switch ≠ .json := by
            rintro rfl
            cases takes
          cases word.toList.dropWhile (· != '=') with
          | nil => exact .ok ⟨differs, rfl, fun _ same => Option.some.inj same ▸ noJson⟩
          | cons c value =>
              exact (differs.addValue noJson _).map fun _ _ added => ⟨added, rfl, nofun⟩
      | false =>
          cases left : word.toList.dropWhile (· != '=') with
          | cons c value => exact .error _
          | nil =>
              have whole : String.ofList (word.toList.takeWhile (· != '=')) = word := by
                have parts := List.takeWhile_append_dropWhile (p := (· != '=')) (l := word.toList)
                rw [left, List.append_nil] at parts
                rw [parts, String.ofList_toList]
              have noJson : switch ≠ .json := by
                rintro rfl
                have isLong := (Option.filter_eq_some_iff.mp named).1
                rw [whole] at isLong
                exact other (eq_of_ofLong? isLong)
              exact (differs.addOption noJson _).map fun _ _ added => ⟨added, rfl, nofun⟩

/-- An argument other than `--json` adds the same to both. -/
theorem addArgument (differs : Differs plain json) (command : Option CommandName)
    {argument : String} (other : argument ≠ "--json") :
    Alike WithWaiting (plain.addArgument command argument) (json.addArgument command argument) := by
  unfold Arguments.addArgument
  split
  · next word written =>
    refine differs.addWord command fun isJson => other (String.toList_injective ?_)
    rw [written, ← String.toList_ofList (l := word), isJson]
    rfl
  · exact differs.addLetters command _

end Differs

/-! ### One argument after another -/

/-- Two dashes are no plain argument. -/
theorem ne_of_isPlain {argument : String} (plain : isPlain argument = true) : "--" ≠ argument := by
  rintro rfl
  exact absurd plain (by decide)

/-- Some arguments are taken one after another: a name, an option, or an option with the value after
it.  Before the name of the command, no name is taken. -/
inductive Takes (command : Option CommandName) : Arguments → List String → Arguments → Prop
  | none (arguments : Arguments) : Takes command arguments [] arguments
  | name {arguments last : Arguments} {argument : String} {rest : List String}
    (plain : isPlain argument = true) (inside : command.isNone = false)
    (later : Takes command { arguments with names := arguments.names ++ [argument] } rest last) :
    Takes command arguments (argument :: rest) last
  | option {arguments next last : Arguments} {argument : String} {rest : List String}
    (dashed : isPlain argument = false) (noEnd : argument ≠ "--")
    (added : arguments.addArgument command argument = .ok (next, .none))
    (later : Takes command next rest last) : Takes command arguments (argument :: rest) last
  | valued {arguments named next last : Arguments} {argument value : String} {switch : Switch}
    {rest : List String} (dashed : isPlain argument = false) (noEnd : argument ≠ "--")
    (added : arguments.addArgument command argument = .ok (named, some switch))
    (plain : isPlain value = true) (set : named.addValue switch value = .ok next)
    (later : Takes command next rest last) :
    Takes command arguments (argument :: value :: rest) last

namespace Takes

variable {command : Option CommandName} {first middle last : Arguments} {taken rest : List String}

/-- What is taken is read, and reading goes on after it. -/
theorem read_append (takes : Takes command first taken last) (rest : List String) :
    read command first (taken ++ rest) = read command last rest := by
  induction takes with
  | none arguments => rfl
  | name plain inside later ih =>
      rw [List.cons_append, read.eq_def]
      simp only [(ne_of_isPlain plain).symm, plain, inside, if_true, if_false, Bool.false_eq_true, ih]
  | option dashed noEnd added later ih =>
      rw [List.cons_append, read.eq_def]
      simp only [noEnd, dashed, if_false, Bool.false_eq_true, added, ih]
  | valued dashed noEnd added plain set later ih =>
      rw [List.cons_append, List.cons_append, read.eq_def]
      simp only [noEnd, dashed, if_false, Bool.false_eq_true, added, plain, if_true, set, ih]

/-- Arguments that are taken after others are taken with them. -/
theorem trans (takes : Takes command first taken middle) (later : Takes command middle rest last) :
    Takes command first (taken ++ rest) last := by
  induction takes with
  | none arguments => exact later
  | name plain inside _ ih => exact .name plain inside (ih later)
  | option dashed noEnd added _ ih => exact .option dashed noEnd added (ih later)
  | valued dashed noEnd added plain set _ ih => exact .valued dashed noEnd added plain set (ih later)

/-- Two dashes alone are not taken. -/
theorem not_mem (takes : Takes command first taken last) : "--" ∉ taken := by
  induction takes with
  | none arguments => exact List.not_mem_nil
  | name plain inside later ih => exact List.not_mem_cons_of_ne_of_not_mem (ne_of_isPlain plain) ih
  | option dashed noEnd added later ih => exact List.not_mem_cons_of_ne_of_not_mem noEnd.symm ih
  | valued dashed noEnd added plain set later ih =>
      exact List.not_mem_cons_of_ne_of_not_mem noEnd.symm
        (List.not_mem_cons_of_ne_of_not_mem (ne_of_isPlain plain) ih)

end Takes

/-- Where reading ends: where nothing is left, at two dashes after the name of the command, or at the
first name before it. -/
inductive Ends (command : Option CommandName) (last : Arguments) :
    List String → Arguments × List String → Prop
  | none : Ends command last [] (last, [])
  | names (inside : command.isNone = false) (names : List String) :
    Ends command last ("--" :: names) ({ last with names := last.names ++ names }, [])
  | nothing (outside : command.isNone = true) : Ends command last ["--"] (last, [])
  | first {name : String} (outside : command.isNone = true) (plain : isPlain name = true)
    (rest : List String) : Ends command last (name :: rest) (last, name :: rest)

/-- Arguments are read by taking them one after another up to where reading ends. -/
theorem exists_takes {command : Option CommandName} {arguments : Arguments} {list : List String}
    {result : Arguments × List String} (done : read command arguments list = .ok result) :
    ∃ taken last left, list = taken ++ left ∧ Takes command arguments taken last ∧
      Ends command last left result := by
  fun_induction read command arguments list with
  | case1 arguments => exact ⟨[], arguments, [], rfl, .none _, Except.ok.inj done ▸ .none⟩
  | case2 arguments outside =>
      exact ⟨[], arguments, ["--"], rfl, .none _, Except.ok.inj done ▸ .nothing outside⟩
  | case4 arguments names inside =>
      exact ⟨[], arguments, "--" :: names, rfl, .none _,
        Except.ok.inj done ▸ .names (Bool.eq_false_iff.mpr inside) names⟩
  | case5 arguments name rest noEnd plain outside =>
      exact ⟨[], arguments, name :: rest, rfl, .none _, Except.ok.inj done ▸ .first outside plain rest⟩
  | case6 arguments name rest noEnd plain inside ih =>
      obtain ⟨taken, last, left, rfl, takes, ends⟩ := ih done
      exact ⟨name :: taken, last, left, rfl, .name plain (Bool.eq_false_iff.mpr inside) takes, ends⟩
  | case8 arguments argument noEnd dashed next rest added ih =>
      obtain ⟨taken, last, left, rfl, takes, ends⟩ := ih done
      exact ⟨argument :: taken, last, left, rfl,
        .option (by simpa using dashed) noEnd added takes, ends⟩
  | case11 arguments argument noEnd dashed named switch value rest added plain next set ih =>
      obtain ⟨taken, last, left, rfl, takes, ends⟩ := ih done
      exact ⟨argument :: value :: taken, last, left, rfl,
        .valued (by simpa using dashed) noEnd added plain set takes, ends⟩
  | case3 => cases done
  | case7 => cases done
  | case9 => cases done
  | case10 => cases done
  | case12 => cases done

/-! ### With and without the option -/

/-- The option itself is added where it is allowed, once, and refused anywhere else. -/
theorem addArgument_json (command : Option CommandName) (arguments : Arguments) :
    arguments.addArgument command "--json" =
      if Switch.json.isAllowed command then
        (arguments.addOption .json "").map fun arguments => (arguments, none)
      else .error (unexpected "--json") := by
  have named : Switch.ofLong? (String.ofList ("json".toList.takeWhile (· != '='))) = some .json := rfl
  change addWord command arguments "json" = _
  simp only [addWord, named, Option.filter_some]
  cases Switch.json.isAllowed command <;> rfl

/-- Where `--json` is taken, it is added to arguments that do not have it. -/
theorem of_addArgument_json {command : Option CommandName} {arguments next : Arguments}
    {waiting : Option Switch}
    (added : arguments.addArgument command "--json" = .ok (next, waiting)) :
    waiting = none ∧ next = arguments.withJson ∧ arguments.has .json = false ∧
      Switch.json.isAllowed command = true := by
  rw [addArgument_json] at added
  split at added
  · next allowed =>
    unfold addOption at added
    dsimp only at added
    split at added
    · cases added
    · next absent =>
      cases added
      exact ⟨rfl, rfl, Bool.eq_false_iff.mpr absent, allowed⟩
  · cases added

/-- A name is added alike. -/
theorem Differs.addName {plain json : Arguments} (differs : Differs plain json) (name : String) :
    Differs { plain with names := plain.names ++ [name] }
      { json with names := json.names ++ [name] } :=
  ⟨by rw [differs.names], differs.absent, differs.present, differs.same⟩

namespace Takes

variable {command : Option CommandName} {plain json last : Arguments} {taken : List String}

/-- What is taken after `--json` is taken without it. -/
theorem without (takes : Takes command json taken last) (differs : Differs plain json) :
    ∃ last', Takes command plain taken last' ∧ Differs last' last := by
  -- The option is there already, so that no other one is taken.
  have twice {arguments next : Arguments} {waiting : Option Switch}
      (present : arguments.has .json = true) :
      arguments.addArgument command "--json" ≠ .ok (next, waiting) := by
    intro added
    rw [(of_addArgument_json added).2.2.1] at present
    cases present
  induction takes generalizing plain with
  | none arguments => exact ⟨plain, .none _, differs⟩
  | name isName inside later ih =>
      obtain ⟨last', takes, same⟩ := ih (differs.addName _)
      exact ⟨last', .name isName inside takes, same⟩
  | @option _ _ _ argument _ dashed noEnd added later ih =>
      have other : argument ≠ "--json" := by
        rintro rfl
        exact twice differs.present added
      have alike := differs.addArgument command other
      rw [added] at alike
      obtain ⟨⟨next, _⟩, addedToo, same, rfl, -⟩ := alike.exists_first
      obtain ⟨last', takes, same⟩ := ih same
      exact ⟨last', .option dashed noEnd addedToo takes, same⟩
  | @valued _ _ _ _ argument value _ _ dashed noEnd added isValue set later ih =>
      have other : argument ≠ "--json" := by
        rintro rfl
        exact twice differs.present added
      have alike := differs.addArgument command other
      rw [added] at alike
      obtain ⟨⟨named, _⟩, addedToo, same, rfl, noJson⟩ := alike.exists_first
      have valued := same.addValue (noJson _ rfl) value
      rw [set] at valued
      obtain ⟨next, setToo, same⟩ := valued.exists_first
      obtain ⟨last', takes, same⟩ := ih same
      exact ⟨last', .valued dashed noEnd addedToo isValue setToo takes, same⟩

/-- What is taken is taken after `--json` too, if `--json` is not among it. -/
theorem behind (takes : Takes command plain taken last) (absent : last.has .json = false)
    (differs : Differs plain json) :
    ∃ last', Takes command json taken last' ∧ Differs last last' := by
  induction takes generalizing json with
  | none arguments => exact ⟨json, .none _, differs⟩
  | name isName inside later ih =>
      obtain ⟨last', takes, same⟩ := ih absent (differs.addName _)
      exact ⟨last', .name isName inside takes, same⟩
  | @option arguments _ _ argument _ dashed noEnd added later ih =>
      have other : argument ≠ "--json" := by
        -- What is taken after the option keeps it, and it is not there in the end.
        rintro rfl
        obtain ⟨-, rfl, before, -⟩ := of_addArgument_json added
        obtain ⟨last', -, same⟩ := later.without (differs_withJson before)
        rw [same.present] at absent
        cases absent
      have alike := differs.addArgument command other
      rw [added] at alike
      obtain ⟨⟨next, _⟩, addedToo, same, rfl, -⟩ := alike.exists_second
      obtain ⟨last', takes, same⟩ := ih absent same
      exact ⟨last', .option dashed noEnd addedToo takes, same⟩
  | @valued arguments _ _ _ argument value _ _ dashed noEnd added isValue set later ih =>
      have other : argument ≠ "--json" := by
        rintro rfl
        cases (of_addArgument_json added).1
      have alike := differs.addArgument command other
      rw [added] at alike
      obtain ⟨⟨named, _⟩, addedToo, same, rfl, noJson⟩ := alike.exists_second
      have valued := Differs.addValue same (noJson _ rfl) value
      rw [set] at valued
      obtain ⟨next, setToo, same⟩ := valued.exists_second
      obtain ⟨last', takes, same⟩ := ih absent same
      exact ⟨last', .valued dashed noEnd addedToo isValue setToo takes, same⟩

/-- Arguments among which `--json` stands are taken up to it, and then after it. -/
theorem split {first : Arguments} {before after : List String}
    (takes : Takes command first (before ++ "--json" :: after) last) :
    ∃ middle, Takes command first before middle ∧ middle.has .json = false ∧
      Switch.json.isAllowed command = true ∧ Takes command middle.withJson after last := by
  generalize same : before ++ "--json" :: after = list at takes
  induction takes generalizing before with
  | none arguments => simp at same
  | @name _ _ argument rest isName inside later ih =>
      cases before with
      | nil =>
          obtain ⟨rfl, rfl⟩ := List.cons.inj same
          exact absurd isName (by decide)
      | cons head before =>
          obtain ⟨rfl, left⟩ := List.cons.inj same
          obtain ⟨middle, takes, rest⟩ := ih left
          exact ⟨middle, .name isName inside takes, rest⟩
  | option dashed noEnd added later ih =>
      cases before with
      | nil =>
          obtain ⟨rfl, rfl⟩ := List.cons.inj same
          obtain ⟨-, rfl, absent, allowed⟩ := of_addArgument_json added
          exact ⟨_, .none _, absent, allowed, later⟩
      | cons head before =>
          obtain ⟨rfl, left⟩ := List.cons.inj same
          obtain ⟨middle, takes, rest⟩ := ih left
          exact ⟨middle, .option dashed noEnd added takes, rest⟩
  | valued dashed noEnd added isValue set later ih =>
      -- The option waits for no value itself, and is the value of no other one.
      rcases before with _ | ⟨head, _ | ⟨second, before⟩⟩
      · obtain ⟨rfl, -⟩ := List.cons.inj same
        cases (of_addArgument_json added).1
      · obtain ⟨rfl, left⟩ := List.cons.inj same
        obtain ⟨rfl, -⟩ := List.cons.inj left
        exact absurd isValue (by decide)
      · obtain ⟨rfl, left⟩ := List.cons.inj same
        obtain ⟨rfl, left'⟩ := List.cons.inj left
        obtain ⟨middle, takes, rest⟩ := ih left'
        exact ⟨middle, .valued dashed noEnd added isValue set takes, rest⟩

/-- Arguments have `--json` only if it stands among what is taken. -/
theorem exists_json {first : Arguments} (takes : Takes command first taken last)
    (absent : first.has .json = false) (present : last.has .json = true) :
    ∃ before after, taken = before ++ "--json" :: after := by
  induction takes with
  | none arguments =>
      rw [absent] at present
      cases present
  | name isName inside later ih =>
      obtain ⟨before, after, rfl⟩ := ih absent present
      exact ⟨_ :: before, after, rfl⟩
  | @option arguments _ _ argument rest dashed noEnd added later ih =>
      by_cases isJson : argument = "--json"
      · exact ⟨[], rest, by rw [isJson]; rfl⟩
      · have alike := (differs_withJson absent).addArgument command isJson
        rw [added] at alike
        obtain ⟨⟨json, _⟩, -, same, -⟩ := alike.exists_second
        obtain ⟨before, after, rfl⟩ := ih same.absent present
        exact ⟨_ :: before, after, rfl⟩
  | @valued arguments _ _ _ argument value _ _ dashed noEnd added isValue set later ih =>
      have other : argument ≠ "--json" := by
        rintro rfl
        cases (of_addArgument_json added).1
      have alike := (differs_withJson absent).addArgument command other
      rw [added] at alike
      obtain ⟨⟨named, _⟩, -, same, rfl, noJson⟩ := alike.exists_second
      have valued := Differs.addValue same (noJson _ rfl) value
      rw [set] at valued
      obtain ⟨next, -, same⟩ := valued.exists_second
      obtain ⟨before, after, rfl⟩ := ih same.absent present
      exact ⟨_ :: _ :: before, after, rfl⟩

end Takes

namespace Ends

variable {command : Option CommandName} {last plain json : Arguments} {left : List String}
  {result : Arguments × List String}

/-- Where reading ends, the result is what was taken so far. -/
theorem read_eq (ends : Ends command last left result) : read command last left = .ok result := by
  cases ends with
  | none => rfl
  | names inside names =>
      rw [read.eq_def]
      simp only [if_true, inside, Bool.false_eq_true, if_false]
  | nothing outside =>
      rw [read.eq_def]
      simp only [if_true, outside]
  | first outside plain rest =>
      rw [read.eq_def]
      simp only [(ne_of_isPlain plain).symm, if_false, plain, outside, if_true]

/-- What comes after the end of reading gives no option, so `--json` is there if it was taken
before. -/
theorem has_json (ends : Ends command last left result) : result.1.has .json = last.has .json := by
  cases ends <;> rfl

/-- Where reading ends with `--json`, it ends without it. -/
theorem without (ends : Ends command json left result) (differs : Differs plain json) :
    ∃ result', Ends command plain left result' ∧ Differs result'.1 result.1 := by
  cases ends with
  | none => exact ⟨_, .none, differs⟩
  | names inside names =>
      exact ⟨_, .names inside names, by rw [differs.names], differs.absent, differs.present, differs.same⟩
  | nothing outside => exact ⟨_, .nothing outside, differs⟩
  | first outside isName rest => exact ⟨_, .first outside isName rest, differs⟩

/-- Where reading ends without `--json`, it ends with it. -/
theorem behind (ends : Ends command plain left result) (differs : Differs plain json) :
    ∃ result', Ends command json left result' ∧ Differs result.1 result'.1 := by
  cases ends with
  | none => exact ⟨_, .none, differs⟩
  | names inside names =>
      exact ⟨_, .names inside names, by rw [differs.names], differs.absent, differs.present, differs.same⟩
  | nothing outside => exact ⟨_, .nothing outside, differs⟩
  | first outside isName rest => exact ⟨_, .first outside isName rest, differs⟩

end Ends

/-- One list of arguments is another one with `--json` added as an option: anywhere, but not behind
two dashes, after which everything is a name. -/
inductive AddsJson : List String → List String → Prop
  | intro (before after : List String) (isOption : "--" ∉ before) :
    AddsJson (before ++ after) (before ++ "--json" :: after)

end Arguments

end PhpTestIndex
