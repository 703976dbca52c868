import PhpTestIndex.Proofs.Toml.Value

/-! # TOML documents are read as they are written

A document is read line by line.  `PhpTestIndex.Toml.Goes` says that reading goes on from one place
to a later one; one step is a field, a header or a break, and the fields of a table and the tables
of a document follow by induction.  What comes out are the fields that were written
(`PhpTestIndex.Toml.readDocument_renderDocument`).
-/

namespace PhpTestIndex.Toml

/-! ### Keys -/

/-- A name that stands as a key without quotes. -/
def IsBare (name : String) : Prop :=
  name.toList ≠ [] ∧ ∀ c ∈ name.toList, isKeyCharacter c = true

instance : DecidablePred IsBare := fun name =>
  decidable_of_iff (name.toList ≠ [] ∧ name.toList.all isKeyCharacter = true)
    (and_congr_right' List.all_eq_true)

/-- A character of a key is none of the signs around keys. -/
theorem ne_of_isKeyCharacter {c d : Char} (isKey : isKeyCharacter c = true)
    (noKey : isKeyCharacter d = false) : c ≠ d := by
  rintro rfl
  rw [noKey] at isKey
  cases isKey

theorem dropBlanks_cons {c : Char} (noSpace : c ≠ ' ') (noTab : c ≠ '\t') (rest : List Char) :
    dropBlanks (c :: rest) = c :: rest := by
  simp [dropBlanks, noSpace, noTab]

variable {name : String} {rest : List Char}

/-- A bare name is not empty and begins with a character of a key. -/
theorem IsBare.exists_first (bare : IsBare name) :
    ∃ first more, name.toList = first :: more ∧ isKeyCharacter first = true := by
  obtain ⟨first, more, written⟩ := List.exists_cons_of_ne_nil bare.1
  exact ⟨first, more, written, bare.2 first (written ▸ List.mem_cons_self)⟩

/-- A bare name is read up to the first character that is none of a key. -/
theorem readName_append (bare : IsBare name) (ends : ∀ c ∈ rest.head?, isKeyCharacter c = false) :
    readName (name.toList ++ rest) = .ok (name, rest) := by
  have stops : rest.takeWhile isKeyCharacter = [] := by
    cases rest with
    | nil => rfl
    | cons c rest => simp [ends c rfl]
  rw [readName, List.takeWhile_append_of_pos bare.2, stops, List.append_nil]
  split
  · next same => exact absurd same bare.1
  · rw [List.drop_left, String.ofList_toList]

/-- A key of one part ends where no point follows. -/
theorem readKey_append (bare : IsBare name) (ends : ∀ c ∈ rest.head?, isKeyCharacter c = false)
    (noPoint : (dropBlanks rest).head? ≠ some '.') :
    readKey (name.toList ++ rest) = .ok ([name], dropBlanks rest) := by
  have whole : dropBlanks (name.toList ++ rest) = name.toList ++ rest := by
    obtain ⟨first, more, written, isKey⟩ := bare.exists_first
    rw [written, List.cons_append]
    exact dropBlanks_cons (ne_of_isKeyCharacter isKey rfl) (ne_of_isKeyCharacter isKey rfl) _
  have part : readKeyPart (name.toList ++ rest) = .ok (name, dropBlanks rest) := by
    rw [readKeyPart, whole, readName_append bare ends]
    rfl
  have only (fuel : Nat) :
      readSeparated '.' readKeyPart (fuel + 1) (name.toList ++ rest) =
        .ok ([name], dropBlanks rest) := by
    rw [readSeparated, part, ok_bind]
    dsimp only
    split
    · next c after begins =>
      have other : c ≠ '.' := by
        rintro rfl
        exact noPoint (congrArg List.head? begins)
      rw [if_neg other]
    · next isEnd => rw [isEnd]
  rw [readKey, only]
  rfl

/-! ### Lines -/

variable {progress next : Progress}

theorem dropLine_break (rest : List Char) : dropLine ('\n' :: rest) = .ok rest :=
  rfl

/-- The line of a field. -/
theorem readFieldLine_append (bare : IsBare name) {value : Toml} (plain : Plain value)
    (assigned : progress.fields.assignIn progress.header [name] value = .ok next.fields)
    (same : next.header = progress.header) :
    readFieldLine progress
        (name.toList ++ ' ' :: '=' :: ' ' :: ((renderValue value).toList ++ '\n' :: rest)) =
      .ok (next, rest) := by
  have ends : Ends ('\n' :: rest) := by
    rintro c ⟨⟩
    decide
  have undropped : dropBlanks (' ' :: ((renderValue value).toList ++ '\n' :: rest)) =
      (renderValue value).toList ++ '\n' :: rest := by
    obtain ⟨first, more, written, noBlank, -⟩ := plain.exists_first
    simp only [isBlankOrBreak, Bool.or_eq_false_iff, beq_eq_false_iff_ne] at noBlank
    rw [written, List.cons_append]
    exact dropBlanks_cons noBlank.1.1.1 noBlank.1.1.2 _
  have dropped (rest : List Char) : dropBlanks (' ' :: '=' :: rest) = '=' :: rest := rfl
  have key := @readKey_append name
    (' ' :: '=' :: ' ' :: ((renderValue value).toList ++ '\n' :: rest)) bare (by rintro c ⟨⟩; rfl)
    (by simp [dropped])
  have read := plain.readValue_renderValue ends (depthLimit - 2)
  have field : readField (readValue (depthLimit - 1))
      (name.toList ++ ' ' :: '=' :: ' ' :: ((renderValue value).toList ++ '\n' :: rest)) =
        .ok (([name], value), '\n' :: rest) := by
    rw [readField, key, ok_bind, dropped]
    dsimp only
    rw [readSign_cons, Except.mapError, ok_bind, undropped,
      show depthLimit - 1 = depthLimit - 2 + 1 from rfl, read]
    rfl
  obtain ⟨fields, header⟩ := next
  obtain rfl : header = progress.header := same
  rw [readFieldLine, field, insist_ok, ok_bind]
  dsimp only
  rw [dropLine_break, ok_bind, assigned]
  rfl

/-- The line of a header. -/
theorem readHeaderLine_append (bare : IsBare name)
    (declared : progress.fields.declare [name] = .ok next.fields) (same : next.header = [name]) :
    readHeaderLine progress ('[' :: (name.toList ++ ']' :: '\n' :: rest)) = .ok (next, rest) := by
  have dropped : dropBlanks (']' :: '\n' :: rest) = ']' :: '\n' :: rest := rfl
  have key := @readKey_append name (']' :: '\n' :: rest) bare (by rintro c ⟨⟩; rfl) (by simp [dropped])
  obtain ⟨first, more, written, isKey⟩ := bare.exists_first
  obtain ⟨fields, path⟩ := next
  obtain rfl : path = [name] := same
  rw [written, List.cons_append] at key ⊢
  rw [readHeaderLine]
  · rw [key, dropped, ok_bind]
    dsimp only
    rw [readSign_cons, Except.mapError, ok_bind, dropLine_break, ok_bind, declared]
    rfl
  · exact ne_of_isKeyCharacter (d := '[') isKey rfl

theorem readLines_break (fuel : Nat) (progress : Progress) (rest : List Char) :
    readLines (fuel + 1) progress ('\n' :: rest) = readLines fuel progress rest :=
  rfl

/-- A line that begins with a key. -/
theorem readLines_field {first : Char} {more : List Char} (isKey : isKeyCharacter first = true)
    (read : readFieldLine progress (first :: more) = .ok (next, rest)) (fuel : Nat) :
    readLines (fuel + 1) progress (first :: more) = readLines fuel next rest := by
  have other {c : Char} (noKey : isKeyCharacter c = false) : first ≠ c :=
    ne_of_isKeyCharacter isKey noKey
  rw [readLines, dropBlanks_cons (other rfl) (other rfl)]
  split
  · next same => cases same
  · next same => exact absurd (List.cons.inj same).1 (other rfl)
  · next same => exact absurd (List.cons.inj same).1 (other rfl)
  · next same => exact absurd (List.cons.inj same).1 (other rfl)
  · next same => exact absurd (List.cons.inj same).1 (other rfl)
  · rw [read]
    rfl

/-- A line that begins with a bracket. -/
theorem readLines_header {more : List Char}
    (read : readHeaderLine progress ('[' :: more) = .ok (next, rest)) (fuel : Nat) :
    readLines (fuel + 1) progress ('[' :: more) = readLines fuel next rest := by
  change (readHeaderLine progress ('[' :: more) >>= _) = _
  rw [read]
  rfl

/-! ### Documents under construction -/

/-- A name that the first fields do not have is looked up in the others. -/
theorem lookup_of_not_mem {fields : Fields} (absent : name ∉ fields.map Prod.fst) (more : Fields) :
    (fields ++ more).lookup name = more.lookup name := by
  have missing : fields.lookup name = none := by
    refine List.lookup_eq_none_iff.mpr fun field member => bne_iff_ne.mpr ?_
    rintro rfl
    exact absent (List.mem_map_of_mem member)
  rw [List.lookup_append, missing, Option.none_or]

/-- A name that the first fields do not have is set in the others. -/
theorem set_of_not_mem {fields : Fields} (absent : name ∉ fields.map Prod.fst) (draft : Draft)
    (more : Fields) : Fields.set name draft (fields ++ more) = fields ++ more.set name draft := by
  induction fields with
  | nil => rfl
  | cons field fields ih =>
      rw [List.map_cons, List.mem_cons, not_or] at absent
      rw [List.cons_append, Fields.set, if_neg (Ne.symm absent.1), ih absent.2, List.cons_append]

/-- A field of a table is new. -/
theorem assign_of_not_mem {fields : Fields} (absent : name ∉ fields.map Prod.fst)
    (table : List String) (value : Toml) :
    fields.assign table value [] true [name] = .ok (fields ++ [(name, .value value)]) := by
  have missing := lookup_of_not_mem absent []
  have added := set_of_not_mem absent (.value value) []
  rw [List.append_nil] at missing added
  simp only [Fields.assign, missing, added, List.lookup_nil, Fields.set]

/-- A table of a document is new. -/
theorem declare_of_not_mem {fields : Fields} (absent : name ∉ fields.map Prod.fst) :
    fields.declare [name] = .ok (fields ++ [(name, .table .header [])]) := by
  have missing := lookup_of_not_mem absent []
  have added := set_of_not_mem absent (.table .header []) []
  rw [List.append_nil] at missing added
  simp only [Fields.declare, Fields.openTable, missing, added, List.lookup_nil, Fields.set, map_ok]

/-- A field of the table that the last header has opened is new. -/
theorem assignIn_of_not_mem {fields inner : Fields} {header : String}
    (absent : header ∉ fields.map Prod.fst) (missing : name ∉ inner.map Prod.fst) (value : Toml) :
    Fields.assignIn [header] [name] value (fields ++ [(header, .table .header inner)]) =
      .ok (fields ++ [(header, .table .header (inner ++ [(name, .value value)]))]) := by
  simp [Fields.assignIn, Fields.openTable, lookup_of_not_mem absent, set_of_not_mem absent,
    assign_of_not_mem missing, List.lookup_cons_self, Fields.set]

/-! ### Reading goes on -/

/-- Reading goes on from one place to a later one. -/
def Goes (start finish : Progress × List Char) : Prop :=
  ∀ fuel, start.2.length < fuel →
    ∃ left, finish.2.length < left ∧ readLines fuel start.1 start.2 = readLines left finish.1 finish.2

namespace Goes

variable {start middle finish : Progress × List Char}

theorem refl (start : Progress × List Char) : Goes start start :=
  fun fuel enough => ⟨fuel, enough, rfl⟩

/-- Reading goes on from where it has gone. -/
theorem trans (first : Goes start middle) (second : Goes middle finish) : Goes start finish := by
  intro fuel enough
  obtain ⟨left, enough, same⟩ := first fuel enough
  obtain ⟨left, enough, same'⟩ := second left enough
  exact ⟨left, enough, same.trans same'⟩

/-- A step drops at least one character. -/
theorem of_step (shorter : finish.2.length < start.2.length)
    (step : ∀ fuel, readLines (fuel + 1) start.1 start.2 = readLines fuel finish.1 finish.2) :
    Goes start finish := by
  intro fuel enough
  obtain ⟨fuel, rfl⟩ : ∃ before, fuel = before + 1 := ⟨fuel - 1, by omega⟩
  exact ⟨fuel, by omega, step fuel⟩

theorem lineBreak (progress : Progress) (rest : List Char) :
    Goes (progress, '\n' :: rest) (progress, rest) :=
  of_step (Nat.lt_succ_self _) fun fuel => readLines_break fuel progress rest

/-- A plain value under a bare name is read and assigned below the open header. -/
theorem field (bare : IsBare name) {value : Toml} (plain : Plain value)
    (assigned : progress.fields.assignIn progress.header [name] value = .ok next.fields)
    (same : next.header = progress.header) (rest : List Char) :
    Goes (progress, (name ++ " = " ++ renderValue value ++ "\n").toList ++ rest) (next, rest) := by
  have read := @readFieldLine_append name rest progress next bare value plain assigned same
  have written : (name ++ " = " ++ renderValue value ++ "\n").toList ++ rest =
      name.toList ++ ' ' :: '=' :: ' ' :: ((renderValue value).toList ++ '\n' :: rest) := by
    simp
  rw [written]
  refine of_step (by simp; omega) fun fuel => ?_
  obtain ⟨first, more, begins, isKey⟩ := bare.exists_first
  rw [begins, List.cons_append] at read ⊢
  exact readLines_field isKey read fuel

/-- The header of a table is read, and the table is declared and opened. -/
theorem header (bare : IsBare name)
    (declared : progress.fields.declare [name] = .ok next.fields) (same : next.header = [name])
    (rest : List Char) : Goes (progress, ("[" ++ name ++ "]\n").toList ++ rest) (next, rest) := by
  have read := @readHeaderLine_append name rest progress next bare declared same
  have written : ("[" ++ name ++ "]\n").toList ++ rest =
      '[' :: (name.toList ++ ']' :: '\n' :: rest) := by
    simp
  rw [written]
  exact of_step (by simp; omega) fun fuel => readLines_header read fuel

end Goes

/-! ### Fields and tables -/

/-- Plain values under names that stand without quotes and are all different. -/
structure Writable (fields : List (String × Toml)) : Prop where
  bare : ∀ name ∈ fields.map Prod.fst, IsBare name
  plain : ∀ field ∈ fields, Plain field.2
  distinct : (fields.map Prod.fst).Nodup

/-- A table as it is under construction. -/
def drafts (fields : List (String × Toml)) : Fields :=
  fields.map fun field => (field.1, .value field.2)

theorem map_fst_drafts (fields : List (String × Toml)) :
    (drafts fields).map Prod.fst = fields.map Prod.fst := by
  simp [drafts, Function.comp_def]

/-- When it is finished, it has its fields. -/
theorem finishFields_drafts (fields : List (String × Toml)) :
    finishFields (drafts fields) = fields := by
  induction fields with
  | nil => rfl
  | cons field fields ih =>
      rw [drafts, List.map_cons, finishFields, Draft.finish]
      exact congrArg (field :: ·) ih

/-- A value that settings have is no table. -/
theorem Plain.isTable {value : Toml} (plain : Plain value) : value.isTable = false := by
  cases plain with
  | scalar plain => cases plain <;> rfl
  | array items plain => rfl

/-- A plain field is written on a line of its own, with its name before an equals sign. -/
theorem renderFields_cons {field : String × Toml} (plain : Plain field.2)
    (fields : List (String × Toml)) :
    renderFields (field :: fields) =
      field.1 ++ " = " ++ renderValue field.2 ++ "\n" ++ renderFields fields := by
  simp [renderFields, plain.isTable]

/-- The fields of a table are read one after another; `place` is the document with the table in
its place. -/
theorem Goes.fields {place : Fields → Fields} {header : List String}
    (assigned : ∀ inner name value, name ∉ inner.map Prod.fst →
      (place inner).assignIn header [name] value = .ok (place (inner ++ [(name, .value value)])))
    {before fields : List (String × Toml)} (writable : Writable (before ++ fields))
    (rest : List Char) :
    Goes (⟨place (drafts before), header⟩, (renderFields fields).toList ++ rest)
      (⟨place (drafts (before ++ fields)), header⟩, rest) := by
  -- The fields that were read are in the table, and the others still have to be written to it.
  induction fields generalizing before with
  | nil =>
      rw [List.append_nil]
      exact Goes.refl _
  | cons field fields ih =>
      have member : field ∈ before ++ field :: fields :=
        List.mem_append_right _ List.mem_cons_self
      have plain := writable.plain field member
      have absent : field.1 ∉ (drafts before).map Prod.fst := by
        have distinct := writable.distinct
        rw [List.map_append, List.map_cons] at distinct
        rw [map_fst_drafts]
        exact fun inside => (List.nodup_append.mp distinct).2.2 _ inside _ List.mem_cons_self rfl
      have added : (place (drafts before)).assignIn header [field.1] field.2 =
          .ok (place (drafts (before ++ [field]))) := by
        rw [assigned _ _ _ absent, drafts, drafts, List.map_append]
        rfl
      have step := @Goes.field field.1 ⟨place (drafts before), header⟩
        ⟨place (drafts (before ++ [field])), header⟩
        (writable.bare field.1 (List.mem_map_of_mem member)) field.2 plain added rfl
        ((renderFields fields).toList ++ rest)
      have later := @ih (before ++ [field]) (by simpa using writable)
      rw [List.append_assoc, List.singleton_append] at later
      rw [renderFields_cons plain, String.toList_append, List.append_assoc]
      exact step.trans later

/-- A table with its header. -/
abbrev Section := String × List (String × Toml)

/-- A document of plain fields and tables after them. -/
def documentFields (fields : List (String × Toml)) (sections : List Section) :
    List (String × Toml) :=
  fields ++ sections.map fun part => (part.1, .table part.2)

/-- Tables as they are under construction. -/
def sectionDrafts (sections : List Section) : Fields :=
  sections.map fun part => (part.1, .table .header (drafts part.2))

/-- Fields are finished one after the other. -/
theorem finishFields_append (first second : Fields) :
    finishFields (first ++ second) = finishFields first ++ finishFields second := by
  induction first with
  | nil => rfl
  | cons field fields ih =>
      rw [List.cons_append, finishFields, finishFields, ih, List.cons_append]

/-- Finished tables have the fields of their sections. -/
theorem finishFields_sectionDrafts (sections : List Section) :
    finishFields (sectionDrafts sections) = sections.map fun part => (part.1, .table part.2) := by
  induction sections with
  | nil => rfl
  | cons part sections ih =>
      rw [sectionDrafts, List.map_cons, finishFields, Draft.finish, finishFields_drafts]
      exact congrArg (_ :: ·) ih

/-- The text of the tables. -/
def renderSections (sections : List Section) : String :=
  String.join (sections.map fun part => "\n[" ++ part.1 ++ "]\n" ++ renderFields part.2)

/-- The lines of fields in a document leave its tables out. -/
theorem renderFields_documentFields (fields : List (String × Toml)) (sections : List Section) :
    renderFields (documentFields fields sections) = renderFields fields := by
  have empty : (sections.map fun part => (part.1, Toml.table part.2)).filter
      (fun field => !field.2.isTable) = [] := by
    refine List.filter_eq_nil_iff.mpr fun field member => ?_
    obtain ⟨part, -, rfl⟩ := List.mem_map.mp member
    exact Bool.false_ne_true
  rw [renderFields, documentFields, List.filter_append, empty, List.append_nil, renderFields]

/-- A document is its plain fields and then its tables. -/
theorem renderDocument_documentFields {fields : List (String × Toml)}
    (plain : ∀ field ∈ fields, Plain field.2) (sections : List Section) :
    renderDocument (documentFields fields sections) =
      renderFields fields ++ renderSections sections := by
  rw [renderDocument, renderFields_documentFields]
  congr 1
  induction fields with
  | nil =>
      simp only [documentFields, List.nil_append, List.map_map, renderSections]
      rfl
  | cons field fields ih =>
      have later := ih fun other member => plain other (List.mem_cons_of_mem field member)
      rw [documentFields, List.cons_append, List.map_cons, String.join_cons, ← later]
      split
      · next isTable =>
        have noTable := (plain field List.mem_cons_self).isTable
        rw [isTable] at noTable
        cases noTable
      · exact String.empty_append

/-- The tables of a document are read one after another. -/
theorem Goes.sections {outer : Fields} {sections : List Section} {header : List String}
    (bare : ∀ name ∈ sections.map Prod.fst, IsBare name)
    (writable : ∀ part ∈ sections, Writable part.2)
    (distinct : (outer.map Prod.fst ++ sections.map Prod.fst).Nodup) (rest : List Char) :
    ∃ last, Goes (⟨outer, header⟩, (renderSections sections).toList ++ rest)
      (⟨outer ++ sectionDrafts sections, last⟩, rest) := by
  induction sections generalizing outer header with
  | nil =>
      refine ⟨header, ?_⟩
      rw [sectionDrafts, List.map_nil, List.append_nil]
      exact Goes.refl _
  | cons part sections ih =>
      obtain ⟨name, fields⟩ := part
      have absent : name ∉ outer.map Prod.fst := fun inside =>
        (List.nodup_append.mp distinct).2.2 _ inside _ List.mem_cons_self rfl
      -- An empty line, the header and the fields of the section are read, and then the others.
      let after := (renderSections sections).toList ++ rest
      have lineBreak := Goes.lineBreak ⟨outer, header⟩
        (("[" ++ name ++ "]\n").toList ++ ((renderFields fields).toList ++ after))
      have opened := @Goes.header name ⟨outer, header⟩
        ⟨outer ++ [(name, .table .header [])], [name]⟩ (bare name List.mem_cons_self)
        (declare_of_not_mem absent) rfl ((renderFields fields).toList ++ after)
      have filled := @Goes.fields (fun inner => outer ++ [(name, .table .header inner)]) [name]
        (fun inner name value missing => assignIn_of_not_mem absent missing value) [] fields
        (writable (name, fields) List.mem_cons_self) after
      obtain ⟨last, later⟩ := @ih (outer ++ [(name, .table .header (drafts fields))]) [name]
        (fun name member => bare name (List.mem_cons_of_mem _ member))
        (fun part member => writable part (List.mem_cons_of_mem _ member))
        (by simpa using distinct)
      refine ⟨last, ?_⟩
      have all := ((lineBreak.trans opened).trans filled).trans later
      simpa [renderSections, String.join_cons, sectionDrafts, after] using all

/-- The breaks at the end of a document say nothing. -/
theorem readLines_breaks (progress : Progress) (count : Nat) {fuel : Nat} (enough : count < fuel) :
    readLines fuel progress (List.replicate count '\n') = .ok progress := by
  induction count generalizing fuel with
  | zero =>
      obtain ⟨fuel, rfl⟩ := Nat.exists_eq_add_of_lt enough
      rfl
  | succ count ih =>
      obtain ⟨fuel, rfl⟩ : ∃ before, fuel = before + 1 := ⟨fuel - 1, by omega⟩
      rw [List.replicate_succ, readLines_break]
      exact ih (Nat.lt_of_succ_lt_succ enough)

/-- How a document begins. -/
theorem head?_document {fields : List (String × Toml)} (writable : Writable fields)
    (sections : List Section) (count : Nat) :
    ∀ c ∈ ((renderFields fields).toList ++ ((renderSections sections).toList ++
      List.replicate count '\n')).head?, isKeyCharacter c = true ∨ c = '\n' := by
  intro c begins
  cases fields with
  | cons field fields =>
      have member : field ∈ field :: fields := List.mem_cons_self
      obtain ⟨first, more, written, isKey⟩ :=
        (writable.bare field.1 (List.mem_map_of_mem member)).exists_first
      rw [renderFields_cons (writable.plain field member)] at begins
      obtain rfl : first = c := by simpa [written] using begins
      exact .inl isKey
  | nil =>
      refine .inr ?_
      cases sections with
      | cons part sections =>
          simpa [renderFields, renderSections, String.join_cons, eq_comm] using begins
      | nil =>
          cases count with
          | zero => simp [renderFields, renderSections] at begins
          | succ count =>
              simpa [renderFields, renderSections, List.replicate_succ, eq_comm] using begins

/-- **A document is read as it is written.** -/
theorem readDocument_renderDocument {fields : List (String × Toml)} {sections : List Section}
    (writable : Writable fields) (bare : ∀ name ∈ sections.map Prod.fst, IsBare name)
    (writableSections : ∀ part ∈ sections, Writable part.2)
    (distinct : (fields.map Prod.fst ++ sections.map Prod.fst).Nodup) (count : Nat) :
    readDocument ((renderDocument (documentFields fields sections)).toList ++
        List.replicate count '\n') = .ok (documentFields fields sections) := by
  -- A mark of the byte order at the start would be passed over, but none is written.
  have noMark : ¬ ['\uFEFF'] <+: (renderFields fields).toList ++
      ((renderSections sections).toList ++ List.replicate count '\n') := by
    rintro ⟨rest, same⟩
    have begins := head?_document writable sections count '\uFEFF' (by rw [← same]; rfl)
    rcases begins with isKey | isBreak
    · exact absurd isKey (by decide)
    · exact absurd isBreak (by decide)
  have fieldsRead := @Goes.fields id [] (fun inner name value missing =>
    assign_of_not_mem missing [] value) [] fields writable
    ((renderSections sections).toList ++ List.replicate count '\n')
  obtain ⟨last, sectionsRead⟩ := @Goes.sections (drafts fields) sections [] bare writableSections
    (by rwa [map_fst_drafts]) (List.replicate count '\n')
  obtain ⟨left, enough, goes⟩ := (fieldsRead.trans sectionsRead) _ (Nat.lt_succ_self _)
  rw [List.length_replicate] at enough
  have read := goes.trans (readLines_breaks _ count enough)
  rw [renderDocument_documentFields writable.plain, String.toList_append, List.append_assoc,
    readDocument, Text.getD_after?_of_not_prefix noMark]
  have finished : finishFields (drafts fields ++ sectionDrafts sections) =
      documentFields fields sections := by
    rw [finishFields_append, finishFields_drafts, finishFields_sectionDrafts, documentFields]
  exact (congrArg _ read).trans (congrArg Except.ok finished)

end PhpTestIndex.Toml
