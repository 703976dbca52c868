import PhpTestIndex.Php.Document
import PhpTestIndex.Proofs.Php.Lexing

/-! # Names in syntax trees

In the syntax tree of a file, a class or a method is named by a word, and a namespace by a path:
words between separators. That a rule of the grammar makes only such nodes is seen from the rule
itself (`PhpTestIndex.Php.Rule.fits`), and the rules of the grammar are checked once
(`PhpTestIndex.Php.grammar_fits`). Reading keeps this up to any depth, so it holds of the tree of
every file (`PhpTestIndex.Php.wellNamed_ofCode`).
-/

namespace PhpTestIndex.Php

/-- The text may be the path of a namespace: what it ends with is set apart from every colon and
every number sign before it. -/
def IsPath (chars : List Char) : Prop :=
  Unmarked chars ∨ Parted chars

/-- What ends with a word right behind a colon or a number sign is no path. -/
theorem not_isPath_of_mark {before word : List Char} {mark : Char} (marks : mark = ':' ∨ mark = '#')
    (characters : ∀ c ∈ word, Lexeme.isNameCharacter c = true) :
    ¬ IsPath (before ++ mark :: word) := by
  rintro (unmarked | parted)
  · obtain ⟨noColon, noHash⟩ := unmarked mark (List.mem_append_right _ List.mem_cons_self)
    exact marks.elim noColon noHash
  · exact not_parted_of_mark marks characters parted

/-- What is asked of the nodes that stand in a node. -/
inductive Titling
  /-- None of them has a role. -/
  | untitled
  | free
  /-- One that is a name is a word. -/
  | word
  /-- One that is a name is a path. -/
  | path
deriving DecidableEq

/-- A node is as a titling asks. -/
def Titling.Allows (code : List Char) (node : Node) : Titling → Prop
  | untitled => node.role = none
  | free => True
  | word => node.role = some .name → IsWord (node.text code)
  | path => node.role = some .name → IsPath (node.text code)

/-- What is asked of the nodes in a node of a kind. -/
def titlingOf : Kind → Titling
  | .classDeclaration => .word
  | .methodDeclaration => .word
  | .namespaceDefinition => .path
  | _ => .free

/-- In the tree, every class and every method is named by a word, and every namespace by a path. -/
inductive WellNamed (code : List Char) : Node → Prop
  | mk {node : Node} (names : ∀ child ∈ node.children, (titlingOf node.kind).Allows code child)
      (children : ∀ child ∈ node.children, WellNamed code child) : WellNamed code node

/-- The rule reads the path of a namespace. -/
def Rule.isPath : Rule → Bool
  | .node .namespaceName
      (.both (.wordExcept []) (.many (.both (.exact .sign "\\" .token) (.wordExcept [])))) => true
  | _ => false

/-- What the rule reads may get the role of a name. -/
def Rule.isTitle (rule : Rule) : Titling → Bool
  | .untitled => false
  | .free => true
  | .word =>
    match rule with
    | .wordExcept _ => true
    | _ => false
  | .path => rule.isPath

/-- The rule makes only nodes as a titling asks, with only well named nodes in them. -/
def Rule.fits (titling : Titling) : Rule → Bool
  | .both first second => first.fits titling && second.fits titling
  | .either first second => first.fits titling && second.fits titling
  | .many item => item.fits titling
  | .node kind parts => parts.fits (titlingOf kind)
  | .role given rule =>
    titling ≠ .untitled && rule.fits .free && (given ≠ .name || rule.isTitle titling)
  | .grow first tail => first.fits titling && tail.fits titling
  | .around kind _ rest => titlingOf kind = .free && rest.fits .free
  | _ => true

/-- Every part of the grammar makes well named nodes without a role. -/
theorem grammar_fits (part : Part) : (grammar part).fits .untitled = true := by
  cases part <;> decide

section Titlings

variable {code : List Char}

/-- A node without a role may stand anywhere. -/
theorem Titling.allows_of_role_eq_none {node : Node} {titling : Titling}
    (plain : node.role = none) :
    titling.Allows code node := by
  cases titling with
  | untitled => exact plain
  | free => trivial
  | word => exact fun role => by simp [plain] at role
  | path => exact fun role => by simp [plain] at role

/-- A node in another role than that of a name may stand where names are asked to be words or paths.
-/
theorem Titling.allows_of_role_ne {node : Node} {titling : Titling} (titled : titling ≠ .untitled)
    (other : node.role ≠ some .name) : titling.Allows code node := by
  cases titling with
  | untitled => exact absurd rfl titled
  | free => trivial
  | word => exact fun role => absurd role other
  | path => exact fun role => absurd role other

theorem wellNamed_of_children_eq_nil {node : Node} (empty : node.children = []) :
    WellNamed code node :=
  .mk (by simp [empty]) (by simp [empty])

/-- The children of a well named node are as its kind asks. -/
theorem WellNamed.allows {node child : Node} (named : WellNamed code node)
    (member : child ∈ node.children) : (titlingOf node.kind).Allows code child := by
  cases named with
  | mk names children => exact names child member

/-- The children of a well named node are well named. -/
theorem WellNamed.child {node child : Node} (named : WellNamed code node)
    (member : child ∈ node.children) : WellNamed code child := by
  cases named with
  | mk names children => exact children child member

end Titlings

/-- A piece is well named, and its node is as a titling asks. -/
structure Piece.Fits (code : List Char) (titling : Titling) (piece : Piece) : Prop where
  leading : Token.Bare piece.leading
  node : WellNamed code piece.node
  allowed : titling.Allows code piece.node

namespace Piece

variable {code : List Char} {titling : Titling} {pieces more : List Piece}

theorem Fits.of_role_eq_none {piece : Piece} (leading : Token.Bare piece.leading)
    (node : WellNamed code piece.node) (plain : piece.node.role = none) : piece.Fits code titling :=
  ⟨leading, node, Titling.allows_of_role_eq_none plain⟩

theorem Fits.free {piece : Piece} (fits : piece.Fits code titling) : piece.Fits code .free :=
  ⟨fits.leading, fits.node, trivial⟩

theorem Fits.of_untitled {piece : Piece} (fits : piece.Fits code .untitled) :
    piece.Fits code titling :=
  .of_role_eq_none fits.leading fits.node fits.allowed

/-- A piece fits in any role where nothing is asked. -/
theorem Fits.setRole_free {piece : Piece} (fits : piece.Fits code titling) (role : Role) :
    (piece.setRole role).Fits code .free := by
  refine ⟨fits.leading, ?_, trivial⟩
  cases fits.node with
  | mk names children => exact .mk names children

/-- The piece of one token has no role yet and nothing in it, so it fits anywhere. -/
theorem fits_ofToken (kind : Kind) {token : Token} (bare : Token.Bare token.leading) :
    (ofToken kind token).Fits code titling :=
  .of_role_eq_none bare (wellNamed_of_children_eq_nil rfl) rfl

/-- What stands before a piece is neither named nor titled, and the piece is as asked. -/
theorem mem_nodes_fits (fits : ∀ piece ∈ pieces, piece.Fits code titling) {node : Node}
    (member : node ∈ nodes pieces) : WellNamed code node ∧ titling.Allows code node := by
  obtain ⟨piece, present, among⟩ := List.mem_flatMap.mp member
  rcases List.mem_append.mp among with before | itself
  · obtain ⟨plain, empty⟩ := (fits piece present).leading node before
    exact ⟨wellNamed_of_children_eq_nil empty, Titling.allows_of_role_eq_none plain⟩
  · rw [List.mem_singleton.mp itself]
    exact ⟨(fits piece present).node, (fits piece present).allowed⟩

/-- A node around pieces as its kind asks is well named. -/
theorem join_fits {kind : Kind} (fits : ∀ piece ∈ pieces, piece.Fits code (titlingOf kind)) :
    ∀ piece ∈ join kind pieces, piece.Fits code titling := by
  cases pieces with
  | nil => simp [join]
  | cons first rest =>
      obtain ⟨fitsFirst, fitsRest⟩ := List.forall_mem_cons.mp fits
      have inside : ∀ child ∈ first.node :: nodes rest,
          WellNamed code child ∧ (titlingOf kind).Allows code child :=
        List.forall_mem_cons.mpr ⟨⟨fitsFirst.node, fitsFirst.allowed⟩,
          fun child member => mem_nodes_fits fitsRest member⟩
      simp only [join, List.forall_mem_singleton]
      exact .of_role_eq_none fitsFirst.leading
        (.mk (fun child member => (inside child member).2) fun child member =>
          (inside child member).1) rfl

end Piece

/-- The tokens cover the text from some place on. -/
def Covering (code : List Char) (tokens : List Token) : Prop :=
  ∃ before, Token.Lexed code before tokens

/-- Tokens that cover the text go on to cover it after the first of them. -/
theorem Covering.tail {code : List Char} {token : Token} {rest : List Token}
    (covering : Covering code (token :: rest)) : Covering code rest := by
  obtain ⟨before, lexed⟩ := covering
  cases lexed with
  | cons _ _ _ _ _ _ later => exact ⟨_, later⟩

/-- What stands before a token has no roles and nothing in it. -/
theorem Covering.bare {code : List Char} {token : Token} {rest : List Token}
    (covering : Covering code (token :: rest)) : Token.Bare token.leading := by
  obtain ⟨before, lexed⟩ := covering
  cases lexed with
  | cons _ _ _ _ _ bare _ => exact bare

section Inversion

variable {before pieces : List Piece} {tokens rest : List Token}

/-- Reading one token takes the first one, if it is accepted, and makes one piece of it. -/
theorem Reader.next_eq_some {accepts : Token → Bool} {kind : Kind}
    (read : Reader.next accepts kind before tokens = some (pieces, rest)) :
    ∃ token, tokens = token :: rest ∧ accepts token = true ∧
      pieces = [Piece.ofToken kind token] := by
  unfold Reader.next at read
  split at read
  · cases read
  · rename_i token others
    split at read
    · rename_i accepted
      cases read
      exact ⟨token, rfl, accepted, rfl⟩
    · cases read

/-- Readers one after the other have read with each other if both have: what the second reads
starts where the first ends, and the pieces follow one another. -/
theorem Reader.both_eq_some {first second : Reader}
    (read : Reader.both first second before tokens = some (pieces, rest)) :
    ∃ early middle late, first before tokens = some (early, middle) ∧
      second before middle = some (late, rest) ∧ pieces = early ++ late := by
  unfold Reader.both at read
  split at read
  · cases read
  · rename_i early middle readFirst
    split at read
    · cases read
    · rename_i late after readSecond
      cases read
      exact ⟨early, middle, late, readFirst, readSecond, rfl⟩

variable {limit : Nat} {part : Part → Reader}

/-- A rule for a node joins the pieces that its parts give. -/
theorem Rule.read_node_eq_some {kind : Kind} {parts : Rule}
    (read : (Rule.node kind parts).read limit part before tokens = some (pieces, rest)) :
    ∃ inner, parts.read limit part before tokens = some (inner, rest) ∧
      pieces = Piece.join kind inner := by
  simp only [Rule.read] at read
  split at read
  · cases read
  · rename_i inner after readParts
    cases read
    exact ⟨inner, readParts, rfl⟩

/-- A rule with a role gives the role to each of its pieces. -/
theorem Rule.read_role_eq_some {given : Role} {rule : Rule}
    (read : (Rule.role given rule).read limit part before tokens = some (pieces, rest)) :
    ∃ inner, rule.read limit part before tokens = some (inner, rest) ∧
      pieces = inner.map (Piece.setRole given) := by
  simp only [Rule.read] at read
  split at read
  · cases read
  · rename_i inner after readRule
    cases read
    exact ⟨inner, readRule, rfl⟩

end Inversion

/-- What a reader reads is well named and as a titling asks. -/
def Reader.Yields (code : List Char) (titling : Titling) (reader : Reader) : Prop :=
  ∀ {before : List Piece} {tokens : List Token} {pieces : List Piece} {rest : List Token},
    (∀ piece ∈ before, piece.Fits code .free) → Covering code tokens →
    reader before tokens = some (pieces, rest) →
    Covering code rest ∧ ∀ piece ∈ pieces, piece.Fits code titling

namespace Reader

variable {code : List Char} {titling : Titling}

/-- A reader that reads nothing yields nothing that could be badly named. -/
theorem yields_nothing : Yields code titling fun _ tokens => some ([], tokens) := by
  intro before tokens pieces rest _ covering read
  cases read
  exact ⟨covering, by simp⟩

/-- Reading one token yields a piece that fits anywhere. -/
theorem yields_next (accepts : Token → Bool) (kind : Kind) :
    (next accepts kind).Yields code titling := by
  intro before tokens pieces rest _ covering read
  obtain ⟨token, rfl, _, rfl⟩ := next_eq_some read
  exact ⟨covering.tail, by simpa using Piece.fits_ofToken kind covering.bare⟩

/-- Looking at the next token yields no piece. -/
theorem yields_check (accepts : Token → Bool) : (check accepts).Yields code titling := by
  intro before tokens pieces rest _ covering read
  unfold check at read
  split at read
  · cases read
  · split at read
    · cases read
      exact ⟨covering, by simp⟩
    · cases read

/-- A missing sign yields a piece with nothing in it. -/
theorem yields_missing (sign : String) : (missing sign).Yields code titling := by
  intro before tokens pieces rest _ covering read
  unfold missing at read
  split at read
  · cases read
    refine ⟨covering, ?_⟩
    simpa using Piece.Fits.of_role_eq_none (by simp [Token.Bare])
      (wellNamed_of_children_eq_nil rfl) rfl
  · cases read

/-- The tokens behind a group in brackets still cover the text from some place on. -/
theorem covering_afterGroup {tokens rest : List Token} {depth : Nat}
    (covering : Covering code tokens) (read : afterGroup depth tokens = some rest) :
    Covering code rest := by
  induction tokens generalizing depth with
  | nil => cases depth <;> cases read
  | cons token others ih =>
      have later {depth : Nat} (read : afterGroup depth others = some rest) :=
        ih covering.tail read
      have last (ended : others = rest) : Covering code rest := ended ▸ covering.tail
      rw [afterGroup] at read
      split_ifs at read
      · exact later read
      · exact later read
      · exact last (Option.some.inj read)
      · exact later read
      · exact later read

/-- Passing over a group in brackets yields no piece. -/
theorem yields_group : group.Yields code titling := by
  intro before tokens pieces rest _ covering read
  obtain ⟨after, found, same⟩ := Option.map_eq_some_iff.mp read
  cases same
  exact ⟨covering_afterGroup covering found, by simp⟩

/-- Readers one after the other yield pieces that fit if each of them does. -/
theorem yields_both {first second : Reader} (yieldsFirst : first.Yields code titling)
    (yieldsSecond : second.Yields code titling) : (both first second).Yields code titling := by
  intro before tokens pieces rest known covering read
  obtain ⟨early, middle, late, readFirst, readSecond, rfl⟩ := both_eq_some read
  obtain ⟨coveringMiddle, fitsFirst⟩ := yieldsFirst known covering readFirst
  obtain ⟨coveringAfter, fitsSecond⟩ := yieldsSecond known coveringMiddle readSecond
  exact ⟨coveringAfter, List.forall_mem_append.mpr ⟨fitsFirst, fitsSecond⟩⟩

/-- As many items as there are fit if each of them does, by induction on the limit of the loop. -/
theorem many_yields {item : Reader} (yields : item.Yields code titling) {before : List Piece}
    (known : ∀ piece ∈ before, piece.Fits code .free) (limit : Nat) {tokens : List Token}
    (covering : Covering code tokens) :
    Covering code (many item before limit tokens).2 ∧
      ∀ piece ∈ (many item before limit tokens).1, piece.Fits code titling := by
  induction limit generalizing tokens with
  | zero => exact ⟨covering, by simp [many]⟩
  | succ limit ih =>
      rw [many]
      split
      · exact ⟨covering, by simp⟩
      · rename_i pieces rest read
        obtain ⟨coveringRest, fits⟩ := yields known covering read
        split
        · obtain ⟨coveringAfter, fitsMore⟩ := ih coveringRest
          exact ⟨coveringAfter, List.forall_mem_append.mpr ⟨fits, fitsMore⟩⟩
        · exact ⟨covering, by simp⟩

/-- Growing a piece by tails yields pieces that fit, if every tail does after what fits. -/
theorem grow_yields {tail : Reader} (yields : tail.Yields code titling) (limit : Nat)
    {before : List Piece} (known : ∀ piece ∈ before, piece.Fits code titling)
    {tokens : List Token} (covering : Covering code tokens) :
    Covering code (grow tail limit before tokens).2 ∧
      ∀ piece ∈ (grow tail limit before tokens).1, piece.Fits code titling := by
  induction limit generalizing before tokens with
  | zero => exact ⟨covering, known⟩
  | succ limit ih =>
      rw [grow]
      split
      · exact ⟨covering, known⟩
      · rename_i pieces rest read
        obtain ⟨coveringRest, fits⟩ := yields (fun piece member => (known piece member).free)
          covering read
        split
        · exact ih fits coveringRest
        · exact ⟨covering, known⟩

end Reader

section Titles

variable {code : List Char}

/-- A stretch of a text has the text that stands there. -/
theorem Node.text_eq {node : Node} {before text after : List Char}
    (covered : code = before ++ text ++ after) (start : node.start.offset = byteLength before)
    (stop : node.stop.offset = byteLength (before ++ text)) : node.text code = text := by
  rw [Node.text, start, stop, covered, Text.slice_eq]

/-- What is read as a word that is not reserved is a word: tokens cover the text, and a word token
covers a name. -/
theorem isWord_of_read {limit : Nat} {part : Part → Reader} {words : List String}
    {before pieces : List Piece} {tokens rest : List Token} (covering : Covering code tokens)
    (read : (Rule.wordExcept words).read limit part before tokens = some (pieces, rest)) :
    ∀ piece ∈ pieces, IsWord (piece.node.text code) := by
  obtain ⟨token, rfl, accepted, rfl⟩ := Reader.next_eq_some read
  obtain ⟨earlier, lexed⟩ := covering
  cases lexed with
  | @cons _ gap text after _ _ covered start stop word separator bare later =>
      have kind : token.kind = .word := by simpa using (Bool.and_eq_true_iff.mp accepted).1
      have same : (Piece.ofToken .name token).node.text code = text :=
        Node.text_eq covered start stop
      rw [List.forall_mem_singleton, same]
      exact (word kind).1

/-- The pieces of a path that begins after `before` go on to the end of `path`. -/
structure EndsPath (code before path : List Char) (pieces : List Piece) : Prop where
  isPath : IsPath path
  covered : ∃ after, code = before ++ path ++ after
  last : ∃ last ∈ pieces.getLast?, last.node.stop.offset = byteLength (before ++ path)

variable {before path : List Char} {known pieces first : List Piece} {tokens rest : List Token}
  {limit : Nat} {part : Part → Reader}

/-- The rule for what follows in a path after a word: a separator and a word. -/
def segment : Rule :=
  .both (.exact .sign "\\" .token) (.wordExcept [])

/-- A separator and a word after the beginning of a path make a longer path, and the tokens go on
behind it. -/
theorem endsPath_segment (lexed : Token.Lexed code (before ++ path) tokens)
    (read : segment.read limit part known tokens = some (pieces, rest)) :
    ∃ longer, EndsPath code before longer pieces ∧ Token.Lexed code (before ++ longer) rest := by
  obtain ⟨early, middle, late, readSign, readWord, rfl⟩ := Reader.both_eq_some read
  obtain ⟨sign, rfl, isSign, rfl⟩ := Reader.next_eq_some readSign
  obtain ⟨name, rfl, isWord, rfl⟩ := Reader.next_eq_some readWord
  cases lexed with
  | @cons _ gapSign textSign _ _ _ _ _ _ _ separator _ between =>
      cases between with
      | @cons _ gapName textName after _ _ covered start stop word _ _ later =>
          have kind : name.kind = .word := by simpa using (Bool.and_eq_true_iff.mp isWord).1
          obtain ⟨isWord, apart⟩ := word kind
          have sign : textSign = ['\\'] := by
            have both := Bool.and_eq_true_iff.mp isSign
            exact separator (by simpa using both.1) (by simpa using both.2)
          subst sign
          have parted : Parted (path ++ gapSign ++ ['\\'] ++ gapName ++ textName) := by
            refine Parted.append_unmarked ?_ isWord.unmarked
            rcases apart with rfl | parted
            · rw [List.append_nil]
              exact ⟨path ++ gapSign, ['\\'], rfl, by simp [Unmarked], '\\', by simp, by decide⟩
            · exact parted.append_left _
          refine ⟨path ++ gapSign ++ ['\\'] ++ gapName ++ textName,
            ⟨.inr parted, ⟨after, ?_⟩, Piece.ofToken .name name, rfl, ?_⟩, ?_⟩
          · simpa only [List.append_assoc] using covered
          · change name.stop.offset = _
            simpa only [List.append_assoc] using stop
          · simpa only [List.append_assoc] using later

/-- Segments make a path longer. -/
theorem endsPath_many (limit count : Nat) (first : List Piece) {path : List Char}
    {tokens : List Token} (lexed : Token.Lexed code (before ++ path) tokens)
    (ends : EndsPath code before path first) :
    ∃ longer, EndsPath code before longer
      (first ++ (Reader.many (segment.read limit part) known count tokens).1) := by
  induction count generalizing first path tokens with
  | zero => exact ⟨path, by simpa [Reader.many] using ends⟩
  | succ count ih =>
      rw [Reader.many]
      split
      · exact ⟨path, by simpa using ends⟩
      · rename_i pieces rest read
        split
        · obtain ⟨longer, segment, later⟩ := endsPath_segment lexed read
          have both : EndsPath code before longer (first ++ pieces) := by
            obtain ⟨last, found, stop⟩ := segment.last
            refine ⟨segment.isPath, segment.covered, last, ?_, stop⟩
            rw [List.getLast?_append, found]
            rfl
          simpa only [List.append_assoc] using ih (first ++ pieces) later both
        · exact ⟨path, by simpa using ends⟩

/-- What the rules for the names of namespaces read is a path, as every word in it is set apart from
the marks before it. -/
theorem isPath_of_read {rule : Rule} (path : rule.isPath = true) (covering : Covering code tokens)
    (read : rule.read limit part known tokens = some (pieces, rest)) :
    ∀ piece ∈ pieces, IsPath (piece.node.text code) := by
  unfold Rule.isPath at path
  split at path
  · obtain ⟨inner, readParts, rfl⟩ := Rule.read_node_eq_some read
    obtain ⟨early, middle, late, readWord, readMany, rfl⟩ := Reader.both_eq_some readParts
    obtain ⟨name, rfl, accepted, rfl⟩ := Reader.next_eq_some readWord
    obtain rfl : (Reader.many (segment.read limit part) known limit middle).1 = late :=
      congrArg Prod.fst (Option.some.inj readMany)
    obtain ⟨earlier, lexed⟩ := covering
    cases lexed with
    | @cons _ gap text remaining _ _ covered start stop word _ _ later =>
        have kind : name.kind = .word := by simpa using (Bool.and_eq_true_iff.mp accepted).1
        have ends : EndsPath code (earlier ++ gap) text [Piece.ofToken .name name] :=
          ⟨.inl (word kind).1.unmarked, ⟨remaining, covered⟩, _, rfl, stop⟩
        obtain ⟨longer, isPath, ⟨beyond, all⟩, last, found, stopLast⟩ :=
          endsPath_many limit limit [Piece.ofToken .name name] later ends
        have same : last =
            (Reader.many (segment.read limit part) known limit middle).1.getLast?.getD
              (Piece.ofToken .name name) := by
          rw [List.singleton_append, List.getLast?_cons] at found
          exact (Option.some.inj found).symm
        rw [List.singleton_append, Piece.join, List.forall_mem_singleton,
          Node.text_eq all start (by rw [← stopLast, same])]
        exact isPath
  · cases path

/-- What is read as a title is as the titling asks once it has the role of a name. -/
theorem allows_setRole_of_read {rule : Rule} {titling : Titling}
    (title : rule.isTitle titling = true)
    (covering : Covering code tokens)
    (read : rule.read limit part known tokens = some (pieces, rest)) :
    ∀ piece ∈ pieces, titling.Allows code (piece.setRole .name).node := by
  cases titling with
  | untitled => cases title
  | free => exact fun _ _ => trivial
  | word =>
      intro piece member _
      simp only [Rule.isTitle] at title
      split at title
      · exact isWord_of_read covering read piece member
      · cases title
  | path => exact fun piece member _ => isPath_of_read title covering read piece member

end Titles

/-- **A rule that fits makes well named nodes.** What is read by it is well named and as the
titling asks, if this holds of the parts of the grammar. -/
theorem Rule.yields_read {code : List Char} {limit : Nat} {part : Part → Reader}
    (parts : ∀ name, (part name).Yields code .untitled) (rule : Rule) {titling : Titling}
    (fits : rule.fits titling = true) : (rule.read limit part).Yields code titling := by
  -- What was read before is asked of too: `around` puts it into the node that it makes.
  induction rule generalizing titling with
  | nothing => exact Reader.yields_nothing
  | leaf token kind => exact Reader.yields_next _ kind
  | exact token key kind => exact Reader.yields_next _ kind
  | wordExcept words => exact Reader.yields_next _ .name
  | closed => exact Reader.yields_check _
  | joined => exact Reader.yields_check _
  | missing sign => exact Reader.yields_missing sign
  | group => exact Reader.yields_group
  | both first second ihFirst ihSecond =>
      obtain ⟨fitsFirst, fitsSecond⟩ := Bool.and_eq_true_iff.mp fits
      exact Reader.yields_both (ihFirst fitsFirst) (ihSecond fitsSecond)
  | either first second ihFirst ihSecond =>
      obtain ⟨fitsFirst, fitsSecond⟩ := Bool.and_eq_true_iff.mp fits
      intro before tokens pieces rest known covering read
      simp only [Rule.read] at read
      split at read
      · rename_i reading readFirst
        cases read
        exact ihFirst fitsFirst known covering readFirst
      · exact ihSecond fitsSecond known covering read
  | many item ih =>
      intro before tokens pieces rest known covering read
      have yields := Reader.many_yields (ih fits) known limit covering
      rw [Option.some.inj read] at yields
      exact yields
  | ahead rule _ =>
      intro before tokens pieces rest known covering read
      simp only [Rule.read] at read
      split at read
      · cases read
        exact ⟨covering, by simp⟩
      · cases read
  | absent rule _ =>
      intro before tokens pieces rest known covering read
      simp only [Rule.read] at read
      split at read
      · cases read
      · cases read
        exact ⟨covering, by simp⟩
  | node kind parts ih =>
      intro before tokens pieces rest known covering read
      obtain ⟨inner, readParts, rfl⟩ := read_node_eq_some read
      obtain ⟨coveringRest, fitsInner⟩ := ih fits known covering readParts
      exact ⟨coveringRest, Piece.join_fits fitsInner⟩
  | role given rule ih =>
      simp only [Rule.fits, Bool.and_eq_true, Bool.or_eq_true, decide_eq_true_eq] at fits
      obtain ⟨⟨titled, fitsRule⟩, title⟩ := fits
      intro before tokens pieces rest known covering read
      obtain ⟨inner, readRule, rfl⟩ := read_role_eq_some read
      obtain ⟨coveringRest, fitsInner⟩ := ih fitsRule known covering readRule
      refine ⟨coveringRest, List.forall_mem_map.mpr fun piece member => ?_⟩
      obtain ⟨leading, node, _⟩ := (fitsInner piece member).setRole_free given
      refine ⟨leading, node, ?_⟩
      by_cases name : given = .name
      · subst name
        have title := title.resolve_left (by simp)
        exact allows_setRole_of_read title covering readRule piece member
      · exact Titling.allows_of_role_ne titled (by simpa [Piece.setRole] using name)
  | grow first tail ihFirst ihTail =>
      obtain ⟨fitsFirst, fitsTail⟩ := Bool.and_eq_true_iff.mp fits
      intro before tokens pieces rest known covering read
      simp only [Rule.read] at read
      split at read
      · cases read
      · rename_i early middle readFirst
        obtain ⟨coveringMiddle, fitsEarly⟩ := ihFirst fitsFirst known covering readFirst
        have yields := Reader.grow_yields (ihTail fitsTail) limit fitsEarly coveringMiddle
        rw [Option.some.inj read] at yields
        exact yields
  | around kind given rule ih =>
      simp only [Rule.fits, Bool.and_eq_true, decide_eq_true_eq] at fits
      obtain ⟨free, fitsRule⟩ := fits
      intro before tokens pieces rest known covering read
      simp only [Rule.read] at read
      split at read
      · cases read
      · rename_i late after readRule
        obtain ⟨coveringRest, fitsLate⟩ := ih fitsRule known covering readRule
        cases read
        refine ⟨coveringRest, Piece.join_fits ?_⟩
        rw [free]
        refine List.forall_mem_append.mpr ⟨?_, fitsLate⟩
        cases given with
        | none => exact known
        | some title =>
            exact List.forall_mem_map.mpr fun piece member =>
              (known piece member).setRole_free title
  | part name =>
      intro before tokens pieces rest known covering read
      obtain ⟨coveringRest, fitsPieces⟩ := parts name known covering read
      exact ⟨coveringRest, fun piece member => (fitsPieces piece member).of_untitled⟩

/-- The parts of the grammar make well named nodes, however deep they are nested. -/
theorem yields_grammar (code : List Char) (limit depth : Nat) (part : Part) :
    (grammar.read limit depth part).Yields code .untitled := by
  induction depth generalizing part with
  | zero =>
      intro before tokens pieces rest _ _ read
      cases read
  | succ depth ih => exact Rule.yields_read ih (grammar part) (grammar_fits part)

section Files

variable {code : List Char}

/-- Putting a fault in the place of a missing sign leaves the piece fit where nothing is asked. -/
theorem fits_settleMissing {piece : Piece} (fits : piece.Fits code .free) :
    (settleMissing piece).Fits code .free := by
  unfold settleMissing
  dsimp only
  split
  · refine ⟨fits.leading, .mk (fun _ _ => trivial) fun child member => ?_, trivial⟩
    exact fits.node.child member
  · exact fits

theorem readStatements_fits {tokens : List Token} (covering : Covering code tokens) :
    Covering code (readStatements tokens).2 ∧
      ∀ piece ∈ (readStatements tokens).1, piece.Fits code .untitled :=
  Reader.many_yields (yields_grammar code _ _ .statement) (by simp) _ covering

/-- What is left of a file becomes faults without names in them. -/
theorem wellNamed_of_mem_remainder {tokens : List Token} (covering : Covering code tokens)
    {node : Node} (member : node ∈ remainder tokens) : WellNamed code node := by
  cases tokens with
  | nil => cases member
  | cons token rest =>
      refine wellNamed_of_children_eq_nil ?_
      have leading (before : node ∈ token.leading) : node.children = [] :=
        (covering.bare node before).2
      rw [remainder] at member
      split at member
      · cases member
      · split at member
        · exact leading member
        · rcases List.mem_append.mp member with before | fault
          · exact leading before
          · rw [List.mem_singleton.mp fault]

/-- What stands before the statements of a file is well named, and the tokens after it cover the
text from there on. -/
theorem readHeading_fits (code : List Char) :
    Covering code (readHeading (Token.read code)).2 ∧
      ∀ piece ∈ (readHeading (Token.read code)).1, piece.Fits code .untitled := by
  have stands (count : Nat) :
      (Token.Cursor.skip ⟨code, .origin⟩ count).StandsAfter code (code.take count) := by
    have origin : Token.Cursor.StandsAfter code [] ⟨code, .origin⟩ := ⟨rfl, rfl⟩
    simpa using origin.skip count
  have leaf (kind : Kind) (token : TokenKind) (start stop : Point) :
      (Piece.ofToken kind (Token.ofStretch token start stop)).Fits code .untitled :=
    Piece.fits_ofToken kind (by simp [Token.ofStretch, Token.Bare])
  let tag : Token.Cursor := Token.Cursor.skip ⟨code, .origin⟩ (Lexeme.plainText code)
  let inside := tag.skip (Lexeme.openingTag tag.rest)
  have fromTag :
      let tokens := if tag.rest.isEmpty then [Token.endOfFile ⟨[], false, tag⟩ [] tag.point]
        else Token.ofStretch .openingTag tag.point inside.point ::
          Token.readFrom (inside.rest.length + 1) [] inside.point inside
      Covering code (readHeading tokens).2 ∧
        ∀ piece ∈ (readHeading tokens).1, piece.Fits code .untitled := by
    dsimp only
    split
    · refine ⟨⟨_, Token.lexed_endOfFile [] (stands _).offset ?_ ?_⟩,
        by simp [readHeading, Token.endOfFile]⟩
      · simpa using stands (Lexeme.plainText code)
      · simp [Token.Bare]
    · refine ⟨⟨_, Token.lexed_readFrom _ ((stands _).skip _)⟩, ?_⟩
      exact List.forall_mem_singleton.mpr (leaf _ _ _ _)
  rw [Token.read]
  split
  · exact ⟨fromTag.1, List.forall_mem_cons.mpr ⟨leaf _ _ _ _, fromTag.2⟩⟩
  · exact fromTag

/-- **Names are words and paths.** In the syntax tree of every text, classes and methods are named
by words, and namespaces by paths. -/
theorem wellNamed_ofCode (code : List Char) : WellNamed code (Node.ofCode code) := by
  obtain ⟨covering, heading⟩ := readHeading_fits code
  obtain ⟨coveringRest, statements⟩ := readStatements_fits covering
  refine .mk (fun _ _ => trivial) fun child member => ?_
  rcases List.mem_append.mp member with piece | fault
  · refine (@Piece.mem_nodes_fits code .free _ (fun piece present => ?_) _ piece).1
    rcases List.mem_append.mp present with early | late
    · exact (heading piece early).free
    · obtain ⟨statement, among, rfl⟩ := List.mem_map.mp late
      exact fits_settleMissing (statements statement among).free
  · exact wellNamed_of_mem_remainder coveringRest fault

end Files

end PhpTestIndex.Php
