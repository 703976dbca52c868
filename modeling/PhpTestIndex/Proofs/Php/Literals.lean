import Mathlib.Data.List.Basic
import PhpTestIndex.Php.Literal
import PhpTestIndex.Proofs.Php.Documents
import PhpTestIndex.Proofs.Text.Piece

/-! # The values of literals

A literal is a text between two quotes, possibly after the mark of a binary string. In a file, a
backslash in it hides the character after it. Its value is what one pass from left to right makes
of the text: a backslash is left out where it stands before a character that it has to hide, and
stays elsewhere. Replacing one sequence after the other in the whole text comes to the same
(`PhpTestIndex.Php.unescape_replacePair`), because the doubled backslash is replaced last, so that
literals have the value of one pass (`PhpTestIndex.Php.value_of_one_pass`).
-/

namespace PhpTestIndex

namespace Text

variable {first second replacement c : Char} {rest : List Char}

/-- A character that starts no pair stays. -/
theorem replacePair_of_ne (other : c ≠ first) :
    replacePair first second replacement (c :: rest) =
      c :: replacePair first second replacement rest := by
  cases rest with
  | nil => simp [replacePair]
  | cons next rest => rw [replacePair, if_neg fun both => other both.1]

theorem replacePair_pair :
    replacePair first second replacement (first :: second :: rest) =
      replacement :: replacePair first second replacement rest := by
  rw [replacePair, if_pos ⟨rfl, rfl⟩]

/-- The first character of a pair stays if the second does not follow. -/
theorem replacePair_of_head?_ne (other : rest.head? ≠ some second) :
    replacePair first second replacement (first :: rest) =
      first :: replacePair first second replacement rest := by
  cases rest with
  | nil => simp [replacePair]
  | cons next rest =>
      have different : next ≠ second := by simpa using other
      rw [replacePair, if_neg fun both => different both.2]

end Text

namespace Php

/-! ### One pass -/

/-- Undo escape sequences in one pass from left to right: a backslash before a character that it
hides is left out, every other pair stays as it is written. -/
def unescape (hides : Char → Bool) : List Char → List Char
  | '\\' :: c :: rest =>
    if hides c then c :: unescape hides rest else '\\' :: c :: unescape hides rest
  | c :: rest => c :: unescape hides rest
  | [] => []

/-- Write a backslash before every character that it has to hide. -/
def escape (hides : Char → Bool) (chars : List Char) : List Char :=
  chars.flatMap fun c => if hides c then ['\\', c] else [c]

section Passes

variable {hides : Char → Bool} {c sign : Char} {rest chars : List Char}

/-- A character that is shown is not one that is hidden. -/
theorem ne_of_shown (shown : ¬ hides c = true) (hidden : hides sign = true) : c ≠ sign := by
  rintro rfl
  exact shown hidden

/-- Where no sequence starts, there is a plain character or the last backslash. -/
theorem plain_or_last (notPair : ∀ next more, c = '\\' → rest = next :: more → False) :
    c ≠ '\\' ∨ c = '\\' ∧ rest = [] := by
  by_cases plain : c = '\\'
  · cases rest with
    | nil => exact .inr ⟨plain, rfl⟩
    | cons next more => exact (notPair next more plain rfl).elim
  · exact .inl plain

/-- Characters other than the backslash stay. -/
theorem unescape_of_ne (plain : c ≠ '\\') :
    unescape hides (c :: rest) = c :: unescape hides rest := by
  cases rest with
  | nil => simp [unescape]
  | cons next rest =>
      rw [unescape]
      simp [plain]

theorem unescape_of_hides (hidden : hides c = true) :
    unescape hides ('\\' :: c :: rest) = c :: unescape hides rest := by
  rw [unescape, if_pos hidden]

theorem unescape_of_not_hides (shown : hides c = false) :
    unescape hides ('\\' :: c :: rest) = '\\' :: c :: unescape hides rest := by
  rw [unescape, if_neg (by simp [shown])]

/-- **One more sequence in the same pass.** To replace a sequence in the whole text, and then to
undo others in one pass, is to undo all of them in one pass. -/
theorem unescape_replacePair (hidesItself : hides '\\' = true) (isOther : sign ≠ '\\')
    (fresh : hides sign = false) :
    unescape hides (Text.replacePair '\\' sign sign chars) =
      unescape (fun c => hides c || c == sign) chars := by
  have passed {c : Char} (rest : List Char) (notSign : c ≠ sign) (plain : c ≠ '\\') :
      Text.replacePair '\\' sign sign ('\\' :: c :: rest) =
        '\\' :: c :: Text.replacePair '\\' sign sign rest := by
    rw [Text.replacePair_of_head?_ne (by simpa using notSign), Text.replacePair_of_ne plain]
  fun_induction unescape (fun c => hides c || c == sign) chars with
  | case1 c rest hidden ih =>
      by_cases isSign : c = sign
      · subst isSign
        rw [Text.replacePair_pair, unescape_of_ne isOther, ih]
      have hiddenBefore : hides c = true := by simpa [isSign] using hidden
      by_cases plain : c = '\\'
      · subst plain
        rw [Text.replacePair_of_head?_ne (by simpa using Ne.symm isOther)]
        -- Where the second backslash stands before the sign, replacing takes it away as well, and
        -- the first one, which had to hide it, is left before a sign that nothing hides.
        by_cases next : rest.head? = some sign
        · obtain ⟨more, rfl⟩ := List.head?_eq_some_iff.mp next
          rw [Text.replacePair_of_ne isOther, unescape_of_ne isOther] at ih
          rw [Text.replacePair_pair, unescape_of_not_hides fresh, ih]
        · rw [Text.replacePair_of_head?_ne next, unescape_of_hides hidesItself, ih]
      · rw [passed rest isSign plain, unescape_of_hides hiddenBefore, ih]
  | case2 c rest shown ih =>
      obtain ⟨shownBefore, notSign⟩ : hides c = false ∧ c ≠ sign := by simpa using shown
      have plain : c ≠ '\\' := ne_of_shown (by simp [shownBefore]) hidesItself
      rw [passed rest notSign plain, unescape_of_not_hides shownBefore, ih]
  | case3 c rest notPair ih =>
      rcases plain_or_last notPair with plain | ⟨rfl, rfl⟩
      · rw [Text.replacePair_of_ne plain, unescape_of_ne plain, ih]
      · simp [Text.replacePair, unescape]
  | case4 => simp [Text.replacePair, unescape]

/-- To replace the doubled backslash is to undo nothing else. -/
theorem replacePair_backslash :
    Text.replacePair '\\' '\\' '\\' chars = unescape (fun c => c == '\\') chars := by
  fun_induction unescape (fun c => c == '\\') chars with
  | case1 c rest hidden ih =>
      obtain rfl : c = '\\' := by simpa using hidden
      rw [Text.replacePair_pair, ih]
  | case2 c rest shown ih =>
      have plain : c ≠ '\\' := by simpa using shown
      rw [Text.replacePair_of_head?_ne (by simpa using plain), Text.replacePair_of_ne plain, ih]
  | case3 c rest notPair ih =>
      rcases plain_or_last notPair with plain | ⟨rfl, rfl⟩
      · rw [Text.replacePair_of_ne plain, ih]
      · simp [Text.replacePair, unescape]
  | case4 => simp [Text.replacePair]

/-- What is written with a backslash before every character to hide is read back. -/
theorem unescape_escape (hidesItself : hides '\\' = true) (chars : List Char) :
    unescape hides (escape hides chars) = chars := by
  induction chars with
  | nil => simp [escape, unescape]
  | cons c rest ih =>
      rw [escape, List.flatMap_cons, ← escape]
      by_cases hidden : hides c = true
      · rw [if_pos hidden, List.cons_append, List.singleton_append, unescape_of_hides hidden, ih]
      · have plain : c ≠ '\\' := ne_of_shown hidden hidesItself
        rw [if_neg hidden, List.singleton_append, unescape_of_ne plain, ih]

end Passes

/-! ### Literals -/

/-- What a string stands between. -/
inductive Quote
  | single
  | double
deriving DecidableEq

namespace Quote

/-- The quote itself. -/
def sign : Quote → Char
  | single => '\''
  | double => '\x22'

/-- What a string between such quotes is in a syntax tree. -/
def kind : Quote → Kind
  | single => .plainString
  | double => .interpolatedString

/-- The characters that a backslash hides between such quotes. -/
def hides : Quote → Char → Bool
  | single, c => c == '\\' || c == '\''
  | double, c => c == '\\' || c == '$' || c == '\x22'

theorem hides_backslash (quote : Quote) : quote.hides '\\' = true := by
  cases quote <;> rfl

theorem hides_sign (quote : Quote) : quote.hides quote.sign = true := by
  cases quote <;> rfl

theorem sign_ne_backslash (quote : Quote) : quote.sign ≠ '\\' := by
  cases quote <;> decide

end Quote

/-- The mark of a binary string, which need not be there. -/
def binaryMarks : List (List Char) :=
  [[], ['b'], ['B']]

/-- A string as it is written. Between its quotes may stand anything: what is put into a string
between double quotes may hold further strings. -/
structure Literal where
  mark : List Char
  quote : Quote
  body : List Char
  isMark : mark ∈ binaryMarks

namespace Literal

/-- The literal, from the mark to the closing quote. -/
def text (literal : Literal) : List Char :=
  literal.mark ++ literal.quote.sign :: literal.body ++ [literal.quote.sign]

/-- What the literal means after one pass. -/
def value (literal : Literal) : List Char :=
  unescape literal.quote.hides literal.body

/-- The literal between single quotes that means a text. -/
def ofValue (mark : List Char) (isMark : mark ∈ binaryMarks) (value : List Char) : Literal :=
  ⟨mark, .single, escape Quote.single.hides value, isMark⟩

end Literal

/-- What stands between the quotes of a literal, if no string stands in it: every quote in it is
hidden by a backslash. -/
inductive IsBody (quote : Char) : List Char → Prop
  | nil : IsBody quote []
  | hidden (c : Char) {rest : List Char} (later : IsBody quote rest) :
      IsBody quote ('\\' :: c :: rest)
  | plain {c : Char} {rest : List Char} (noBackslash : c ≠ '\\') (noQuote : c ≠ quote)
      (later : IsBody quote rest) : IsBody quote (c :: rest)

/-- A text in which every quote has its backslash can stand between quotes. -/
theorem isBody_escape (quote : Quote) (chars : List Char) :
    IsBody quote.sign (escape quote.hides chars) := by
  induction chars with
  | nil => exact .nil
  | cons c rest ih =>
      rw [escape, List.flatMap_cons, ← escape]
      by_cases hidden : quote.hides c = true
      · rw [if_pos hidden]
        exact .hidden c ih
      · rw [if_neg hidden]
        exact .plain (ne_of_shown hidden quote.hides_backslash)
          (ne_of_shown hidden quote.hides_sign) ih

section Escapes

variable {hides : Char → Bool} {c quote : Char} {body : List Char}

/-- A pair does not begin at a character that is not its first one. -/
theorem not_infix_cons_of_ne {first second : Char} {rest : List Char} (other : c ≠ first) :
    ¬ [first, second] <:+: c :: rest ↔ ¬ [first, second] <:+: rest := by
  rw [List.infix_cons_iff, List.cons_prefix_cons]
  simp [Ne.symm other]

theorem length_unescape_le (hides : Char → Bool) (body : List Char) :
    (unescape hides body).length ≤ body.length := by
  fun_induction unescape hides body <;> grind

/-- Decoding changes a text exactly if it has an escape sequence. -/
theorem unescape_eq_self_iff (hidesItself : hides '\\' = true) :
    unescape hides body = body ↔ ∀ c, hides c = true → ¬ ['\\', c] <:+: body := by
  fun_induction unescape hides body with
  | case1 c rest hidden ih =>
      constructor
      · intro same
        have shorter := length_unescape_le hides rest
        have lengths := congrArg List.length same
        simp only [List.length_cons] at lengths
        omega
      · intro absent
        exact absurd ⟨[], rest, rfl⟩ (absent c hidden)
  | case2 c rest shown ih =>
      rw [List.cons_inj_right, List.cons_inj_right, ih]
      refine forall_congr' fun d => imp_congr_right fun hidden => ?_
      have other : c ≠ d := ne_of_shown shown hidden
      rw [List.infix_cons_iff, not_or, not_infix_cons_of_ne (ne_of_shown shown hidesItself)]
      simp [Ne.symm other]
  | case3 c rest notPair ih =>
      rw [List.cons_inj_right, ih]
      refine forall_congr' fun d => imp_congr_right fun _ => ?_
      rcases plain_or_last notPair with plain | ⟨rfl, rfl⟩
      · rw [not_infix_cons_of_ne plain]
      · simp [List.infix_cons_iff]
  | case4 => simp

/-- Undoing escape sequences loses no character but backslashes. -/
theorem mem_unescape (plain : c ≠ '\\') (member : c ∈ body) : c ∈ unescape hides body := by
  fun_induction unescape hides body with
  | case1 d rest _ ih =>
      obtain rfl | later : c = d ∨ c ∈ rest := by simpa [plain] using member
      · exact List.mem_cons_self
      · exact List.mem_cons_of_mem _ (ih later)
  | case2 d rest _ ih =>
      obtain rfl | later : c = d ∨ c ∈ rest := by simpa [plain] using member
      · simp
      · simp [ih later]
  | case3 d rest _ ih => exact List.mem_cons.mpr ((List.mem_cons.mp member).imp_right ih)
  | case4 => exact member

/-- A quote between the quotes of a literal is hidden. -/
theorem IsBody.infix_of_mem (isBody : IsBody quote body) (isOther : quote ≠ '\\')
    (member : quote ∈ body) : ['\\', quote] <:+: body := by
  induction isBody with
  | nil => cases member
  | @hidden c rest later ih =>
      by_cases isQuote : c = quote
      · exact ⟨[], rest, by rw [isQuote]; rfl⟩
      · have inRest : quote ∈ rest := by simpa [isOther, Ne.symm isQuote] using member
        exact (ih inRest).trans (List.suffix_append ['\\', c] rest).isInfix
  | @plain c rest _ noQuote _ ih =>
      have inRest : quote ∈ rest := by simpa [Ne.symm noQuote] using member
      exact (ih inRest).trans (List.suffix_cons c rest).isInfix

/-- A text without the quote may stand between quotes, or its last backslash hides the quote after
it. -/
theorem isBody_or_hides (absent : quote ∉ body) :
    IsBody quote body ∨ ∃ shorter, body = shorter ++ ['\\'] ∧ IsBody quote shorter := by
  fun_induction unescape (fun c => c == '\\') body with
  | case1 c rest _ ih | case2 c rest _ ih =>
      have later : quote ∉ rest := fun member => absent (by simp [member])
      rcases ih later with isBody | ⟨shorter, rfl, isBody⟩
      · exact .inl (.hidden c isBody)
      · exact .inr ⟨'\\' :: c :: shorter, rfl, .hidden c isBody⟩
  | case3 c rest notPair ih =>
      obtain ⟨noQuote, later⟩ : quote ≠ c ∧ quote ∉ rest := by simpa using absent
      rcases plain_or_last notPair with plain | ⟨rfl, rfl⟩
      · rcases ih later with isBody | ⟨shorter, rfl, isBody⟩
        · exact .inl (.plain plain (Ne.symm noQuote) isBody)
        · exact .inr ⟨c :: shorter, rfl, .plain plain (Ne.symm noQuote) isBody⟩
      · exact .inr ⟨[], rfl, .nil⟩
  | case4 => exact .inl .nil

end Escapes

/-! ### What the reader takes for a literal -/

/-- What the lexer takes between single quotes is a body and the quote that closes it. -/
theorem exists_body_of_singleQuotedRest {chars : List Char} {length : Nat}
    (read : Lexeme.singleQuotedRest chars = some length) :
    ∃ body, chars.take length = body ++ ['\''] ∧ IsBody '\'' body := by
  fun_induction Lexeme.singleQuotedRest chars generalizing length with
  | case1 => cases read
  | case2 => cases read
  | case3 c rest _ ih =>
      obtain ⟨shorter, found, rfl⟩ := Option.map_eq_some_iff.mp read
      obtain ⟨body, same, isBody⟩ := ih found
      refine ⟨'\\' :: c :: body, ?_, .hidden c isBody⟩
      rw [Nat.add_comm, List.take_succ_cons, List.take_succ_cons, same]
      rfl
  | case4 rest =>
      obtain rfl : 1 = length := Option.some.inj read
      exact ⟨[], rfl, .nil⟩
  | case5 => cases read
  | case6 c rest notPair noQuote _ ih =>
      obtain ⟨shorter, found, rfl⟩ := Option.map_eq_some_iff.mp read
      obtain ⟨body, same, isBody⟩ := ih found
      have noBackslash : c ≠ '\\' := by
        rintro rfl
        cases rest with
        | nil => cases found
        | cons next more => exact notPair next more rfl rfl
      refine ⟨c :: body, ?_, .plain noBackslash noQuote isBody⟩
      rw [Nat.add_comm, List.take_succ_cons, same]
      rfl

/-- What the lexer takes in front of a quote is one of the marks of a binary string, or nothing. -/
theorem take_binaryMark (chars : List Char) :
    chars.take (Lexeme.binaryMark chars) ∈ binaryMarks := by
  unfold Lexeme.binaryMark
  split
  · rename_i c next rest
    split
    · rename_i marked
      obtain ⟨rfl | rfl, _⟩ : (c = 'b' ∨ c = 'B') ∧ _ := by
        simpa only [Bool.and_eq_true, Bool.or_eq_true, decide_eq_true_eq] using marked
      · simp [binaryMarks]
      · simp [binaryMarks]
    · simp [binaryMarks]
  · simp [binaryMarks]

/-- What is read as a string in single quotes is a literal. -/
theorem exists_literal_of_singleQuoted {chars : List Char} {length : Nat}
    (read : Lexeme.singleQuoted chars = some length) :
    ∃ literal : Literal, literal.quote = .single ∧ IsBody '\'' literal.body ∧
      chars.take length = literal.text := by
  unfold Lexeme.singleQuoted at read
  dsimp only at read
  split at read
  · rename_i rest opened
    obtain ⟨inner, found, rfl⟩ := Option.map_eq_some_iff.mp read
    obtain ⟨body, same, isBody⟩ := exists_body_of_singleQuotedRest found
    refine ⟨⟨_, .single, body, take_binaryMark chars⟩, rfl, isBody, ?_⟩
    rw [Nat.add_assoc, List.take_add, opened, Nat.add_comm, List.take_succ_cons, same]
    simp [Literal.text, Quote.sign]
  · cases read

/-! ### Values -/

/-- Between single quotes, replacing the two sequences one after the other over the whole text gives
the same as one pass. -/
theorem unescapeSingle_eq (chars : List Char) :
    unescapeSingle chars = unescape Quote.single.hides chars := by
  rw [unescapeSingle, replacePair_backslash]
  exact unescape_replacePair (by decide) (by decide) (by decide)

/-- The same holds between double quotes for all three sequences. -/
theorem unescapeDouble_eq (chars : List Char) :
    unescapeDouble chars = unescape Quote.double.hides chars := by
  rw [unescapeDouble, replacePair_backslash,
    unescape_replacePair (by decide) (by decide) (by decide)]
  exact unescape_replacePair (by decide) (by decide) (by decide)

/-- Taking off the mark of a binary string leaves the quotes and what stands between them. -/
theorem withoutBinaryMark_text (literal : Literal) :
    withoutBinaryMark literal.text =
      literal.quote.sign :: literal.body ++ [literal.quote.sign] := by
  obtain ⟨mark, quote, body, isMark⟩ := literal
  simp only [binaryMarks, List.mem_cons, List.not_mem_nil, or_false] at isMark
  -- Without a mark, the first two characters are the quote and what stands after it.
  rcases isMark with rfl | rfl | rfl
  · cases quote <;> cases body <;> rfl
  · cases quote <;> rfl
  · cases quote <;> rfl

/-- What stands between two quotes is found between them. -/
theorem betweenQuotes?_append (quote : Char) (body : List Char) :
    betweenQuotes? quote (quote :: body ++ [quote]) = some body := by
  have opened : Text.after? [quote] (quote :: body ++ [quote]) = some (body ++ [quote]) :=
    Text.after?_append [quote] _
  rw [betweenQuotes?, opened, Option.bind_some, Text.before?_append]

/-- A literal has a value, which is that of one pass. -/
theorem stringValue?_text (literal : Literal) :
    stringValue? literal.quote.kind literal.text = some literal.value := by
  have body : betweenQuotes? literal.quote.sign (withoutBinaryMark literal.text) =
      some literal.body := by
    rw [withoutBinaryMark_text, betweenQuotes?_append]
  obtain ⟨mark, quote, chars, isMark⟩ := literal
  cases quote with
  | single =>
      change (betweenQuotes? '\'' _).map unescapeSingle = _
      rw [show '\'' = Quote.single.sign from rfl, body, Option.map_some, unescapeSingle_eq]
      rfl
  | double =>
      change (betweenQuotes? '\x22' _).map unescapeDouble = _
      rw [show '\x22' = Quote.double.sign from rfl, body, Option.map_some, unescapeDouble_eq]
      rfl

/-- **Literals have the value of one pass.** Every node that is written as a literal has a value:
what one pass over the text between the quotes makes of it. Whatever is read as a string in single
quotes is such a literal, and every text is the value of the literal that is written for it. -/
theorem value_of_one_pass :
    (∀ (document : Document) (node : Node) (literal : Literal),
      node.kind = literal.quote.kind → document.text node = literal.text →
        document.stringValue? node = some (String.ofList literal.value)) ∧
    (∀ (chars : List Char) (length : Nat), Lexeme.singleQuoted chars = some length →
      ∃ literal : Literal, literal.quote = .single ∧ IsBody '\'' literal.body ∧
        chars.take length = literal.text) ∧
    ∀ (mark : List Char) (isMark : mark ∈ binaryMarks) (value : List Char),
      IsBody '\'' (Literal.ofValue mark isMark value).body ∧
        stringValue? .plainString (Literal.ofValue mark isMark value).text = some value := by
  refine ⟨?_, fun _ _ read => exists_literal_of_singleQuoted read, ?_⟩
  · intro document node literal kind text
    rw [Document.stringValue?, kind, text, stringValue?_text, Option.map_some]
  · intro mark isMark value
    refine ⟨isBody_escape .single value, ?_⟩
    have value_eq : (Literal.ofValue mark isMark value).value = value :=
      unescape_escape Quote.single.hides_backslash value
    have written := stringValue?_text (Literal.ofValue mark isMark value)
    rw [value_eq] at written
    exact written

/-- A call with a binary string that has both escape sequences next to each other. -/
def quotedArgument : List Char :=
  "<?php f(b'it\\'s \\\\\\' \\n');".toList

/-- A binary string whose escape sequences abut is decoded to what one pass gives. -/
theorem quotedArgument_value :
    ∃ document, Document.read quotedArgument = .ok document ∧
      ∃ placed ∈ document.root.descendants none,
        document.string placed.node = "b'it\\'s \\\\\\' \\n'" ∧
        document.stringValue? placed.node = some "it's \\' \\n" := by
  let literal : Literal :=
    ⟨['b'], .single, "it\\'s \\\\\\' \\n".toList, by simp [binaryMarks]⟩
  obtain ⟨document, parsed, placed, among, kind, text⟩ :=
    @exists_document_of_check quotedArgument
      (fun document => ∃ placed ∈ document.root.descendants none,
        placed.node.kind = .plainString ∧
        document.text placed.node = "b'it\\'s \\\\\\' \\n'".toList)
      _ (by decide +kernel)
  have value : literal.value = "it's \\' \\n".toList := by decide +kernel
  have read := value_of_one_pass.1 document placed.node literal kind text
  rw [value] at read
  exact ⟨document, parsed, placed, among, congrArg String.ofList text, read⟩

end Php

end PhpTestIndex
