import MiniDB.Parser.Tokenizer

/-!
# Printed token sequences

A token sequence is printed with any whitespace between the tokens, as long as
two tokens do not run together. The tokenizer gets every printed sequence of
words, quoted literals and symbols back.
-/

namespace MiniDB.Parser

/-- The characters a word is made of. -/
def isPlain (c : Char) : Bool := !isQuote c && !isSpace c && !isSymbol c

/-- A quoted text with every quote of its own kind doubled. -/
def escape (quote : Char) (text : List Char) : List Char :=
  text.flatMap fun c => if c = quote then [quote, quote] else [c]

/-- A terminated quoted literal. -/
def quoted (quote : Char) (text : List Char) : Token := quote :: (escape quote text ++ [quote])

/-- The tokens that a character sequence can hold: words, quoted literals,
symbols and two-character operators. -/
inductive Lexeme : Token → Prop where
  | word {token : Token} (nonempty : token ≠ []) (plain : token.all isPlain = true) :
      Lexeme token
  | literal {quote : Char} (text : List Char) (isQuote : isQuote quote = true) :
      Lexeme (quoted quote text)
  | symbol {c : Char} (isSymbol : isSymbol c = true) : Lexeme [c]
  | operator {c : Char} (starts : startsOperator c = true) : Lexeme [c, '=']

/-- The token does not run together with the character after it: a literal is
not followed by its own quote, `<`, `>` and `!` not by `=`, a word not by a
character of words. -/
def apart (token : Token) (following : Option Char) : Bool :=
  match token, following with
  | [], _ => true
  | _, none => true
  | c :: tail, some next =>
    if isQuote c then next ≠ c
    else if isSymbol c then !(tail.isEmpty && startsOperator c && next == '=')
    else !isPlain next

/-- `Printed tokens text`: the text is the tokens in order, with whitespace
around them wherever it is wanted and at least where two of them would run together. -/
inductive Printed : List Token → List Char → Prop where
  | nil {gap : List Char} (blank : gap.all isSpace = true) : Printed [] gap
  | cons {gap text : List Char} {token : Token} {tokens : List Token}
      (blank : gap.all isSpace = true) (separate : apart token text.head? = true)
      (later : Printed tokens text) : Printed (token :: tokens) (gap ++ token ++ text)

/-! ## One token at a time -/

/-- One step of `Tokenize`. -/
theorem lex_cons (c : Char) (rest : List Char) (current : Token) (quote : Option Char) :
    lex (c :: rest) current quote =
      if isQuote c then
        match quote with
        | none => pushCurrent current (lex rest [c] (some c))
        | some open_ =>
          if c = open_ then
            match rest with
            | next :: beyond =>
              if next = open_ then lex beyond (current ++ [c, c]) (some open_)
              else (current ++ [c]) :: lex (next :: beyond) [] none
            | [] => (current ++ [c]) :: lex [] [] none
          else
            lex rest (current ++ [c]) (some open_)
      else if quote.isSome then
        lex rest (current ++ [c]) quote
      else if isSpace c then
        pushCurrent current (lex rest [] none)
      else if isSymbol c then
        match rest with
        | next :: beyond =>
          if startsOperator c && next == '=' then
            pushCurrent current ([c, '='] :: lex beyond [] none)
          else
            pushCurrent current ([c] :: lex (next :: beyond) [] none)
        | [] => pushCurrent current ([c] :: lex [] [] none)
      else
        lex rest (current ++ [c]) none := by
  cases rest <;> cases quote <;> rfl

theorem isQuote_of_isSpace {c : Char} (space : isSpace c = true) : isQuote c = false := by
  simp only [isSpace, Bool.or_eq_true, beq_iff_eq] at space
  rcases space with ((((rfl | rfl) | rfl) | rfl) | rfl) | rfl <;> decide

theorem lex_space {c : Char} (space : isSpace c = true) (rest : List Char) (current : Token) :
    lex (c :: rest) current none = pushCurrent current (lex rest [] none) := by
  rw [lex_cons]
  simp [isQuote_of_isSpace space, space]

theorem lex_blank {gap : List Char} (blank : gap.all isSpace = true) (text : List Char) :
    lex (gap ++ text) [] none = lex text [] none := by
  induction gap with
  | nil => rfl
  | cons c gap ih =>
    obtain ⟨space, later⟩ : isSpace c = true ∧ gap.all isSpace = true := by simpa using blank
    rw [List.cons_append, lex_space space]
    exact ih later

theorem isQuote_of_isSymbol {c : Char} (symbol : isSymbol c = true) :
    isQuote c = false ∧ isSpace c = false := by
  simp only [isSymbol, Bool.or_eq_true, beq_iff_eq] at symbol
  rcases symbol with ((((((rfl | rfl) | rfl) | rfl) | rfl) | rfl) | rfl) | rfl <;> decide

theorem isSymbol_of_startsOperator {c : Char} (starts : startsOperator c = true) :
    isSymbol c = true := by
  simp only [startsOperator, Bool.or_eq_true, beq_iff_eq] at starts
  rcases starts with (rfl | rfl) | rfl <;> decide

theorem lex_plain {c : Char} (plain : isPlain c = true) (rest : List Char) (current : Token) :
    lex (c :: rest) current none = lex rest (current ++ [c]) none := by
  simp only [isPlain, Bool.and_eq_true, Bool.not_eq_true'] at plain
  rw [lex_cons]
  simp [plain.1.1, plain.1.2, plain.2]

theorem lex_quote {c : Char} (quote : isQuote c = true) (rest : List Char) (current : Token) :
    lex (c :: rest) current none = pushCurrent current (lex rest [c] (some c)) := by
  rw [lex_cons]
  simp [quote]

/-- A two-character operator. -/
theorem lex_operator {c : Char} (starts : startsOperator c = true) (rest : List Char)
    (current : Token) :
    lex (c :: '=' :: rest) current none = pushCurrent current ([c, '='] :: lex rest [] none) := by
  have symbol := isSymbol_of_startsOperator starts
  obtain ⟨notQuote, notSpace⟩ := isQuote_of_isSymbol symbol
  rw [lex_cons]
  simp [notQuote, notSpace, symbol, starts]

/-- A symbol that does not start an operator. -/
theorem lex_symbol {c : Char} (symbol : isSymbol c = true) {rest : List Char}
    (single : ∀ next ∈ rest.head?, (startsOperator c && next == '=') = false) (current : Token) :
    lex (c :: rest) current none = pushCurrent current ([c] :: lex rest [] none) := by
  obtain ⟨notQuote, notSpace⟩ := isQuote_of_isSymbol symbol
  rw [lex_cons]
  cases rest with
  | nil => simp [notQuote, notSpace, symbol]
  | cons next beyond => simp [notQuote, notSpace, symbol, single next rfl]

/-- A finished word is given out before whatever ends it. -/
theorem lex_finished {current : Token} (started : current ≠ []) {text : List Char}
    (ended : ∀ c ∈ text.head?, isPlain c = false) :
    lex text current none = current :: lex text [] none := by
  cases text with
  | nil => exact if_neg started
  | cons c rest =>
    have notPlain := ended c rfl
    by_cases quote : isQuote c = true
    · simp [lex_quote quote, pushCurrent, started]
    by_cases space : isSpace c = true
    · simp [lex_space space, pushCurrent, started]
    have symbol : isSymbol c = true := by
      simpa [isPlain, quote, space] using notPlain
    by_cases operator : startsOperator c = true ∧ rest.head? = some '='
    · obtain ⟨starts, head⟩ := operator
      obtain ⟨beyond, rfl⟩ := List.head?_eq_some_iff.mp head
      simp [lex_operator starts, pushCurrent, started]
    · have single : ∀ next ∈ rest.head?, (startsOperator c && next == '=') = false := by
        rintro next head
        rw [Option.mem_def.mp head] at operator
        simpa using operator
      simp [lex_symbol symbol single, pushCurrent, started]

theorem lex_word {word text : List Char} (plain : word.all isPlain = true)
    (ended : ∀ c ∈ text.head?, isPlain c = false) :
    ∀ current, current ++ word ≠ [] →
      lex (word ++ text) current none = (current ++ word) :: lex text [] none := by
  induction word with
  | nil =>
    intro current started
    rw [List.append_nil] at started ⊢
    exact lex_finished started ended
  | cons c word ih =>
    intro current _
    obtain ⟨first, later⟩ : isPlain c = true ∧ word.all isPlain = true := by simpa using plain
    rw [List.cons_append, lex_plain first, ih later]
    · simp
    · simp

/-- Inside a literal, its own quote is taken in where it is doubled. -/
theorem lex_doubled {quote : Char} (isQuote : isQuote quote = true) (rest : List Char)
    (current : Token) :
    lex (quote :: quote :: rest) current (some quote) =
      lex rest (current ++ [quote, quote]) (some quote) := by
  rw [lex_cons]
  simp [isQuote]

/-- Inside a literal, everything but its own quote is taken in. -/
theorem lex_kept {c quote : Char} (other : c ≠ quote) (rest : List Char) (current : Token) :
    lex (c :: rest) current (some quote) = lex rest (current ++ [c]) (some quote) := by
  rw [lex_cons]
  simp [other]

/-- Inside a literal, a text with its own quotes doubled is taken in. -/
theorem lex_inside {quote : Char} (isQuote : isQuote quote = true) (text following : List Char) :
    ∀ current, lex (escape quote text ++ following) current (some quote) =
      lex following (current ++ escape quote text) (some quote) := by
  induction text with
  | nil =>
    intro current
    rw [escape, List.flatMap_nil, List.append_nil, List.nil_append]
  | cons c text ih =>
    intro current
    by_cases own : c = quote
    · subst own
      have step := ih (current ++ [c, c])
      simp only [escape, List.flatMap_cons, if_pos, List.cons_append, List.nil_append] at step ⊢
      rw [lex_doubled isQuote, step]
      simp
    · have step := ih (current ++ [c])
      simp only [escape, List.flatMap_cons, if_neg own, List.cons_append, List.nil_append] at step ⊢
      rw [lex_kept own, step]
      simp

/-- A closing quote ends the literal. -/
theorem lex_closes {quote : Char} (isQuote : isQuote quote = true) {following : List Char}
    (ended : following.head? ≠ some quote) (current : Token) :
    lex (quote :: following) current (some quote) =
      (current ++ [quote]) :: lex following [] none := by
  rw [lex_cons]
  cases following with
  | nil => simp [isQuote]
  | cons next beyond =>
    have other : next ≠ quote := by simpa using ended
    simp [isQuote, other]

/-- Inside a literal, everything up to the closing quote belongs to it. -/
theorem lex_literal {quote : Char} (isQuote : isQuote quote = true) {text following : List Char}
    (ended : following.head? ≠ some quote) (current : Token) :
    lex (escape quote text ++ quote :: following) current (some quote) =
      (current ++ escape quote text ++ [quote]) :: lex following [] none := by
  rw [lex_inside isQuote, lex_closes isQuote ended]

/-- A token that does not run together with what follows is read as one token. -/
theorem lex_lexeme {token : Token} (lexeme : Lexeme token) {text : List Char}
    (separate : apart token text.head? = true) :
    lex (token ++ text) [] none = token :: lex text [] none := by
  cases lexeme with
  | word nonempty plain =>
    refine lex_word plain ?_ [] (by simpa using nonempty)
    obtain ⟨c, tail, rfl⟩ := List.exists_cons_of_ne_nil nonempty
    have first := List.all_eq_true.mp plain c List.mem_cons_self
    simp only [isPlain, Bool.and_eq_true, Bool.not_eq_true'] at first
    intro next head
    rw [Option.mem_def.mp head] at separate
    simpa [apart, first.1.1, first.2] using separate
  | @literal quote inner isQuote =>
    have ended : text.head? ≠ some quote := by
      intro head
      rw [head] at separate
      simp [apart, quoted, isQuote] at separate
    rw [quoted, List.cons_append, lex_quote isQuote, List.append_assoc, List.singleton_append,
      lex_literal isQuote ended]
    simp [pushCurrent]
  | @symbol c isSymbol =>
    have single : ∀ next ∈ text.head?, (startsOperator c && next == '=') = false := by
      intro next head
      rw [Option.mem_def.mp head] at separate
      have either : startsOperator c = false ∨ next ≠ '=' := by
        simpa [apart, (isQuote_of_isSymbol isSymbol).1, isSymbol] using separate
      rcases either with notStart | notEqual
      · rw [notStart, Bool.false_and]
      · rw [beq_false_of_ne notEqual, Bool.and_false]
    rw [List.singleton_append, lex_symbol isSymbol single]
    rfl
  | @operator c starts =>
    rw [List.cons_append, List.singleton_append, lex_operator starts]
    rfl

theorem Lexeme.ne_nil {token : Token} (lexeme : Lexeme token) : token ≠ [] := by
  cases lexeme with
  | word nonempty plain => exact nonempty
  | literal text isQuote => exact List.cons_ne_nil _ _
  | symbol isSymbol => exact List.cons_ne_nil _ _
  | operator starts => exact List.cons_ne_nil _ _

/-- The tokenizer undoes printing. -/
theorem lex_printed {tokens : List Token} {text : List Char} (printed : Printed tokens text)
    (lexemes : ∀ token ∈ tokens, Lexeme token) : lex text [] none = tokens := by
  induction printed with
  | @nil gap blank =>
    have skipped : lex (gap ++ []) [] none = [] := lex_blank blank []
    rwa [List.append_nil] at skipped
  | @cons gap text token tokens blank separate later ih =>
    rw [List.append_assoc, lex_blank blank, lex_lexeme (lexemes token (by simp)) separate,
      ih fun other member => lexemes other (by simp [member])]

theorem tokenize_printed {tokens : List Token} {text : List Char} (printed : Printed tokens text)
    (lexemes : ∀ token ∈ tokens, Lexeme token) : tokenize text = tokens := by
  rw [tokenize, lex_printed printed lexemes, List.filter_eq_self]
  intro token member
  simpa using (lexemes token member).ne_nil

end MiniDB.Parser
