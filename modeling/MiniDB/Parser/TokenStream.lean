import MiniDB.Parser.Printing

/-!
# What the tokenizer gives out

The tokens of a statement are its characters without the whitespace outside
quotes, and each of them is a word, a quoted literal, a symbol or an operator; a
literal whose closing quote is missing can only be the last one. So the tokens,
printed with single spaces, are read back as they are.
-/

namespace MiniDB.Parser

/-! ## The characters of the tokens -/

/-- Whether a position is inside quotes, after one more character: quotes open
and close, with no regard to doubled ones. -/
def quoteAfter (quote : Option Char) (c : Char) : Option Char :=
  match quote with
  | none => if isQuote c then some c else none
  | some open_ => if c = open_ then none else some open_

/-- The text without the whitespace outside quotes. -/
def withoutSpace : (quote : Option Char) → List Char → List Char
  | _, [] => []
  | quote, c :: rest =>
    if quote = none ∧ isSpace c = true then withoutSpace none rest
    else c :: withoutSpace (quoteAfter quote c) rest

/-- An empty token is not pushed and adds no character. -/
theorem flatten_pushCurrent (current : Token) (later : List Token) :
    (pushCurrent current later).flatten = current ++ later.flatten := by
  rw [pushCurrent]
  split
  · next empty => rw [empty, List.nil_append]
  · rfl

/-- Empty tokens have no characters. -/
theorem flatten_filter_ne_nil (tokens : List Token) :
    (tokens.filter fun token => token ≠ []).flatten = tokens.flatten := by
  induction tokens with
  | nil => rfl
  | cons token tokens ih =>
    cases token with
    | nil => simpa using ih
    | cons c token => simpa using ih

section WithoutSpace

variable {c open_ : Char} (rest : List Char)

/-- White space outside quotes is left out. -/
theorem withoutSpace_space (space : isSpace c = true) :
    withoutSpace none (c :: rest) = withoutSpace none rest := by
  rw [withoutSpace, if_pos ⟨rfl, space⟩]

/-- A quote opens. -/
theorem withoutSpace_opens (isQuote : isQuote c = true) :
    withoutSpace none (c :: rest) = c :: withoutSpace (some c) rest := by
  have notSpace : isSpace c ≠ true := by
    intro space
    rw [isQuote_of_isSpace space] at isQuote
    cases isQuote
  rw [withoutSpace, if_neg (fun blank => notSpace blank.2), quoteAfter, if_pos isQuote]

/-- Another character outside quotes is kept. -/
theorem withoutSpace_outside (notQuote : ¬ isQuote c = true) (notSpace : ¬ isSpace c = true) :
    withoutSpace none (c :: rest) = c :: withoutSpace none rest := by
  rw [withoutSpace, if_neg (fun blank => notSpace blank.2), quoteAfter, if_neg notQuote]

/-- The same quote closes. -/
theorem withoutSpace_closes :
    withoutSpace (some open_) (open_ :: rest) = open_ :: withoutSpace none rest := by
  rw [withoutSpace, if_neg (by simp), quoteAfter, if_pos rfl]

/-- Everything inside quotes is kept. -/
theorem withoutSpace_inside (different : c ≠ open_) :
    withoutSpace (some open_) (c :: rest) = c :: withoutSpace (some open_) rest := by
  rw [withoutSpace, if_neg (by simp), quoteAfter, if_neg different]

end WithoutSpace

/-- The tokens have the characters of the text, but for white space outside quotes. -/
theorem flatten_lex (sql : List Char) (current : Token) (quote : Option Char)
    (opened : ∀ open_ ∈ quote, isQuote open_ = true) :
    (lex sql current quote).flatten = current ++ withoutSpace quote sql := by
  fun_induction lex sql current quote with
  | case1 current quote => rw [flatten_pushCurrent, withoutSpace, List.flatten_nil]
  | case2 c rest current isQuote ih =>
    rw [flatten_pushCurrent, ih (by simpa using isQuote), withoutSpace_opens rest isQuote,
      List.singleton_append]
  | case3 current open_ beyond isQuote ih =>
    -- a doubled quote closes and opens again
    rw [ih opened, withoutSpace_closes, withoutSpace_opens beyond isQuote, List.append_assoc]
    rfl
  | case4 current open_ next beyond different isQuote ih =>
    rw [List.flatten_cons, ih (by simp), withoutSpace_closes, List.append_assoc]
    rfl
  | case5 current open_ isQuote ih =>
    rw [List.flatten_cons, ih (by simp), withoutSpace_closes, List.append_assoc]
    rfl
  | case6 c rest current isQuote open_ different ih =>
    rw [ih opened, withoutSpace_inside rest different, List.append_assoc, List.singleton_append]
  | case7 c rest current quote notQuote inside ih =>
    obtain ⟨open_, rfl⟩ := Option.isSome_iff_exists.mp inside
    have different : c ≠ open_ := by
      rintro rfl
      exact notQuote (opened c rfl)
    rw [ih opened, withoutSpace_inside rest different, List.append_assoc, List.singleton_append]
  | case8 c rest current quote notQuote outside space ih =>
    obtain rfl := Option.not_isSome_iff_eq_none.mp outside
    rw [flatten_pushCurrent, ih opened, withoutSpace_space rest space, List.nil_append]
  | case9 c current quote notQuote outside notSpace symbol next beyond operator ih =>
    obtain rfl := Option.not_isSome_iff_eq_none.mp outside
    obtain ⟨-, rfl⟩ : startsOperator c = true ∧ next = '=' := by simpa using operator
    rw [flatten_pushCurrent, List.flatten_cons, ih opened,
      withoutSpace_outside _ notQuote notSpace, withoutSpace_outside _ (by decide) (by decide)]
    rfl
  | case10 c current quote notQuote outside notSpace symbol next beyond single ih =>
    obtain rfl := Option.not_isSome_iff_eq_none.mp outside
    rw [flatten_pushCurrent, List.flatten_cons, ih opened,
      withoutSpace_outside _ notQuote notSpace]
    rfl
  | case11 c current quote notQuote outside notSpace symbol ih =>
    obtain rfl := Option.not_isSome_iff_eq_none.mp outside
    rw [flatten_pushCurrent, List.flatten_cons, ih opened,
      withoutSpace_outside _ notQuote notSpace]
    rfl
  | case12 c rest current quote notQuote outside notSpace notSymbol ih =>
    obtain rfl := Option.not_isSome_iff_eq_none.mp outside
    rw [ih opened, withoutSpace_outside rest notQuote notSpace, List.append_assoc,
      List.singleton_append]

/-- So it is for the whole text. -/
theorem flatten_tokenize (sql : List Char) : (tokenize sql).flatten = withoutSpace none sql := by
  rw [tokenize, flatten_filter_ne_nil, flatten_lex sql [] none (by simp), List.nil_append]

/-! ## The kinds of the tokens -/

/-- A quoted literal without its closing quote. -/
def unterminated (quote : Char) (text : List Char) : Token := quote :: escape quote text

/-- Lexemes, and at the end possibly a literal without its closing quote. -/
def TokenStream (tokens : List Token) : Prop :=
  ∃ lexemes last, tokens = lexemes ++ last ∧ (∀ token ∈ lexemes, Lexeme token) ∧
    (last = [] ∨ ∃ quote text, isQuote quote = true ∧ last = [unterminated quote text])

/-- What the token under construction can be: the beginning of a word, or of a
literal. -/
def Started (current : Token) : Option Char → Prop
  | none => current.all isPlain = true
  | some open_ => isQuote open_ = true ∧ ∃ text, current = unterminated open_ text

/-- One more token in front. -/
theorem TokenStream.cons {token : Token} {tokens : List Token} (lexeme : Lexeme token)
    (stream : TokenStream tokens) : TokenStream (token :: tokens) := by
  obtain ⟨lexemes, last, rfl, each, ends⟩ := stream
  exact ⟨token :: lexemes, last, rfl, List.forall_mem_cons.mpr ⟨lexeme, each⟩, ends⟩

theorem TokenStream.nil : TokenStream [] := ⟨[], [], rfl, by simp, .inl rfl⟩

/-- A word is given out before what follows. -/
theorem TokenStream.pushCurrent {current : Token} {tokens : List Token}
    (plain : current.all isPlain = true) (stream : TokenStream tokens) :
    TokenStream (pushCurrent current tokens) := by
  rw [Parser.pushCurrent]
  split
  · exact stream
  · next started => exact stream.cons (.word started plain)

/-- A character inside quotes is added to the token. -/
theorem Started.inside {current : Token} {open_ c : Char} (started : Started current (some open_))
    (different : c ≠ open_) : Started (current ++ [c]) (some open_) := by
  obtain ⟨isQuote, text, rfl⟩ := started
  refine ⟨isQuote, text ++ [c], ?_⟩
  simp [unterminated, escape, different]

/-- At the end of the statement a word is complete, and a literal is not. -/
theorem Started.atEnd {current : Token} {quote : Option Char} (started : Started current quote) :
    TokenStream (Parser.pushCurrent current []) := by
  cases quote with
  | none => exact TokenStream.nil.pushCurrent started
  | some open_ =>
    obtain ⟨isQuote, text, rfl⟩ := started
    exact ⟨[], [unterminated open_ text], rfl, by simp, .inr ⟨open_, text, isQuote, rfl⟩⟩

/-- What the tokenizer makes is a stream of tokens. -/
theorem tokenStream_lex (sql : List Char) (current : Token) (quote : Option Char)
    (started : Started current quote) : TokenStream (lex sql current quote) := by
  fun_induction lex sql current quote with
  | case1 current quote => exact started.atEnd
  | case2 c rest current isQuote ih =>
    exact (ih ⟨isQuote, [], rfl⟩).pushCurrent started
  | case3 current open_ beyond isQuote ih =>
    obtain ⟨-, text, rfl⟩ := started
    refine ih ⟨isQuote, text ++ [open_], ?_⟩
    simp [unterminated, escape]
  | case4 current open_ next beyond different isQuote ih =>
    obtain ⟨-, text, rfl⟩ := started
    exact (ih rfl).cons (.literal text isQuote)
  | case5 current open_ isQuote ih =>
    obtain ⟨-, text, rfl⟩ := started
    exact (ih rfl).cons (.literal text isQuote)
  | case6 c rest current isQuote open_ different ih => exact ih (started.inside different)
  | case7 c rest current quote notQuote inside ih =>
    obtain ⟨open_, rfl⟩ := Option.isSome_iff_exists.mp inside
    refine ih (started.inside ?_)
    rintro rfl
    exact notQuote started.1
  | case8 c rest current quote notQuote outside space ih =>
    obtain rfl := Option.not_isSome_iff_eq_none.mp outside
    exact (ih rfl).pushCurrent started
  | case9 c current quote notQuote outside notSpace symbol next beyond operator ih =>
    obtain rfl := Option.not_isSome_iff_eq_none.mp outside
    obtain ⟨starts, rfl⟩ : startsOperator c = true ∧ next = '=' := by simpa using operator
    exact ((ih rfl).cons (.operator starts)).pushCurrent started
  | case10 c current quote notQuote outside notSpace symbol next beyond single ih =>
    obtain rfl := Option.not_isSome_iff_eq_none.mp outside
    exact ((ih rfl).cons (.symbol symbol)).pushCurrent started
  | case11 c current quote notQuote outside notSpace symbol ih =>
    obtain rfl := Option.not_isSome_iff_eq_none.mp outside
    exact ((ih rfl).cons (.symbol symbol)).pushCurrent started
  | case12 c rest current quote notQuote outside notSpace notSymbol ih =>
    obtain rfl := Option.not_isSome_iff_eq_none.mp outside
    have plain : current.all isPlain = true := started
    refine ih ?_
    simp [Started, plain, isPlain, notQuote, notSpace, notSymbol]

/-- No token is empty, so the last step of `Tokenize` removes nothing. -/
theorem TokenStream.filter_eq {tokens : List Token} (stream : TokenStream tokens) :
    tokens.filter (fun token => token ≠ []) = tokens := by
  obtain ⟨lexemes, last, rfl, each, ends⟩ := stream
  rw [List.filter_eq_self]
  intro token member
  rcases List.mem_append.mp member with early | late
  · simpa using (each token early).ne_nil
  · rcases ends with rfl | ⟨quote, text, -, rfl⟩
    · cases late
    · rw [List.mem_singleton.mp late]
      rfl

theorem tokenize_eq_lex (sql : List Char) : tokenize sql = lex sql [] none :=
  (tokenStream_lex sql [] none rfl).filter_eq

/-- `Tokenize` loses nothing but the whitespace outside quotes, and every token is a
symbol, an operator, a quoted literal or a word, or at the end a literal without its
closing quote. -/
theorem tokenize_lossless (sql : List Char) :
    (tokenize sql).flatten = withoutSpace none sql ∧ TokenStream (tokenize sql) := by
  refine ⟨flatten_tokenize sql, ?_⟩
  rw [tokenize_eq_lex]
  exact tokenStream_lex sql [] none rfl

/-! ## Printing the tokens again -/

/-- Every token ends before a character that is neither plain nor a quote, unless an operator
goes on with it. -/
theorem Lexeme.apart_of_not_plain {token : Token} (lexeme : Lexeme token) {next : Char}
    (notQuote : isQuote next = false) (notPlain : isPlain next = false) (notEquals : next ≠ '=') :
    apart token (some next) = true := by
  cases lexeme with
  | word nonempty plain =>
    obtain ⟨c, tail, rfl⟩ := List.exists_cons_of_ne_nil nonempty
    have first := List.all_eq_true.mp plain c List.mem_cons_self
    simp only [isPlain, Bool.and_eq_true, Bool.not_eq_true'] at first
    simp [apart, first.1.1, first.2, notPlain]
  | @literal quote text isQuote =>
    have different : next ≠ quote := by
      rintro rfl
      rw [notQuote] at isQuote
      cases isQuote
    simp [apart, quoted, isQuote, different]
  | @symbol c isSymbol => simp [apart, isQuote_of_isSymbol isSymbol, isSymbol, notEquals]
  | @operator c starts =>
    have isSymbol := isSymbol_of_startsOperator starts
    simp [apart, isQuote_of_isSymbol isSymbol, isSymbol]

theorem apart_none (token : Token) : apart token none = true := by
  cases token <;> rfl

/-- A literal without its closing quote takes in the rest of the statement. -/
theorem lex_unterminated {quote : Char} (isQuote : isQuote quote = true) (text : List Char) :
    lex (unterminated quote text) [] none = [unterminated quote text] := by
  have inside := lex_inside isQuote text [] [quote]
  rw [List.append_nil] at inside
  rw [unterminated, lex_quote isQuote, inside]
  rfl

/-- Tokens printed with single spaces are read back. -/
theorem TokenStream.lex_spaced {tokens : List Token} (stream : TokenStream tokens) :
    lex ([' '].intercalate tokens) [] none = tokens := by
  obtain ⟨lexemes, last, rfl, each, ends⟩ := stream
  induction lexemes with
  | nil =>
    rcases ends with rfl | ⟨quote, text, isQuote, rfl⟩
    · rfl
    · rw [List.nil_append, List.intercalate_singleton, lex_unterminated isQuote]
  | cons token lexemes ih =>
    obtain ⟨lexeme, later⟩ := List.forall_mem_cons.mp each
    have rest := ih later
    rw [List.cons_append]
    cases following : lexemes ++ last with
    | nil =>
      have alone := @lex_lexeme token lexeme [] (apart_none token)
      rw [List.append_nil] at alone
      rw [List.intercalate_singleton, alone]
      rfl
    | cons next beyond =>
      rw [following] at rest
      rw [List.intercalate_cons_cons, List.append_assoc, lex_lexeme lexeme, List.singleton_append,
        lex_space rfl, rest]
      · rfl
      · exact lexeme.apart_of_not_plain rfl rfl (by decide)

/-- Tokens that are printed with single spaces are tokenized as they were. -/
theorem tokenize_spaced (sql : List Char) :
    tokenize ([' '].intercalate (tokenize sql)) = tokenize sql := by
  have stream := tokenStream_lex sql [] none rfl
  rw [tokenize_eq_lex, tokenize_eq_lex sql, stream.lex_spaced]

end MiniDB.Parser
