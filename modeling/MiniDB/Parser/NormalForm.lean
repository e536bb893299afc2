import MiniDB.Parser.ListAttributes
import MiniDB.Parser.RoundTrip

/-!
# The normal form of an accepted statement

The attributes of an accepted statement are written out as a statement again: keywords
in capitals, lists in parentheses, one space between the parts. This normal form is
parsed to the attributes it was written from, and to its end.
-/

namespace MiniDB.Parser

/-! ## Closed quotes -/

/-- Every quote that the statement opens is closed. -/
def QuotesClosed (sql : List Char) : Prop := sql.foldl quoteAfter none = none

instance (sql : List Char) : Decidable (QuotesClosed sql) := inferInstanceAs (Decidable (_ = _))

/-- Leaving out white space outside quotes changes no quote. -/
theorem foldl_withoutSpace (sql : List Char) (quote : Option Char) :
    (withoutSpace quote sql).foldl quoteAfter quote = sql.foldl quoteAfter quote := by
  induction sql generalizing quote with
  | nil => rfl
  | cons c rest ih =>
    rw [withoutSpace]
    split
    · next blank =>
      obtain ⟨rfl, space⟩ := blank
      have stays : quoteAfter none c = none := by simp [quoteAfter, isQuote_of_isSpace space]
      rw [ih, List.foldl_cons, stays]
    · rw [List.foldl_cons, ih, List.foldl_cons]

/-- Text without quotes opens none. -/
theorem foldl_quoteAfter_of_no_quotes {text : List Char}
    (noQuotes : ∀ c ∈ text, isQuote c = false) : text.foldl quoteAfter none = none := by
  induction text with
  | nil => rfl
  | cons c text ih =>
    obtain ⟨first, later⟩ := List.forall_mem_cons.mp noQuotes
    have stays : quoteAfter none c = none := by simp [quoteAfter, first]
    rw [List.foldl_cons, stays]
    exact ih later

/-- A doubled quote closes and opens again. -/
theorem foldl_escape {quote : Char} (isQuote : isQuote quote = true) (text : List Char) :
    (escape quote text).foldl quoteAfter (some quote) = some quote := by
  induction text with
  | nil => rfl
  | cons c text ih =>
    rw [escape, List.flatMap_cons, List.foldl_append]
    have stays : (if c = quote then [quote, quote] else [c]).foldl quoteAfter (some quote) =
        some quote := by
      split
      · simp [quoteAfter, isQuote]
      · next other => simp [quoteAfter, other]
    rw [stays]
    exact ih

/-- An unterminated quote stays open. -/
theorem foldl_unterminated {quote : Char} (isQuote : isQuote quote = true) (text : List Char) :
    (unterminated quote text).foldl quoteAfter none = some quote := by
  have opens : quoteAfter none quote = some quote := by simp [quoteAfter, isQuote]
  rw [unterminated, List.foldl_cons, opens]
  exact foldl_escape isQuote text

/-- A token closes the quotes that it opens. -/
theorem Lexeme.foldl_quoteAfter {token : Token} (lexeme : Lexeme token) :
    token.foldl quoteAfter none = none := by
  cases lexeme with
  | word nonempty plain =>
    refine foldl_quoteAfter_of_no_quotes fun c member => ?_
    have first := List.all_eq_true.mp plain c member
    simp only [isPlain, Bool.and_eq_true, Bool.not_eq_true'] at first
    exact first.1.1
  | @literal quote text isQuote =>
    have opened := foldl_unterminated isQuote text
    have shape : quoted quote text = unterminated quote text ++ [quote] := rfl
    rw [shape, List.foldl_append, opened]
    simp [quoteAfter]
  | @symbol c isSymbol =>
    exact foldl_quoteAfter_of_no_quotes (by simp [(isQuote_of_isSymbol isSymbol).1])
  | @operator c starts =>
    have isSymbol := isSymbol_of_startsOperator starts
    refine foldl_quoteAfter_of_no_quotes ?_
    simp [(isQuote_of_isSymbol isSymbol).1, show isQuote '=' = false from rfl]

/-- So do several. -/
theorem Lexemes.foldl_quoteAfter {tokens : List Token} (lexemes : Lexemes tokens) :
    tokens.flatten.foldl quoteAfter none = none := by
  induction tokens with
  | nil => rfl
  | cons token tokens ih =>
    obtain ⟨lexeme, later⟩ := lexemes_cons.mp lexemes
    rw [List.flatten_cons, List.foldl_append, lexeme.foldl_quoteAfter]
    exact ih later

/-- A statement with closed quotes has no literal without its closing quote. -/
theorem lexemes_tokenize {sql : List Char} (closed : QuotesClosed sql) :
    Lexemes (tokenize sql) := by
  obtain ⟨flat, lexemes, last, shape, each, ends⟩ := tokenize_lossless sql
  rcases ends with rfl | ⟨quote, text, isQuote, rfl⟩
  · rw [shape, List.append_nil]
    exact each
  · have states := congrArg (fun text => text.foldl quoteAfter none) flat
    have front : lexemes.flatten.foldl quoteAfter none = none := Lexemes.foldl_quoteAfter each
    simp only [foldl_withoutSpace, shape, List.flatten_append, List.foldl_append, front,
      List.flatten_singleton, foldl_unterminated isQuote] at states
    rw [QuotesClosed, ← states] at closed
    cases closed

/-! ## Lists with commas -/

/-- The tokens of a list: its elements with a comma between every two. -/
def separated : List Token → List Token
  | [] => []
  | first :: others => listTokens first others

theorem separated_cons_cons (first second : Token) (others : List Token) :
    separated (first :: second :: others) = first :: [','] :: separated (second :: others) := rfl

/-- A list that is joined with commas is read as its tokens. -/
theorem lex_joinComma {list : List Token} (lexemes : Lexemes list) {text : List Char}
    (ends : ∀ c ∈ text.head?, c = ' ') :
    lex (joinComma list ++ text) [] none = separated list ++ lex text [] none := by
  induction list with
  | nil => rfl
  | cons first others ih =>
    obtain ⟨lexeme, later⟩ := lexemes_cons.mp lexemes
    cases others with
    | nil =>
      have separate : apart first text.head? = true := by
        cases head : text.head? with
        | none => exact apart_none first
        | some c =>
          rw [ends c head]
          exact lexeme.apart_of_not_plain rfl rfl (by decide)
      rw [joinComma, List.intercalate_singleton, lex_lexeme lexeme separate]
      rfl
    | cons second others =>
      have step := ih later
      rw [joinComma] at step ⊢
      rw [List.intercalate_cons_cons, List.append_assoc, List.append_assoc, lex_lexeme lexeme,
        List.singleton_append, lex_comma, step, separated_cons_cons]
      · rfl
      · exact lexeme.apart_of_not_plain rfl rfl (by decide)

/-- Lists that are written one after another with spaces are read as their tokens. -/
theorem lex_lists {lists : List (List Token)} (lexemes : ∀ list ∈ lists, Lexemes list) :
    lex ([' '].intercalate (lists.map joinComma)) [] none = lists.flatMap separated := by
  induction lists with
  | nil => rfl
  | cons list lists ih =>
    obtain ⟨here, later⟩ := List.forall_mem_cons.mp lexemes
    have rest := ih later
    cases lists with
    | nil =>
      have alone := lex_joinComma here (show ∀ c ∈ ([] : List Char).head?, c = ' ' by simp)
      rw [List.append_nil] at alone
      rw [List.map_singleton, List.intercalate_singleton, alone, List.flatMap_singleton]
      exact List.append_nil _
    | cons next lists =>
      simp only [List.map_cons] at rest ⊢
      rw [List.intercalate_cons_cons, List.append_assoc, lex_joinComma here,
        List.singleton_append, lex_space rfl, rest, List.flatMap_cons]
      · rfl
      · simp

/-! ## What the list parsers collect -/

/-- What is left is no comma. -/
theorem mem_withoutCommas {token : Token} {tokens : List Token}
    (member : token ∈ withoutCommas tokens) : token ∈ tokens ∧ token ≠ [','] := by
  simpa [withoutCommas] using member

/-- What a column list can hold: anything but a comma and what ends the list. -/
def IsColumn (token : Token) : Prop := endsColumns token = false ∧ token ≠ [',']

/-- What a value list can hold. -/
def IsValue (token : Token) : Prop := token ≠ [')'] ∧ token ≠ [',']

/-- What the column definitions can name. -/
def IsDefined (token : Token) : Prop := IsValue token ∧ isTypeKeyword token = false

/-- What is read as a column can be printed as one. -/
theorem isColumn_of_columnsIn {rest : List Token} :
    ∀ column ∈ (columnsIn rest).1, IsColumn column := by
  intro column member
  obtain ⟨inside, notComma⟩ := mem_withoutCommas member
  exact ⟨by simpa using List.mem_takeWhile_imp inside, notComma⟩

/-- So can each column of a list. -/
theorem isColumn_of_columnList {rest : List Token} :
    ∀ column ∈ (columnList rest).1, IsColumn column := by
  cases rest with
  | nil => simp [columnList]
  | cons first rest =>
    rw [columnList]
    split
    · intro column member
      obtain rfl := List.mem_singleton.mp member
      exact ⟨by decide, by decide⟩
    · split
      · exact isColumn_of_columnsIn
      · exact isColumn_of_columnsIn

/-- What is read as a value can be printed as one. -/
theorem isValue_of_valueList {rest : List Token} : ∀ value ∈ (valueList rest).1, IsValue value := by
  intro value member
  obtain ⟨inside, notComma⟩ := mem_withoutCommas member
  exact ⟨by simpa using List.mem_takeWhile_imp inside, notComma⟩

/-- The name of a defined column can be printed as one. -/
theorem Definitions.isDefined {rest columns stop : List Token}
    (definitions : Definitions rest columns stop) : ∀ column ∈ columns, IsDefined column := by
  induction definitions with
  | atEnd => simp
  | close rest => simp
  | comma _ ih => exact ih
  | sized _ _ ih => exact ih
  | keyword _ _ _ ih => exact ih
  | name notClose notComma notKeyword _ ih =>
    exact List.forall_mem_cons.mpr ⟨⟨⟨notClose, notComma⟩, notKeyword⟩, ih⟩

/-! ## Separated lists are collected again -/

/-- Commas put in are taken out. -/
theorem withoutCommas_separated {list : List Token} (noCommas : ∀ token ∈ list, token ≠ [',']) :
    withoutCommas (separated list) = list := by
  cases list with
  | nil => rfl
  | cons first others =>
    obtain ⟨head, tail⟩ := List.forall_mem_cons.mp noCommas
    exact withoutCommas_listTokens head tail

/-- Only commas are put in. -/
theorem mem_separated {token : Token} {list : List Token} (member : token ∈ separated list) :
    token ∈ list ∨ token = [','] := by
  cases list with
  | nil => cases member
  | cons first others =>
    rcases mem_listTokens member with rfl | later | comma
    · exact .inl List.mem_cons_self
    · exact .inl (List.mem_cons_of_mem _ later)
    · exact .inr comma

/-- A printed list of columns is read as it is. -/
theorem columnsIn_separated {columns : List Token} (each : ∀ column ∈ columns, IsColumn column)
    {stop : Token} (stopped : endsColumns stop = true) (rest : List Token) :
    columnsIn (separated columns ++ stop :: rest) = (columns, dropClose (stop :: rest)) := by
  rw [columnsIn_stop _ stopped, withoutCommas_separated fun column member => (each column member).2]
  intro token member
  rcases mem_separated member with column | rfl
  · exact (each token column).1
  · decide

/-- A printed list of values is read as it is. -/
theorem valueList_separated {values : List Token} (each : ∀ value ∈ values, IsValue value)
    (rest : List Token) :
    valueList ("VALUES".toList :: ['('] :: (separated values ++ [')'] :: rest)) = (values, rest) := by
  have inside : ∀ token ∈ separated values, decide (token ≠ [')']) = true := by
    intro token member
    rcases mem_separated member with value | rfl
    · exact decide_eq_true (each token value).1
    · decide
  have skipped : valueList ("VALUES".toList :: ['('] :: (separated values ++ [')'] :: rest)) =
      valuesIn (separated values ++ [')'] :: rest) := rfl
  rw [skipped, valuesIn, List.takeWhile_append_of_pos inside, List.dropWhile_append_of_pos inside,
    List.takeWhile_cons_of_neg (by simp), List.dropWhile_cons_of_neg (by simp), List.append_nil,
    withoutCommas_separated fun value member => (each value member).2]
  simp [dropClose]

/-- Printed column definitions are read as they are. -/
theorem definitions_separated {columns : List Token} (each : ∀ column ∈ columns, IsDefined column)
    (rest : List Token) :
    Definitions (separated columns ++ [')'] :: rest) columns ([')'] :: rest) := by
  induction columns with
  | nil => exact .close rest
  | cons first others ih =>
    obtain ⟨⟨⟨notClose, notComma⟩, notKeyword⟩, later⟩ := List.forall_mem_cons.mp each
    have definitions := ih later
    cases others with
    | nil => exact .name notClose notComma notKeyword definitions
    | cons second others => exact .name notClose notComma notKeyword (.comma definitions)

/-! ## Writing a result -/

namespace ParseResult

/-- The text of an attribute. -/
def text (result : ParseResult) (key : Attribute) : List Char := (result.attributes key).getD []

/-- The optional column list of an `INSERT`. -/
def columnParts (result : ParseResult) : List (List Char) :=
  match result.attributes .columns with
  | none => []
  | some columns => [['('], columns, [')']]

/-- The optional `WHERE` clause. -/
def whereParts (result : ParseResult) : List (List Char) :=
  match result.attributes .whereColumn with
  | none => []
  | some column => ["WHERE".toList, column, result.text .whereOperator, result.text .whereValue]

/-- The parts of the normal form. -/
def parts (result : ParseResult) : List (List Char) :=
  match result.type with
  | .select =>
    ["SELECT".toList, ['('], result.text .columns, [')'], "FROM".toList, result.text .table] ++
      result.whereParts
  | .insert =>
    ["INSERT".toList, "INTO".toList, result.text .table] ++ result.columnParts ++
      ["VALUES".toList, ['('], result.text .values, [')']]
  | .update =>
    ["UPDATE".toList, result.text .table, "SET".toList, result.text .setColumn, ['='],
      result.text .setValue] ++ result.whereParts
  | .delete => ["DELETE".toList, "FROM".toList, result.text .table] ++ result.whereParts
  | .createTable =>
    ["CREATE".toList, "TABLE".toList, result.text .table, ['('], result.text .columns, [')']]
  | .unknown => []

/-- The statement that the attributes are written as. -/
def normalForm (result : ParseResult) : List Char := [' '].intercalate result.parts

end ParseResult

/-! ## The normal form is accepted -/

/-- The lists are written as these parts. -/
structure Writes (lists : List (List Token)) (parts : List (List Char)) : Prop where
  texts : lists.map joinComma = parts
  lexemes : ∀ list ∈ lists, Lexemes list

namespace Writes

variable {lists more : List (List Token)} {parts others : List (List Char)}

theorem nil : Writes [] [] := ⟨rfl, by simp⟩

/-- A list is written as one part. -/
theorem list {list : List Token} (lexemes : Lexemes list) (later : Writes lists parts) :
    Writes (list :: lists) (joinComma list :: parts) :=
  ⟨by rw [List.map_cons, later.texts], List.forall_mem_cons.mpr ⟨lexemes, later.lexemes⟩⟩

/-- A token is written as it is. -/
theorem token {token : Token} (lexeme : Lexeme token) (later : Writes lists parts) :
    Writes ([token] :: lists) (token :: parts) := by
  have single : joinComma [token] = token := List.intercalate_singleton
  simpa only [single] using later.list (lexemes_cons.mpr ⟨lexeme, lexemes_nil⟩)

/-- What is written is read as the tokens of the lists. -/
theorem tokenize_eq (writes : Writes lists parts) :
    tokenize ([' '].intercalate parts) = lists.flatMap separated := by
  rw [tokenize_eq_lex, ← writes.texts, lex_lists writes.lexemes]

end Writes

/-- Some of the tokens. -/
theorem Lexemes.sublist {tokens list : List Token} (lexemes : Lexemes tokens)
    (part : list.Sublist tokens) : Lexemes list :=
  fun token member => lexemes token (part.subset member)

/-- What is left behind a list of columns was there before. -/
theorem columnList_after_sublist (rest : List Token) : (columnList rest).2.Sublist rest := by
  cases rest with
  | nil => exact List.Sublist.refl _
  | cons first rest =>
    rw [columnList]
    split
    · exact List.sublist_cons_self first rest
    · split
      · exact (columnsIn_after_sublist rest).trans (List.sublist_cons_self first rest)
      · exact columnsIn_after_sublist (first :: rest)

/-- A WHERE clause leaves the type of the statement. -/
theorem WhereClause.type_eq {result final : ParseResult} {tail after : List Token}
    (clause : WhereClause result tail final after) : final.type = result.type := by
  cases clause with
  | absent noWhere => rfl
  | comparison after isWhere => rfl

/-- A clause that was read is written and read again. -/
theorem WhereClause.again {result final : ParseResult} {tail after : List Token}
    (clause : WhereClause result tail final after)
    (fresh : result.attributes .whereColumn = none) (lexemes : Lexemes tail) :
    ∃ lists, Writes lists final.whereParts ∧
      WhereClause result (lists.flatMap separated) final [] := by
  cases clause with
  | absent noWhere =>
    refine ⟨[], ?_, .absent (by simp)⟩
    rw [ParseResult.whereParts, fresh]
    exact .nil
  | @comparison keyword column op value after isWhere =>
    simp only [lexemes_cons] at lexemes
    obtain ⟨-, columnLexeme, opLexeme, valueLexeme, -⟩ := lexemes
    have keywordLexeme : Lexeme "WHERE".toList := .word (by decide) (by decide)
    exact ⟨[["WHERE".toList], [column], [op], [value]],
      .token keywordLexeme (.token columnLexeme (.token opLexeme (.token valueLexeme .nil))),
      .comparison [] rfl⟩

/-- The clause is written after the other parts. -/
theorem WhereClause.parts_eq {result final : ParseResult} {tail after : List Token}
    (clause : WhereClause result tail final after)
    (fresh : result.attributes .whereColumn = none)
    (filtered : result.type = .select ∨ result.type = .update ∨ result.type = .delete) :
    final.parts = result.parts ++ final.whereParts := by
  have bare : result.whereParts = [] := by rw [ParseResult.whereParts, fresh]
  have kept : ∀ key ∈ [Attribute.columns, .table, .setColumn, .setValue],
      final.attributes key = result.attributes key := by
    intro key member
    refine clause.attribute_eq ?_
    revert key
    decide
  simp only [List.forall_mem_cons] at kept
  obtain ⟨columns, table, setColumn, setValue, -⟩ := kept
  rcases filtered with isSelect | isUpdate | isDelete
  · simp [ParseResult.parts, ParseResult.text, clause.type_eq, isSelect, bare, columns, table]
  · simp [ParseResult.parts, ParseResult.text, clause.type_eq, isUpdate, bare, table, setColumn,
      setValue]
  · simp [ParseResult.parts, ParseResult.text, clause.type_eq, isDelete, bare, table]

/-- Both forms of `DELETE` are written with `FROM`. -/
theorem WhereClause.delete_again {table : Token} {tail after : List Token} {result : ParseResult}
    (clause : WhereClause ((ParseResult.start .delete).set .table table) tail result after)
    (named : table ≠ []) (tableLexeme : Lexeme table) (tailLexemes : Lexemes tail) :
    ∃ lists, Writes lists result.parts ∧ Parses (lists.flatMap separated) result [] := by
  obtain ⟨lists, writes, again⟩ := clause.again rfl tailLexemes
  refine ⟨["DELETE".toList] :: ["FROM".toList] :: [table] :: lists, ?_,
    .deleteFrom rfl rfl named again⟩
  rw [clause.parts_eq rfl (.inr (.inr rfl))]
  exact .token (lexeme_keyword (by decide)) (.token (lexeme_keyword (by decide))
    (.token tableLexeme writes))

/-- An accepted statement can be written as lists that are parsed to its result. -/
theorem Parses.again {tokens after : List Token} {result : ParseResult}
    (parses : Parses tokens result after) (lexemes : Lexemes tokens) :
    ∃ lists, Writes lists result.parts ∧ Parses (lists.flatMap separated) result [] := by
  cases parses with
  | @select keyword source table rest columns tail after result isSelect list listed isFrom named
      clause =>
    obtain ⟨-, restLexemes⟩ := lexemes_cons.mp lexemes
    have left := restLexemes.sublist (columnList_after_sublist rest)
    have taken := restLexemes.sublist (takenFrom_columnList rest).part
    have each := @isColumn_of_columnList rest
    rw [list] at left taken each
    simp only [lexemes_cons] at left
    obtain ⟨-, tableLexeme, tailLexemes⟩ := left
    obtain ⟨lists, writes, again⟩ := clause.again rfl tailLexemes
    have read : columnList (['('] :: (separated columns ++ [')'] :: "FROM".toList :: table ::
        lists.flatMap separated)) = (columns, "FROM".toList :: table :: lists.flatMap separated) :=
      columnsIn_separated each (by decide) _
    refine ⟨["SELECT".toList] :: [['(']] :: columns :: [[')']] :: ["FROM".toList] :: [table] ::
      lists, ?_, .select rfl read listed rfl named again⟩
    rw [clause.parts_eq rfl (.inl rfl)]
    exact .token (lexeme_keyword (by decide)) (.token lexeme_open (.list taken
      (.token lexeme_close (.token (lexeme_keyword (by decide)) (.token tableLexeme writes)))))
  | @insert keyword into table rest values after isInsert isInto named noColumns more list listed =>
    simp only [lexemes_cons] at lexemes
    obtain ⟨-, -, tableLexeme, restLexemes⟩ := lexemes
    have taken := restLexemes.sublist (takenFrom_valueList rest).part
    have each := @isValue_of_valueList rest
    rw [list] at taken each
    refine ⟨[["INSERT".toList], ["INTO".toList], [table], ["VALUES".toList], [['(']], values,
      [[')']]], ?_, ?_⟩
    · exact .token (lexeme_keyword (by decide)) (.token (lexeme_keyword (by decide))
        (.token tableLexeme (.token (lexeme_keyword (by decide)) (.token lexeme_open
          (.list taken (.token lexeme_close .nil))))))
    · exact .insert rfl rfl named (head?_ne_open (by decide) _) (List.cons_ne_nil _ _)
        (valueList_separated each []) listed
  | @insertColumns keyword into table rest columns middle values after isInsert isInto named
      columnsRead more list listed =>
    simp only [lexemes_cons] at lexemes
    obtain ⟨-, -, tableLexeme, -, restLexemes⟩ := lexemes
    have middleLexemes := restLexemes.sublist (columnsIn_after_sublist rest)
    have columnsTaken := restLexemes.sublist (takenFrom_columnsIn rest).part
    have eachColumn := @isColumn_of_columnsIn rest
    rw [columnsRead] at middleLexemes columnsTaken eachColumn
    have valuesTaken := middleLexemes.sublist (takenFrom_valueList middle).part
    have eachValue := @isValue_of_valueList middle
    rw [list] at valuesTaken eachValue
    refine ⟨[["INSERT".toList], ["INTO".toList], [table], [['(']], columns, [[')']],
      ["VALUES".toList], [['(']], values, [[')']]], ?_, ?_⟩
    · exact .token (lexeme_keyword (by decide)) (.token (lexeme_keyword (by decide))
        (.token tableLexeme (.token lexeme_open (.list columnsTaken (.token lexeme_close
          (.token (lexeme_keyword (by decide)) (.token lexeme_open
            (.list valuesTaken (.token lexeme_close .nil)))))))))
    · exact .insertColumns rfl rfl named (columnsIn_separated eachColumn (by decide) _)
        (List.cons_ne_nil _ _) (valueList_separated eachValue []) listed
  | @update keyword table set column value tail after result isUpdate named isSet clause =>
    simp only [lexemes_cons] at lexemes
    obtain ⟨-, tableLexeme, -, columnLexeme, equalLexeme, valueLexeme, tailLexemes⟩ := lexemes
    obtain ⟨lists, writes, again⟩ := clause.again rfl tailLexemes
    refine ⟨["UPDATE".toList] :: [table] :: ["SET".toList] :: [column] :: [['=']] :: [value] ::
      lists, ?_, .update rfl named rfl again⟩
    rw [clause.parts_eq rfl (.inr (.inl rfl))]
    exact .token (lexeme_keyword (by decide)) (.token tableLexeme (.token (lexeme_keyword
      (by decide)) (.token columnLexeme (.token equalLexeme (.token valueLexeme writes)))))
  | deleteFrom isDelete isFrom named clause =>
    simp only [lexemes_cons] at lexemes
    obtain ⟨-, -, tableLexeme, tailLexemes⟩ := lexemes
    exact clause.delete_again named tableLexeme tailLexemes
  | delete isDelete notFrom named clause =>
    simp only [lexemes_cons] at lexemes
    obtain ⟨-, tableLexeme, tailLexemes⟩ := lexemes
    exact clause.delete_again named tableLexeme tailLexemes
  | @createTable keyword kind table rest columns stop isCreate isTable named definitions listed =>
    simp only [lexemes_cons] at lexemes
    obtain ⟨-, -, tableLexeme, -, restLexemes⟩ := lexemes
    have taken := restLexemes.sublist definitions.takenFrom.part
    refine ⟨[["CREATE".toList], ["TABLE".toList], [table], [['(']], columns, [[')']]], ?_, ?_⟩
    · exact .token (lexeme_keyword (by decide)) (.token (lexeme_keyword (by decide))
        (.token tableLexeme (.token lexeme_open (.list taken (.token lexeme_close .nil)))))
    · exact .createTable rfl rfl named (definitions_separated definitions.isDefined []) listed

/-- The normal form of an accepted statement whose quotes are closed is accepted with
the same type and attributes, and read to its end. -/
theorem normalForm_accepted {sql : List Char} {result : ParseResult}
    (parsed : parseQuery sql = some result) (accepted : result.success = true)
    (closed : QuotesClosed sql) :
    parseQuery result.normalForm = some { result with tokens := tokenize result.normalForm } ∧
      unread result.normalForm = some [] := by
  obtain ⟨⟨final, stop⟩, statement, rfl⟩ := Option.map_eq_some_iff.mp parsed
  obtain ⟨after, parses, -⟩ := parses_of_success statement accepted
  obtain ⟨lists, writes, again⟩ := parses.again (lexemes_tokenize closed)
  obtain ⟨last, read, located⟩ := parseStatement_of_parses again
  rw [← writes.tokenize_eq] at read located
  exact ⟨congrArg (Option.map _) read, (congrArg (Option.map _) read).trans
    (congrArg some located.2)⟩

/-- A column that is a literal with a comma, and a second comparison that is not read. -/
theorem normalForm_accepted_select :
    ∃ result, parseQuery "select name, 'a,b' from t where id>=3 and name = 1".toList =
        some result ∧
      result.normalForm = "SELECT ( name,'a,b' ) FROM t WHERE id >= 3".toList ∧
      parseQuery result.normalForm =
        some { result with tokens := tokenize result.normalForm } ∧
      unread result.normalForm = some [] := by
  obtain ⟨result, parsed, accepted⟩ :
      Accepted "select name, 'a,b' from t where id>=3 and name = 1".toList :=
    (accepted_iff _).mpr (by decide +kernel)
  have written : (parseQuery "select name, 'a,b' from t where id>=3 and name = 1".toList).map
      ParseResult.normalForm =
        some "SELECT ( name,'a,b' ) FROM t WHERE id >= 3".toList := by decide +kernel
  rw [parsed] at written
  exact ⟨result, parsed, Option.some.inj written,
    normalForm_accepted parsed accepted (by decide +kernel)⟩

end MiniDB.Parser
