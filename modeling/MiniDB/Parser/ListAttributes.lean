import MiniDB.Parser.Remainder
import MiniDB.Parser.TokenStream

/-!
# List attributes are lossless

An accepted statement stores the lists it collected joined with commas. A list
is a part of the token stream without its commas, so a comma after an element
always ends it for the tokenizer, and the text is read back as the list.
-/

namespace MiniDB.Parser

/-- The columns that `ParseColumnList` or the loop of `ParseCreateTable` collects,
run where the statement parser of these tokens runs it. -/
def collectedColumns (tokens : List Token) : Option (List Token) :=
  let keyword := (tokens.head?).map toUpper
  if keyword = some "SELECT".toList then
    (parseColumnList tokens 1).map Prod.fst
  else if keyword = some "INSERT".toList then
    if tokens[3]? = some ['('] then (parseColumnList tokens 3).map Prod.fst else none
  else if keyword = some "CREATE".toList then
    (definitionLoop tokens (tokens.length - 4 + 1) 4 []).map Prod.fst
  else
    none

/-- The values that `ParseValueList` collects for an `INSERT`. -/
def collectedValues (tokens : List Token) : Option (List Token) :=
  if (tokens.head?).map toUpper = some "INSERT".toList then
    if tokens[3]? = some ['('] then
      (parseColumnList tokens 3).bind fun columns => (parseValueList tokens columns.2).map Prod.fst
    else
      (parseValueList tokens 3).map Prod.fst
  else
    none

/-- The text of a list attribute, tokenized again and without its commas. -/
def readBack (text : Token) : List Token := withoutCommas (tokenize text)

/-! ## Reading a joined list -/

/-- A part of a token stream is one. -/
theorem TokenStream.sublist {tokens list : List Token} (stream : TokenStream tokens)
    (part : list.Sublist tokens) : TokenStream list := by
  obtain ⟨lexemes, last, rfl, each, ends⟩ := stream
  obtain ⟨front, back, rfl, frontPart, backPart⟩ := List.sublist_append_iff.mp part
  refine ⟨front, back, rfl, fun token member => each token (frontPart.subset member), ?_⟩
  rcases ends with rfl | ⟨quote, text, isQuote, rfl⟩
  · exact .inl (List.sublist_nil.mp backPart)
  · rcases List.sublist_cons_iff.mp backPart with nothing | ⟨beyond, rfl, nothing⟩
    · exact .inl (List.sublist_nil.mp nothing)
    · obtain rfl := List.sublist_nil.mp nothing
      exact .inr ⟨quote, text, isQuote, rfl⟩

/-- A comma is a token by itself. -/
theorem lex_comma (text : List Char) : lex (',' :: text) [] none = [','] :: lex text [] none :=
  lex_symbol rfl (fun _ _ => rfl) []

theorem withoutCommas_of_not_mem {tokens : List Token} (noCommas : [','] ∉ tokens) :
    withoutCommas tokens = tokens := by
  refine List.filter_eq_self.mpr fun token member => decide_eq_true ?_
  rintro rfl
  exact noCommas member

/-- A stream that holds no comma is read back from its joined text. -/
theorem TokenStream.readBack_joinComma {list : List Token} (stream : TokenStream list)
    (noCommas : [','] ∉ list) : readBack (joinComma list) = list := by
  rw [readBack, tokenize_eq_lex, joinComma]
  obtain ⟨lexemes, last, rfl, each, ends⟩ := stream
  induction lexemes with
  | nil =>
    rcases ends with rfl | ⟨quote, text, isQuote, rfl⟩
    · rfl
    · rw [List.nil_append] at noCommas ⊢
      rw [List.intercalate_singleton, lex_unterminated isQuote, withoutCommas_of_not_mem noCommas]
  | cons token lexemes ih =>
    obtain ⟨lexeme, later⟩ := List.forall_mem_cons.mp each
    rw [List.cons_append] at noCommas ⊢
    obtain ⟨notComma, noCommasLater⟩ := not_or.mp (List.mem_cons.not.mp noCommas)
    have rest := ih noCommasLater later
    cases following : lexemes ++ last with
    | nil =>
      have alone := @lex_lexeme token lexeme [] (apart_none token)
      rw [List.append_nil] at alone
      rw [following] at noCommas
      rw [List.intercalate_singleton, alone]
      exact withoutCommas_of_not_mem noCommas
    | cons next beyond =>
      rw [following] at rest
      rw [List.intercalate_cons_cons, List.append_assoc, lex_lexeme lexeme, List.singleton_append,
        lex_comma]
      · unfold withoutCommas at rest ⊢
        rw [List.filter_cons_of_pos (by simpa using Ne.symm notComma),
          List.filter_cons_of_neg (by simp), rest]
      · exact lexeme.apart_of_not_plain rfl rfl (by decide)

/-! ## The collected lists -/

/-- A list taken out of the tokens, without commas. -/
structure TakenFrom (tokens list : List Token) : Prop where
  part : list.Sublist tokens
  noCommas : [','] ∉ list

/-- What is taken from some of the tokens is taken from all of them. -/
theorem TakenFrom.mono {tokens more list : List Token} (taken : TakenFrom tokens list)
    (part : tokens.Sublist more) : TakenFrom more list :=
  ⟨taken.part.trans part, taken.noCommas⟩

/-- Tokens without their commas. -/
theorem takenFrom_withoutCommas {tokens list : List Token} (part : list.Sublist tokens) :
    TakenFrom tokens (withoutCommas list) where
  part := List.filter_sublist.trans part
  noCommas := by simp [withoutCommas]

/-- Columns are tokens of the statement, in its order. -/
theorem takenFrom_columnsIn (rest : List Token) : TakenFrom rest (columnsIn rest).1 :=
  takenFrom_withoutCommas (List.takeWhile_sublist _)

/-- So are those of a list. -/
theorem takenFrom_columnList (rest : List Token) : TakenFrom rest (columnList rest).1 := by
  cases rest with
  | nil => exact ⟨List.Sublist.refl _, List.not_mem_nil⟩
  | cons first rest =>
    rw [columnList]
    split
    · next star =>
      subst star
      exact ⟨(List.nil_sublist rest).cons_cons _, show [','] ∉ [['*']] by decide⟩
    · split
      · exact (takenFrom_columnsIn rest).mono (List.sublist_cons_self first rest)
      · exact takenFrom_columnsIn (first :: rest)

/-- So are values. -/
theorem takenFrom_valueList (rest : List Token) : TakenFrom rest (valueList rest).1 :=
  takenFrom_withoutCommas (((List.takeWhile_sublist _).trans (dropIf_sublist _ _)).trans
    (dropIf_sublist _ _))

theorem afterClose_sublist (rest : List Token) : (afterClose rest).Sublist rest :=
  (List.tail_sublist _).trans (List.dropWhile_sublist _)

/-- So are the names of defined columns. -/
theorem Definitions.takenFrom {rest columns stop : List Token}
    (definitions : Definitions rest columns stop) : TakenFrom rest columns := by
  induction definitions with
  | atEnd => exact ⟨List.Sublist.refl _, List.not_mem_nil⟩
  | close rest => exact ⟨List.nil_sublist _, List.not_mem_nil⟩
  | comma _ ih => exact ih.mono (List.sublist_cons_self _ _)
  | sized _ _ ih =>
    exact ih.mono ((afterClose_sublist _).trans
      ((List.sublist_cons_self _ _).trans (List.sublist_cons_self _ _)))
  | keyword _ _ _ ih => exact ih.mono (List.sublist_cons_self _ _)
  | name _ notComma _ _ ih =>
    exact ⟨ih.part.cons_cons _,
      List.mem_cons.not.mpr (not_or.mpr ⟨Ne.symm notComma, ih.noCommas⟩)⟩

/-! ## The attributes of an accepted statement -/

/-- The `WHERE` clause writes its own attributes. -/
theorem WhereClause.attribute_eq {result final : ParseResult} {tail after : List Token}
    (clause : WhereClause result tail final after) {key : Attribute}
    (other : key ∉ [Attribute.whereColumn, .whereOperator, .whereValue]) :
    final.attributes key = result.attributes key := by
  cases clause with
  | absent noWhere => rfl
  | comparison after isWhere =>
    simp only [List.mem_cons, List.not_mem_nil, or_false, not_or] at other
    simp [ParseResult.set, other]

section Collected

variable {keyword into table kind : Token} {rest columns stop : List Token}

/-- The columns of a SELECT. -/
theorem collectedColumns_select (isSelect : toUpper keyword = "SELECT".toList) :
    collectedColumns (keyword :: rest) = some (columnList rest).1 := by
  obtain ⟨next, read, -⟩ := parseColumnList_eq (At.start (keyword :: rest)).next
  unfold collectedColumns
  dsimp only
  rw [List.head?_cons, Option.map_some, isSelect, if_pos rfl, read, Option.map_some]

/-- The columns of an INSERT, if it has a list of them. -/
theorem collectedColumns_insert (isInsert : toUpper keyword = "INSERT".toList) :
    collectedColumns (keyword :: rest) =
      if (keyword :: rest)[3]? = some ['('] then
        (parseColumnList (keyword :: rest) 3).map Prod.fst
      else none := by
  unfold collectedColumns
  dsimp only
  rw [List.head?_cons, Option.map_some, isInsert, if_neg (by decide), if_pos rfl]

theorem collectedColumns_values (isInsert : toUpper keyword = "INSERT".toList)
    (noColumns : rest.head? ≠ some ['(']) :
    collectedColumns (keyword :: into :: table :: rest) = none := by
  have located := (At.start (keyword :: into :: table :: rest)).next.next.next
  have unopened : (keyword :: into :: table :: rest)[3]? ≠ some ['('] := by rwa [located.get?]
  rw [collectedColumns_insert isInsert, if_neg unopened]

/-- `ParseColumnList` behind the table name of an `INSERT`. -/
theorem parseColumnList_insert :
    ∃ middle, parseColumnList (keyword :: into :: table :: ['('] :: rest) 3 =
        some ((columnsIn rest).1, middle) ∧
      At (keyword :: into :: table :: ['('] :: rest) middle (columnsIn rest).2 := by
  have located := (At.start (keyword :: into :: table :: ['('] :: rest)).next.next.next
  obtain ⟨middle, read, locatedMiddle⟩ := parseColumnList_eq located
  rw [columnList, if_neg (by decide), if_pos rfl] at read locatedMiddle
  exact ⟨middle, read, locatedMiddle⟩

theorem collectedColumns_insertColumns (isInsert : toUpper keyword = "INSERT".toList) :
    collectedColumns (keyword :: into :: table :: ['('] :: rest) = some (columnsIn rest).1 := by
  obtain ⟨middle, read, -⟩ := @parseColumnList_insert keyword into table rest
  rw [collectedColumns_insert isInsert, if_pos (by rfl), read, Option.map_some]

/-- The columns of a CREATE TABLE. -/
theorem collectedColumns_createTable (isCreate : toUpper keyword = "CREATE".toList)
    (definitions : Definitions rest columns stop) :
    collectedColumns (keyword :: kind :: table :: ['('] :: rest) = some columns := by
  have located := (At.start (keyword :: kind :: table :: ['('] :: rest)).next.next.next.next
  obtain ⟨next, read, -⟩ := definitionLoop_eq definitions [] located (Nat.lt_succ_self rest.length)
  unfold collectedColumns
  dsimp only
  rw [List.head?_cons, Option.map_some, isCreate, if_neg (by decide), if_neg (by decide),
    if_pos rfl]
  exact congrArg (Option.map Prod.fst) read

/-- The values of an INSERT. -/
theorem collectedValues_insert (isInsert : toUpper keyword = "INSERT".toList) :
    collectedValues (keyword :: rest) =
      if (keyword :: rest)[3]? = some ['('] then
        (parseColumnList (keyword :: rest) 3).bind fun columns =>
          (parseValueList (keyword :: rest) columns.2).map Prod.fst
      else (parseValueList (keyword :: rest) 3).map Prod.fst := by
  unfold collectedValues
  rw [List.head?_cons, Option.map_some, isInsert, if_pos rfl]

theorem collectedValues_values (isInsert : toUpper keyword = "INSERT".toList)
    (noColumns : rest.head? ≠ some ['(']) :
    collectedValues (keyword :: into :: table :: rest) = some (valueList rest).1 := by
  have located := (At.start (keyword :: into :: table :: rest)).next.next.next
  have unopened : (keyword :: into :: table :: rest)[3]? ≠ some ['('] := by rwa [located.get?]
  obtain ⟨next, read, -⟩ := parseValueList_eq located
  rw [collectedValues_insert isInsert, if_neg unopened, read, Option.map_some]

theorem collectedValues_insertColumns (isInsert : toUpper keyword = "INSERT".toList) :
    collectedValues (keyword :: into :: table :: ['('] :: rest) =
      some (valueList (columnsIn rest).2).1 := by
  obtain ⟨middle, readColumns, locatedMiddle⟩ := @parseColumnList_insert keyword into table rest
  obtain ⟨next, read, -⟩ := parseValueList_eq locatedMiddle
  rw [collectedValues_insert isInsert, if_pos (by rfl), readColumns, Option.bind_some, read,
    Option.map_some]

end Collected

/-- What an accepted parse collected, and that its list attributes hold it. -/
structure Collects (tokens : List Token) (result : ParseResult) : Prop where
  columns : result.attributes .columns = (collectedColumns tokens).map joinComma
  values : result.attributes .values = (collectedValues tokens).map joinComma
  columnsTaken : ∀ list ∈ collectedColumns tokens, TakenFrom tokens list
  valuesTaken : ∀ list ∈ collectedValues tokens, TakenFrom tokens list

/-- A statement that stores no lists in front of its `WHERE` clause. -/
theorem WhereClause.collects_nothing {tokens tail after : List Token} {result final : ParseResult}
    (clause : WhereClause result tail final after) (noColumns : collectedColumns tokens = none)
    (noValues : collectedValues tokens = none) (columns : result.attributes .columns = none)
    (values : result.attributes .values = none) : Collects tokens final where
  columns := by rw [clause.attribute_eq (by decide), columns, noColumns, Option.map_none]
  values := by rw [clause.attribute_eq (by decide), values, noValues, Option.map_none]
  columnsTaken := by simp [noColumns]
  valuesTaken := by simp [noValues]

/-- Every accepted parse stores the lists that its parsers collected. -/
theorem collects_of_parses {tokens after : List Token} {result : ParseResult}
    (parses : Parses tokens result after) : Collects tokens result := by
  cases parses with
  | @select keyword source table rest columns tail after result isSelect list listed isFrom named
      clause =>
    have collected := @collectedColumns_select keyword rest isSelect
    have noValues : collectedValues (keyword :: rest) = none := by
      simp [collectedValues, isSelect]
    have taken := (takenFrom_columnList rest).mono (List.sublist_cons_self keyword rest)
    rw [list] at collected taken
    exact {
      columns := by
        rw [collected]
        exact clause.attribute_eq (by decide)
      values := by
        rw [noValues]
        exact clause.attribute_eq (by decide)
      columnsTaken := by simpa [collected] using taken
      valuesTaken := by simp [noValues] }
  | @insert keyword into table rest values after isInsert isInto named noColumns more list listed =>
    have noneCollected := @collectedColumns_values keyword into table rest isInsert noColumns
    have collected := @collectedValues_values keyword into table rest isInsert noColumns
    have taken := (takenFrom_valueList rest).mono
      (List.sublist_append_right [keyword, into, table] rest)
    rw [list] at collected taken
    exact {
      columns := by rw [noneCollected]; rfl
      values := by rw [collected]; rfl
      columnsTaken := by simp [noneCollected]
      valuesTaken := by simpa [collected] using taken }
  | @insertColumns keyword into table rest columns middle values after isInsert isInto named
      columnsRead more list listed =>
    have columnsCollected := @collectedColumns_insertColumns keyword into table rest isInsert
    have valuesCollected := @collectedValues_insertColumns keyword into table rest isInsert
    have inside := List.sublist_append_right [keyword, into, table, ['(']] rest
    have columnsTaken := (takenFrom_columnsIn rest).mono inside
    have valuesTaken := (takenFrom_valueList (columnsIn rest).2).mono
      ((columnsIn_after_sublist rest).trans inside)
    rw [columnsRead] at columnsCollected valuesCollected columnsTaken valuesTaken
    rw [list] at valuesCollected valuesTaken
    exact {
      columns := by rw [columnsCollected]; rfl
      values := by rw [valuesCollected]; rfl
      columnsTaken := by simpa [columnsCollected] using columnsTaken
      valuesTaken := by simpa [valuesCollected] using valuesTaken }
  | update isUpdate named isSet clause =>
    exact clause.collects_nothing (by simp [collectedColumns, isUpdate])
      (by simp [collectedValues, isUpdate]) rfl rfl
  | deleteFrom isDelete isFrom named clause =>
    exact clause.collects_nothing (by simp [collectedColumns, isDelete])
      (by simp [collectedValues, isDelete]) rfl rfl
  | delete isDelete notFrom named clause =>
    exact clause.collects_nothing (by simp [collectedColumns, isDelete])
      (by simp [collectedValues, isDelete]) rfl rfl
  | @createTable keyword kind table rest columns stop isCreate isTable named definitions listed =>
    have collected := @collectedColumns_createTable keyword table kind rest columns stop isCreate
      definitions
    have noValues : collectedValues (keyword :: kind :: table :: ['('] :: rest) = none := by
      simp [collectedValues, isCreate]
    have taken := definitions.takenFrom.mono
      (List.sublist_append_right [keyword, kind, table, ['(']] rest)
    exact {
      columns := by rw [collected]; rfl
      values := by rw [noValues]; rfl
      columnsTaken := by simpa [collected] using taken
      valuesTaken := by simp [noValues] }

/-- A list of tokens is read back from its attribute. -/
theorem TakenFrom.readBack_eq {sql : List Char} {list : List Token}
    (taken : TakenFrom (tokenize sql) list) : readBack (joinComma list) = list :=
  ((tokenize_lossless sql).2.sublist taken.part).readBack_joinComma taken.noCommas

/-- The attributes of an accepted statement are read back as the lists that its parsers
collected. -/
theorem Collects.readsBack {sql : List Char} {result : ParseResult}
    (collects : Collects (tokenize sql) result) :
    (result.attributes .columns).map readBack = collectedColumns (tokenize sql) ∧
      (result.attributes .values).map readBack = collectedValues (tokenize sql) := by
  constructor
  · rw [collects.columns]
    cases collected : collectedColumns (tokenize sql) with
    | none => rfl
    | some list => exact congrArg some (collects.columnsTaken list collected).readBack_eq
  · rw [collects.values]
    cases collected : collectedValues (tokenize sql) with
    | none => rfl
    | some list => exact congrArg some (collects.valuesTaken list collected).readBack_eq

/-- The attributes of an accepted statement are the lists that were collected. -/
theorem collects_of_accepted {sql : List Char} {result : ParseResult}
    (parsed : parseQuery sql = some result) (accepted : result.success = true) :
    Collects (tokenize sql) result := by
  obtain ⟨⟨final, stop⟩, statement, rfl⟩ := Option.map_eq_some_iff.mp parsed
  obtain ⟨after, parses, -⟩ := parses_of_success statement accepted
  obtain ⟨columns, values, columnsTaken, valuesTaken⟩ := collects_of_parses parses
  exact ⟨columns, values, columnsTaken, valuesTaken⟩

/-- The list attributes of an accepted statement, tokenized without their commas, are
the lists that its parsers collected; so two accepted statements with the same
attribute collected the same list. -/
theorem listAttributes_lossless {sql : List Char} {result : ParseResult}
    (parsed : parseQuery sql = some result) (accepted : result.success = true) :
    (result.attributes .columns).map readBack = collectedColumns (tokenize sql) ∧
      (result.attributes .values).map readBack = collectedValues (tokenize sql) ∧
      ∀ {sql' : List Char} {result' : ParseResult}, parseQuery sql' = some result' →
        result'.success = true →
        (result'.attributes .columns = result.attributes .columns →
          collectedColumns (tokenize sql') = collectedColumns (tokenize sql)) ∧
        (result'.attributes .values = result.attributes .values →
          collectedValues (tokenize sql') = collectedValues (tokenize sql)) := by
  obtain ⟨columns, values⟩ := (collects_of_accepted parsed accepted).readsBack
  refine ⟨columns, values, fun parsed' accepted' => ?_⟩
  obtain ⟨columns', values'⟩ := (collects_of_accepted parsed' accepted').readsBack
  refine ⟨fun same => ?_, fun same => ?_⟩
  · rw [← columns, ← columns', same]
  · rw [← values, ← values', same]

/-- Values with commas and quotes of their own, and a literal that is not closed. -/
theorem listAttributes_lossless_insert :
    ∃ result,
      parseQuery "INSERT INTO t (a) VALUES (\x27it\x27\x27s,\x27, (, <=, \x27,2".toList = some result ∧
        (result.attributes .columns).map readBack = some ["a".toList] ∧
        (result.attributes .values).map readBack =
          some ["\x27it\x27\x27s,\x27".toList, "(".toList, "<=".toList, "\x27,2".toList] := by
  obtain ⟨result, parsed, accepted⟩ :
      Accepted "INSERT INTO t (a) VALUES (\x27it\x27\x27s,\x27, (, <=, \x27,2".toList :=
    (accepted_iff _).mpr (by decide +kernel)
  obtain ⟨columns, values, -⟩ := listAttributes_lossless parsed accepted
  refine ⟨result, parsed, columns.trans ?_, values.trans ?_⟩
  · decide +kernel
  · decide +kernel

end MiniDB.Parser
