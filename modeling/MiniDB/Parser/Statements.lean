import MiniDB.Parser.Lists

/-!
# What the statement parsers accept

`Parses tokens result after` describes a successful parse without positions: the
shape of the tokens, the result, and the tokens that are left. It is exactly
what `parseStatement` computes when it succeeds (`parseStatement_of_parses` and
`parses_of_success`), so properties of accepted statements are properties of
`Parses`.
-/

namespace MiniDB.Parser

@[simp] theorem ParseResult.fail_success (result : ParseResult) (message : String) :
    (result.fail message).success = false := rfl

@[simp] theorem ParseResult.set_success (result : ParseResult) (key : Attribute) (value : Token) :
    (result.set key value).success = result.success := rfl

@[simp] theorem ParseResult.start_success (type : StatementType) :
    (ParseResult.start type).success = true := rfl

/-- The end of `SELECT`, `UPDATE` and `DELETE`: anything but `WHERE` is left
alone, and `WHERE` takes one comparison. -/
inductive WhereClause (result : ParseResult) : List Token → ParseResult → List Token → Prop where
  | absent {tail : List Token} (noWhere : ∀ token ∈ tail.head?, toUpper token ≠ "WHERE".toList) :
      WhereClause result tail result tail
  | comparison {keyword column op value : Token} (after : List Token)
      (isWhere : toUpper keyword = "WHERE".toList) :
      WhereClause result (keyword :: column :: op :: value :: after)
        (((result.set .whereColumn column).set .whereOperator op).set .whereValue value) after

/-- The accepted statements: the tokens, the result and the tokens left over. -/
inductive Parses : List Token → ParseResult → List Token → Prop where
  | select {keyword source table : Token} {rest columns tail after : List Token}
      {result : ParseResult} (isSelect : toUpper keyword = "SELECT".toList)
      (list : columnList rest = (columns, source :: table :: tail)) (listed : columns ≠ [])
      (isFrom : toUpper source = "FROM".toList) (named : table ≠ [])
      (clause : WhereClause (((ParseResult.start .select).set .columns (joinComma columns)).set
        .table table) tail result after) :
      Parses (keyword :: rest) result after
  | insert {keyword into table : Token} {rest values after : List Token}
      (isInsert : toUpper keyword = "INSERT".toList) (isInto : toUpper into = "INTO".toList)
      (named : table ≠ []) (noColumns : rest.head? ≠ some ['(']) (more : rest ≠ [])
      (list : valueList rest = (values, after)) (listed : values ≠ []) :
      Parses (keyword :: into :: table :: rest)
        (((ParseResult.start .insert).set .table table).set .values (joinComma values)) after
  | insertColumns {keyword into table : Token} {rest columns middle values after : List Token}
      (isInsert : toUpper keyword = "INSERT".toList) (isInto : toUpper into = "INTO".toList)
      (named : table ≠ []) (columnsRead : columnsIn rest = (columns, middle)) (more : middle ≠ [])
      (list : valueList middle = (values, after)) (listed : values ≠ []) :
      Parses (keyword :: into :: table :: ['('] :: rest)
        ((((ParseResult.start .insert).set .table table).set .columns (joinComma columns)).set
          .values (joinComma values)) after
  | update {keyword table set column value : Token} {tail after : List Token}
      {result : ParseResult} (isUpdate : toUpper keyword = "UPDATE".toList) (named : table ≠ [])
      (isSet : toUpper set = "SET".toList)
      (clause : WhereClause ((((ParseResult.start .update).set .table table).set .setColumn
        column).set .setValue value) tail result after) :
      Parses (keyword :: table :: set :: column :: ['='] :: value :: tail) result after
  | deleteFrom {keyword source table : Token} {tail after : List Token} {result : ParseResult}
      (isDelete : toUpper keyword = "DELETE".toList) (isFrom : toUpper source = "FROM".toList)
      (named : table ≠ [])
      (clause : WhereClause ((ParseResult.start .delete).set .table table) tail result after) :
      Parses (keyword :: source :: table :: tail) result after
  | delete {keyword table : Token} {tail after : List Token} {result : ParseResult}
      (isDelete : toUpper keyword = "DELETE".toList) (notFrom : toUpper table ≠ "FROM".toList)
      (named : table ≠ [])
      (clause : WhereClause ((ParseResult.start .delete).set .table table) tail result after) :
      Parses (keyword :: table :: tail) result after
  | createTable {keyword kind table : Token} {rest columns stop : List Token}
      (isCreate : toUpper keyword = "CREATE".toList) (isTable : toUpper kind = "TABLE".toList)
      (named : table ≠ []) (definitions : Definitions rest columns stop) (listed : columns ≠ []) :
      Parses (keyword :: kind :: table :: ['('] :: rest)
        (((ParseResult.start .createTable).set .table table).set .columns (joinComma columns))
        (dropClose stop)

variable {tokens tail after rest : List Token} {pos : Nat} {result final : ParseResult}

/-! ## From the description to the parsers -/

/-- A WHERE clause at the cursor is read with its attributes. -/
theorem parseOptionalWhere_of_clause (clause : WhereClause result tail final after)
    (located : At tokens pos tail) :
    ∃ stop, parseOptionalWhere tokens pos result = some (final, stop) ∧ At tokens stop after := by
  cases clause with
  | absent noWhere => exact ⟨pos, parseOptionalWhere_none located noWhere, located⟩
  | comparison after isWhere =>
    exact ⟨pos + 4, parseOptionalWhere_some located isWhere, located.next.next.next.next⟩

/-- The tokens of a SELECT are read with their attributes. -/
theorem parseSelect_of_clause {keyword source table : Token} {columns : List Token}
    (located : At tokens pos (keyword :: rest))
    (list : columnList rest = (columns, source :: table :: tail)) (listed : columns ≠ [])
    (isFrom : toUpper source = "FROM".toList) (named : table ≠ [])
    (clause : WhereClause (((ParseResult.start .select).set .columns (joinComma columns)).set
      .table table) tail final after) :
    ∃ stop, parseSelect tokens pos = some (final, stop) ∧ At tokens stop after := by
  obtain ⟨next, read, locatedNext⟩ := parseColumnList_eq located.next
  rw [list] at read locatedNext
  obtain ⟨stop, readWhere, locatedStop⟩ :=
    parseOptionalWhere_of_clause clause locatedNext.next.next
  refine ⟨stop, ?_, locatedStop⟩
  unfold parseSelect
  rw [read]
  simp only [Option.bind_eq_bind, Option.bind_some]
  rw [if_neg listed, if_neg locatedNext.not_end, locatedNext.get?_cons]
  simp only [Option.bind_some]
  rw [if_neg (by simpa using isFrom), parseTableName_cons locatedNext.next]
  simp only [Option.bind_some]
  rw [if_neg named]
  exact readWhere

/-- The tokens of an INSERT without a list of columns are read with their attributes. -/
theorem parseInsert_of_values {keyword into table : Token} {values : List Token}
    (located : At tokens pos (keyword :: into :: table :: rest))
    (isInto : toUpper into = "INTO".toList) (named : table ≠ [])
    (noColumns : rest.head? ≠ some ['(']) (more : rest ≠ [])
    (list : valueList rest = (values, after)) (listed : values ≠ []) :
    ∃ stop, parseInsert tokens pos = some
        (((ParseResult.start .insert).set .table table).set .values (joinComma values), stop) ∧
      At tokens stop after := by
  have locatedRest := located.next.next.next
  obtain ⟨stop, read, locatedStop⟩ := parseValueList_eq locatedRest
  rw [list] at read locatedStop
  refine ⟨stop, ?_, locatedStop⟩
  have notEnd : ¬ tokens.length ≤ pos + 1 + 1 + 1 := by
    obtain ⟨first, remaining, rfl⟩ := List.exists_cons_of_ne_nil more
    exact locatedRest.not_end
  unfold parseInsert
  rw [if_neg located.next.not_end, located.next.get?_cons]
  simp only [Option.bind_eq_bind, Option.bind_some]
  rw [if_neg (by simpa using isInto), parseTableName_cons located.next.next]
  simp only [Option.bind_some]
  rw [if_neg named, locatedRest.get?, if_neg noColumns]
  simp only [Option.pure_def, Option.bind_some]
  rw [if_neg notEnd, read]
  simp only [Option.bind_some]
  rw [if_neg listed]

/-- The tokens of an INSERT with a list of columns are read with their attributes. -/
theorem parseInsert_of_columns {keyword into table : Token} {columns middle values : List Token}
    (located : At tokens pos (keyword :: into :: table :: ['('] :: rest))
    (isInto : toUpper into = "INTO".toList) (named : table ≠ [])
    (columnsRead : columnsIn rest = (columns, middle)) (more : middle ≠ [])
    (list : valueList middle = (values, after)) (listed : values ≠ []) :
    ∃ stop, parseInsert tokens pos = some
        ((((ParseResult.start .insert).set .table table).set .columns (joinComma columns)).set
          .values (joinComma values), stop) ∧
      At tokens stop after := by
  have locatedOpen := located.next.next.next
  have columnsEq : columnList (['('] :: rest) = (columns, middle) := by
    simpa [columnList] using columnsRead
  obtain ⟨next, readColumns, locatedMiddle⟩ := parseColumnList_eq locatedOpen
  rw [columnsEq] at readColumns locatedMiddle
  obtain ⟨stop, read, locatedStop⟩ := parseValueList_eq locatedMiddle
  rw [list] at read locatedStop
  refine ⟨stop, ?_, locatedStop⟩
  have notEnd : ¬ tokens.length ≤ next := by
    obtain ⟨first, remaining, rfl⟩ := List.exists_cons_of_ne_nil more
    exact locatedMiddle.not_end
  unfold parseInsert
  rw [if_neg located.next.not_end, located.next.get?_cons]
  simp only [Option.bind_eq_bind, Option.bind_some]
  rw [if_neg (by simpa using isInto), parseTableName_cons located.next.next]
  simp only [Option.bind_some]
  rw [if_neg named, locatedOpen.get?_cons, if_pos rfl, readColumns]
  simp only [Option.pure_def, Option.bind_some]
  rw [if_neg notEnd, read]
  simp only [Option.bind_some]
  rw [if_neg listed]

/-- The tokens of an UPDATE are read with their attributes. -/
theorem parseUpdate_of_clause {keyword table set column value : Token}
    (located : At tokens pos (keyword :: table :: set :: column :: ['='] :: value :: tail))
    (named : table ≠ []) (isSet : toUpper set = "SET".toList)
    (clause : WhereClause ((((ParseResult.start .update).set .table table).set .setColumn
      column).set .setValue value) tail final after) :
    ∃ stop, parseUpdate tokens pos = some (final, stop) ∧ At tokens stop after := by
  have locatedSet := located.next.next
  have locatedColumn := locatedSet.next
  have locatedValue := locatedColumn.next.next
  obtain ⟨stop, readWhere, locatedStop⟩ := parseOptionalWhere_of_clause clause locatedValue.next
  refine ⟨stop, ?_, locatedStop⟩
  unfold parseUpdate
  rw [parseTableName_cons located.next]
  simp only [Option.bind_eq_bind, Option.bind_some]
  rw [if_neg named, if_neg locatedSet.not_end, locatedSet.get?_cons]
  simp only [Option.bind_some]
  rw [if_neg (by simpa using isSet), if_neg locatedColumn.not_end, locatedColumn.get?_cons]
  simp only [Option.bind_some]
  rw [locatedColumn.next.get?_cons, if_neg (by simp), if_neg locatedValue.not_end,
    locatedValue.get?_cons]
  exact readWhere

/-- The tokens of a DELETE are read with their attributes, FROM or none. -/
theorem parseDelete_of_clause {keyword table : Token}
    (located : At tokens pos (keyword :: rest))
    (body : (∃ source, toUpper source = "FROM".toList ∧ rest = source :: table :: tail) ∨
      (toUpper table ≠ "FROM".toList ∧ rest = table :: tail))
    (named : table ≠ [])
    (clause : WhereClause ((ParseResult.start .delete).set .table table) tail final after) :
    ∃ stop, parseDelete tokens pos = some (final, stop) ∧ At tokens stop after := by
  unfold parseDelete
  rcases body with ⟨source, isFrom, rfl⟩ | ⟨notFrom, rfl⟩
  · obtain ⟨stop, readWhere, locatedStop⟩ :=
      parseOptionalWhere_of_clause clause located.next.next.next
    refine ⟨stop, ?_, locatedStop⟩
    rw [if_neg located.next.not_end, located.next.get?_cons]
    simp only [Option.bind_eq_bind, Option.bind_some]
    rw [if_pos isFrom, parseTableName_cons located.next.next]
    simp only [Option.bind_some]
    rw [if_neg named]
    exact readWhere
  · obtain ⟨stop, readWhere, locatedStop⟩ :=
      parseOptionalWhere_of_clause clause located.next.next
    refine ⟨stop, ?_, locatedStop⟩
    rw [if_neg located.next.not_end, located.next.get?_cons]
    simp only [Option.bind_eq_bind, Option.bind_some]
    rw [if_neg notFrom, parseTableName_cons located.next]
    simp only [Option.bind_some]
    rw [if_neg named]
    exact readWhere

/-- Skipping an optional closing parenthesis is `dropClose`. -/
theorem At.dropClose (located : At tokens pos rest) :
    At tokens (if tokens[pos]? = some [')'] then pos + 1 else pos) (dropClose rest) := by
  rw [located.get?]
  cases rest with
  | nil => simpa [Parser.dropClose] using located
  | cons token rest =>
    by_cases close : token = [')']
    · simpa [Parser.dropClose, close] using located.next
    · simpa [Parser.dropClose, close] using located

/-- The tokens of a CREATE TABLE are read with their attributes. -/
theorem parseCreateTable_of_definitions {keyword kind table : Token} {columns stop : List Token}
    (located : At tokens pos (keyword :: kind :: table :: ['('] :: rest))
    (isTable : toUpper kind = "TABLE".toList) (named : table ≠ [])
    (definitions : Definitions rest columns stop) (listed : columns ≠ []) :
    ∃ after, parseCreateTable tokens pos = some
        (((ParseResult.start .createTable).set .table table).set .columns (joinComma columns),
          after) ∧
      At tokens after (dropClose stop) := by
  have locatedOpen := located.next.next.next
  have length := locatedOpen.next.length_eq
  obtain ⟨next, read, locatedNext⟩ :=
    definitionLoop_eq definitions [] locatedOpen.next
      (show rest.length < tokens.length - (pos + 1 + 1 + 1 + 1) + 1 by omega)
  refine ⟨_, ?_, locatedNext.dropClose⟩
  unfold parseCreateTable
  rw [if_neg located.next.not_end, located.next.get?_cons]
  simp only [Option.bind_eq_bind, Option.bind_some]
  rw [if_neg (by simpa using isTable), parseTableName_cons located.next.next]
  simp only [Option.bind_some]
  rw [if_neg named, locatedOpen.get?_cons, if_neg (by simp), read]
  simp only [Option.bind_some, List.nil_append]
  rw [if_neg listed]
  rfl

/-- Every described parse is what `parseStatement` computes. -/
theorem parseStatement_of_parses (parses : Parses tokens result after) :
    ∃ stop, parseStatement tokens = some (result, stop) ∧ At tokens stop after := by
  have located := At.start tokens
  cases parses with
  | select isSelect list listed isFrom named clause =>
    simp only [parseStatement, isSelect]
    exact parseSelect_of_clause located list listed isFrom named clause
  | insert isInsert isInto named noColumns more list listed =>
    simp only [parseStatement, isInsert]
    exact parseInsert_of_values located isInto named noColumns more list listed
  | insertColumns isInsert isInto named columnsRead more list listed =>
    simp only [parseStatement, isInsert]
    exact parseInsert_of_columns located isInto named columnsRead more list listed
  | update isUpdate named isSet clause =>
    simp only [parseStatement, isUpdate]
    exact parseUpdate_of_clause located named isSet clause
  | deleteFrom isDelete isFrom named clause =>
    simp only [parseStatement, isDelete]
    exact parseDelete_of_clause located (.inl ⟨_, isFrom, rfl⟩) named clause
  | delete isDelete notFrom named clause =>
    simp only [parseStatement, isDelete]
    exact parseDelete_of_clause located (.inr ⟨notFrom, rfl⟩) named clause
  | createTable isCreate isTable named definitions listed =>
    simp only [parseStatement, isCreate, List.getElem?_cons_succ, List.getElem?_cons_zero,
      Option.map_some, isTable]
    exact parseCreateTable_of_definitions located isTable named definitions listed

/-! ## From the parsers to the description -/

/-- A parser that returns a failure does not return success. -/
theorem not_success_of_fail {failure : ParseResult} {message : String} {stop last : Nat}
    (read : some (failure.fail message, last) = some (final, stop)) : final.success ≠ true := by
  obtain ⟨rfl, -⟩ := Prod.mk.inj (Option.some.inj read)
  simp

/-- `ParseTableName` takes one token, unless the name it returns is empty. -/
theorem parseTableName_eq (located : At tokens pos rest) :
    ∃ table remaining stop, parseTableName tokens pos = some (table, stop) ∧
      At tokens stop remaining ∧ (table ≠ [] → rest = table :: remaining) := by
  cases rest with
  | nil => exact ⟨[], [], pos, parseTableName_nil located, located, fun named => absurd rfl named⟩
  | cons table remaining =>
    exact ⟨table, remaining, pos + 1, parseTableName_cons located, located.next, fun _ => rfl⟩

/-- What is read as a WHERE clause is one. -/
theorem clause_of_parseOptionalWhere (located : At tokens pos tail) {stop : Nat}
    (read : parseOptionalWhere tokens pos result = some (final, stop))
    (accepted : final.success = true) :
    ∃ after, WhereClause result tail final after ∧ At tokens stop after := by
  by_cases noWhere : ∀ token ∈ tail.head?, toUpper token ≠ "WHERE".toList
  · rw [parseOptionalWhere_none located noWhere] at read
    obtain ⟨rfl, rfl⟩ := Prod.mk.inj (Option.some.inj read)
    exact ⟨tail, .absent noWhere, located⟩
  · obtain ⟨keyword, rest, rfl, isWhere⟩ :
        ∃ keyword rest, tail = keyword :: rest ∧ toUpper keyword = "WHERE".toList := by
      cases tail with
      | nil => simp at noWhere
      | cons keyword rest => exact ⟨keyword, rest, rfl, by simpa using noWhere⟩
    -- one, two or three tokens missing after `WHERE` are the three failures
    match rest, located with
    | column :: op :: value :: after, located =>
      rw [parseOptionalWhere_some located isWhere] at read
      obtain ⟨rfl, rfl⟩ := Prod.mk.inj (Option.some.inj read)
      exact ⟨after, .comparison after isWhere, located.next.next.next.next⟩
    | [], located =>
      have notEnd := located.not_end
      unfold parseOptionalWhere parseWhereClause at read
      rw [if_pos (by omega), if_neg located.not_end, located.get?_cons] at read
      simp only [Option.bind_eq_bind, Option.bind_some] at read
      rw [if_neg (by simpa using isWhere), if_pos located.next.at_end] at read
      exact absurd accepted (not_success_of_fail read)
    | [column], located =>
      have notEnd := located.not_end
      unfold parseOptionalWhere parseWhereClause at read
      rw [if_pos (by omega), if_neg located.not_end, located.get?_cons] at read
      simp only [Option.bind_eq_bind, Option.bind_some] at read
      rw [if_neg (by simpa using isWhere), if_neg located.next.not_end,
        located.next.get?_cons] at read
      simp only [Option.bind_some] at read
      rw [if_pos located.next.next.at_end] at read
      exact absurd accepted (not_success_of_fail read)
    | [column, op], located =>
      have notEnd := located.not_end
      unfold parseOptionalWhere parseWhereClause at read
      rw [if_pos (by omega), if_neg located.not_end, located.get?_cons] at read
      simp only [Option.bind_eq_bind, Option.bind_some] at read
      rw [if_neg (by simpa using isWhere), if_neg located.next.not_end,
        located.next.get?_cons] at read
      simp only [Option.bind_some] at read
      rw [if_neg located.next.next.not_end, located.next.next.get?_cons] at read
      simp only [Option.bind_some] at read
      rw [if_pos located.next.next.next.at_end] at read
      exact absurd accepted (not_success_of_fail read)

/-- What is accepted as a SELECT is one. -/
theorem parses_of_parseSelect {keyword : Token} {stop : Nat}
    (isSelect : toUpper keyword = "SELECT".toList) (located : At tokens pos (keyword :: rest))
    (read : parseSelect tokens pos = some (final, stop)) (accepted : final.success = true) :
    ∃ after, Parses (keyword :: rest) final after ∧ At tokens stop after := by
  obtain ⟨next, readColumns, locatedNext⟩ := parseColumnList_eq located.next
  rcases list : columnList rest with ⟨columns, remaining⟩
  rw [list] at readColumns locatedNext
  unfold parseSelect at read
  rw [readColumns] at read
  simp only [Option.bind_eq_bind, Option.bind_some] at read
  by_cases empty : columns = []
  · rw [if_pos empty] at read
    exact absurd accepted (not_success_of_fail read)
  rw [if_neg empty] at read
  cases remaining with
  | nil =>
    rw [if_pos locatedNext.at_end] at read
    exact absurd accepted (not_success_of_fail read)
  | cons source remaining =>
    rw [if_neg locatedNext.not_end, locatedNext.get?_cons] at read
    simp only [Option.bind_some] at read
    by_cases isFrom : toUpper source = "FROM".toList
    · obtain ⟨table, tail, last, readTable, locatedTail, shape⟩ :=
        parseTableName_eq locatedNext.next
      rw [if_neg (by simpa using isFrom), readTable] at read
      simp only [Option.bind_some] at read
      by_cases unnamed : table = []
      · rw [if_pos unnamed] at read
        exact absurd accepted (not_success_of_fail read)
      rw [if_neg unnamed] at read
      obtain ⟨after, clause, locatedAfter⟩ :=
        clause_of_parseOptionalWhere locatedTail read accepted
      rw [shape unnamed] at list
      exact ⟨after, .select isSelect list empty isFrom unnamed clause, locatedAfter⟩
    · rw [if_pos isFrom] at read
      exact absurd accepted (not_success_of_fail read)

/-- The end of an accepted `INSERT`: there are tokens left, and values in them. -/
theorem values_of_insert {stop : Nat} {result : ParseResult} (located : At tokens pos rest)
    (read : (if tokens.length ≤ pos then
        some (result.fail "INSERT statement missing VALUES clause", pos)
      else (parseValueList tokens pos).bind fun values =>
        if values.1 = [] then some (result.fail "INSERT statement missing values", values.2)
        else some (result.set .values (joinComma values.1), values.2)) = some (final, stop))
    (accepted : final.success = true) :
    rest ≠ [] ∧ (valueList rest).1 ≠ [] ∧
      final = result.set .values (joinComma (valueList rest).1) ∧
      At tokens stop (valueList rest).2 := by
  cases rest with
  | nil =>
    rw [if_pos located.at_end] at read
    exact absurd accepted (not_success_of_fail read)
  | cons first more =>
    obtain ⟨end_, readValues, locatedAfter⟩ := parseValueList_eq located
    rw [if_neg located.not_end, readValues, Option.bind_some] at read
    by_cases empty : (valueList (first :: more)).1 = []
    · rw [if_pos empty] at read
      exact absurd accepted (not_success_of_fail read)
    rw [if_neg empty] at read
    obtain ⟨rfl, rfl⟩ := Prod.mk.inj (Option.some.inj read)
    exact ⟨List.cons_ne_nil first more, empty, rfl, locatedAfter⟩

/-- What is accepted as an INSERT is one. -/
theorem parses_of_parseInsert {keyword : Token} {stop : Nat}
    (isInsert : toUpper keyword = "INSERT".toList) (located : At tokens pos (keyword :: rest))
    (read : parseInsert tokens pos = some (final, stop)) (accepted : final.success = true) :
    ∃ after, Parses (keyword :: rest) final after ∧ At tokens stop after := by
  cases rest with
  | nil =>
    unfold parseInsert at read
    rw [if_pos located.next.at_end] at read
    exact absurd accepted (not_success_of_fail read)
  | cons into rest =>
    by_cases isInto : toUpper into = "INTO".toList
    · obtain ⟨table, remaining, last, readTable, locatedRest, shape⟩ :=
        parseTableName_eq located.next.next
      unfold parseInsert at read
      rw [if_neg located.next.not_end, located.next.get?_cons] at read
      simp only [Option.bind_eq_bind, Option.bind_some] at read
      rw [if_neg (by simpa using isInto), readTable] at read
      simp only [Option.bind_some] at read
      by_cases unnamed : table = []
      · rw [if_pos unnamed] at read
        exact absurd accepted (not_success_of_fail read)
      rw [if_neg unnamed, locatedRest.get?] at read
      obtain rfl := shape unnamed
      by_cases opened : remaining.head? = some ['(']
      · obtain ⟨inner, rfl⟩ := List.head?_eq_some_iff.mp opened
        obtain ⟨next, readColumns, locatedMiddle⟩ := parseColumnList_eq locatedRest
        rcases list : columnsIn inner with ⟨columns, middle⟩
        have columnsEq : columnList (['('] :: inner) = (columns, middle) := by
          simpa [columnList] using list
        rw [columnsEq] at readColumns locatedMiddle
        rw [if_pos opened, readColumns] at read
        simp only [Option.pure_def, Option.bind_some] at read
        obtain ⟨more, listed, rfl, locatedAfter⟩ := values_of_insert locatedMiddle read accepted
        exact ⟨_, .insertColumns isInsert isInto unnamed list more rfl listed, locatedAfter⟩
      · rw [if_neg opened] at read
        simp only [Option.pure_def, Option.bind_some] at read
        obtain ⟨more, listed, rfl, locatedAfter⟩ := values_of_insert locatedRest read accepted
        exact ⟨_, .insert isInsert isInto unnamed opened more rfl listed, locatedAfter⟩
    · unfold parseInsert at read
      rw [if_neg located.next.not_end, located.next.get?_cons] at read
      simp only [Option.bind_eq_bind, Option.bind_some] at read
      rw [if_pos isInto] at read
      exact absurd accepted (not_success_of_fail read)

/-- What is accepted as an UPDATE is one. -/
theorem parses_of_parseUpdate {keyword : Token} {stop : Nat}
    (isUpdate : toUpper keyword = "UPDATE".toList) (located : At tokens pos (keyword :: rest))
    (read : parseUpdate tokens pos = some (final, stop)) (accepted : final.success = true) :
    ∃ after, Parses (keyword :: rest) final after ∧ At tokens stop after := by
  obtain ⟨table, remaining, last, readTable, locatedSet, shape⟩ := parseTableName_eq located.next
  unfold parseUpdate at read
  rw [readTable] at read
  simp only [Option.bind_eq_bind, Option.bind_some] at read
  by_cases unnamed : table = []
  · rw [if_pos unnamed] at read
    exact absurd accepted (not_success_of_fail read)
  rw [if_neg unnamed] at read
  obtain rfl := shape unnamed
  cases remaining with
  | nil =>
    rw [if_pos locatedSet.at_end] at read
    exact absurd accepted (not_success_of_fail read)
  | cons set remaining =>
    rw [if_neg locatedSet.not_end, locatedSet.get?_cons] at read
    simp only [Option.bind_some] at read
    by_cases isSet : toUpper set = "SET".toList
    · rw [if_neg (by simpa using isSet)] at read
      cases remaining with
      | nil =>
        rw [if_pos locatedSet.next.at_end] at read
        exact absurd accepted (not_success_of_fail read)
      | cons column remaining =>
        rw [if_neg locatedSet.next.not_end, locatedSet.next.get?_cons] at read
        simp only [Option.bind_some] at read
        rw [locatedSet.next.next.get?] at read
        by_cases assigned : remaining.head? = some ['=']
        · obtain ⟨remaining, rfl⟩ := List.head?_eq_some_iff.mp assigned
          rw [if_neg (by simp)] at read
          cases remaining with
          | nil =>
            rw [if_pos locatedSet.next.next.next.at_end] at read
            exact absurd accepted (not_success_of_fail read)
          | cons value tail =>
            have locatedValue := locatedSet.next.next.next
            rw [if_neg locatedValue.not_end, locatedValue.get?_cons] at read
            simp only [Option.bind_some] at read
            obtain ⟨after, clause, locatedAfter⟩ :=
              clause_of_parseOptionalWhere locatedValue.next read accepted
            exact ⟨after, .update isUpdate unnamed isSet clause, locatedAfter⟩
        · rw [if_pos assigned] at read
          exact absurd accepted (not_success_of_fail read)
    · rw [if_pos isSet] at read
      exact absurd accepted (not_success_of_fail read)

/-- What is accepted as a DELETE is one. -/
theorem parses_of_parseDelete {keyword : Token} {stop : Nat}
    (isDelete : toUpper keyword = "DELETE".toList) (located : At tokens pos (keyword :: rest))
    (read : parseDelete tokens pos = some (final, stop)) (accepted : final.success = true) :
    ∃ after, Parses (keyword :: rest) final after ∧ At tokens stop after := by
  unfold parseDelete at read
  cases rest with
  | nil =>
    rw [if_pos located.next.at_end] at read
    exact absurd accepted (not_success_of_fail read)
  | cons first rest =>
    rw [if_neg located.next.not_end, located.next.get?_cons] at read
    simp only [Option.bind_eq_bind, Option.bind_some] at read
    by_cases isFrom : toUpper first = "FROM".toList
    · obtain ⟨table, tail, last, readTable, locatedTail, shape⟩ :=
        parseTableName_eq located.next.next
      rw [if_pos isFrom, readTable] at read
      simp only [Option.bind_some] at read
      by_cases unnamed : table = []
      · rw [if_pos unnamed] at read
        exact absurd accepted (not_success_of_fail read)
      rw [if_neg unnamed] at read
      obtain ⟨after, clause, locatedAfter⟩ :=
        clause_of_parseOptionalWhere locatedTail read accepted
      obtain rfl := shape unnamed
      exact ⟨after, .deleteFrom isDelete isFrom unnamed clause, locatedAfter⟩
    · rw [if_neg isFrom, parseTableName_cons located.next] at read
      simp only [Option.bind_some] at read
      by_cases unnamed : first = []
      · rw [if_pos unnamed] at read
        exact absurd accepted (not_success_of_fail read)
      rw [if_neg unnamed] at read
      obtain ⟨after, clause, locatedAfter⟩ :=
        clause_of_parseOptionalWhere located.next.next read accepted
      exact ⟨after, .delete isDelete isFrom unnamed clause, locatedAfter⟩

/-- What is accepted as a CREATE TABLE is one. -/
theorem parses_of_parseCreateTable {keyword : Token} {stop : Nat}
    (isCreate : toUpper keyword = "CREATE".toList) (located : At tokens pos (keyword :: rest))
    (read : parseCreateTable tokens pos = some (final, stop)) (accepted : final.success = true) :
    ∃ after, Parses (keyword :: rest) final after ∧ At tokens stop after := by
  unfold parseCreateTable at read
  cases rest with
  | nil =>
    rw [if_pos located.next.at_end] at read
    exact absurd accepted (not_success_of_fail read)
  | cons kind rest =>
    rw [if_neg located.next.not_end, located.next.get?_cons] at read
    simp only [Option.bind_eq_bind, Option.bind_some] at read
    by_cases isTable : toUpper kind = "TABLE".toList
    · obtain ⟨table, remaining, last, readTable, locatedOpen, shape⟩ :=
        parseTableName_eq located.next.next
      rw [if_neg (by simpa using isTable), readTable] at read
      simp only [Option.bind_some] at read
      by_cases unnamed : table = []
      · rw [if_pos unnamed] at read
        exact absurd accepted (not_success_of_fail read)
      rw [if_neg unnamed, locatedOpen.get?] at read
      obtain rfl := shape unnamed
      by_cases opened : remaining.head? = some ['(']
      · obtain ⟨inner, rfl⟩ := List.head?_eq_some_iff.mp opened
        obtain ⟨columns, after, definitions⟩ := definitions_total inner
        have length := locatedOpen.next.length_eq
        obtain ⟨next, readColumns, locatedNext⟩ :=
          definitionLoop_eq definitions [] locatedOpen.next
            (show inner.length < tokens.length - (last + 1) + 1 by omega)
        rw [if_neg (by simp), readColumns] at read
        simp only [Option.bind_some, List.nil_append] at read
        by_cases empty : columns = []
        · rw [if_pos empty] at read
          exact absurd accepted (not_success_of_fail read)
        rw [if_neg empty] at read
        obtain ⟨rfl, rfl⟩ := Prod.mk.inj (Option.some.inj read)
        exact ⟨_, .createTable isCreate isTable unnamed definitions empty, locatedNext.dropClose⟩
      · rw [if_pos opened] at read
        exact absurd accepted (not_success_of_fail read)
    · rw [if_pos isTable] at read
      exact absurd accepted (not_success_of_fail read)

/-- What `parseStatement` accepts is a described parse. -/
theorem parses_of_success {stop : Nat} (read : parseStatement tokens = some (final, stop))
    (accepted : final.success = true) :
    ∃ after, Parses tokens final after ∧ At tokens stop after := by
  have located := At.start tokens
  unfold parseStatement at read
  cases tokens with
  | nil => exact absurd accepted (not_success_of_fail read)
  | cons keyword rest =>
    dsimp only at read
    split at read
    next isSelect => exact parses_of_parseSelect isSelect located read accepted
    split at read
    next isInsert => exact parses_of_parseInsert isInsert located read accepted
    split at read
    next isUpdate => exact parses_of_parseUpdate isUpdate located read accepted
    split at read
    next isDelete => exact parses_of_parseDelete isDelete located read accepted
    split at read
    next isCreate =>
      split at read
      · exact parses_of_parseCreateTable isCreate located read accepted
      · exact absurd accepted (not_success_of_fail read)
    · obtain ⟨rfl, -⟩ := Prod.mk.inj (Option.some.inj read)
      simp at accepted

/-! ## Every statement is answered -/

section Total

/-- A branch ends if both its sides do. -/
theorem exists_ite {Outcome : Type} {test : Prop} [Decidable test] {first second : Option Outcome}
    (yes : test → ∃ outcome, first = some outcome)
    (no : ¬ test → ∃ outcome, second = some outcome) :
    ∃ outcome, (if test then first else second) = some outcome := by
  by_cases holds : test
  · rw [if_pos holds]
    exact yes holds
  · rw [if_neg holds]
    exact no holds

/-- A step and what follows it end if each does. -/
theorem exists_bind {Value Outcome : Type} {value : Option Value}
    {next : Value → Option Outcome} (ends : ∃ result, value = some result)
    (each : ∀ result, ∃ outcome, next result = some outcome) :
    ∃ outcome, value.bind next = some outcome := by
  obtain ⟨result, rfl⟩ := ends
  exact each result

variable (tokens : List Token)

theorem exists_get {pos : Nat} (inside : ¬ tokens.length ≤ pos) :
    ∃ token, tokens[pos]? = some token :=
  ⟨tokens[pos], List.getElem?_eq_getElem (by omega)⟩

theorem exists_parseTableName (pos : Nat) : ∃ outcome, parseTableName tokens pos = some outcome := by
  refine exists_ite (fun _ => ⟨_, rfl⟩) fun inside => ?_
  exact exists_bind (exists_get tokens inside) fun name => ⟨_, rfl⟩

/-- The list of columns ends on every text. -/
theorem exists_parseColumnList (pos : Nat) :
    ∃ outcome, parseColumnList tokens pos = some outcome := by
  by_cases inside : pos ≤ tokens.length
  · obtain ⟨after, read, -⟩ := @parseColumnList_eq tokens _ pos ⟨inside, rfl⟩
    exact ⟨_, read⟩
  · exact ⟨_, if_pos (by omega)⟩

/-- The list of values ends on every text. -/
theorem exists_parseValueList (pos : Nat) :
    ∃ outcome, parseValueList tokens pos = some outcome := by
  by_cases inside : pos ≤ tokens.length
  · obtain ⟨after, read, -⟩ := @parseValueList_eq tokens _ pos ⟨inside, rfl⟩
    exact ⟨_, read⟩
  · exact ⟨_, if_pos (by omega)⟩

/-- The loop over column definitions ends on every text. -/
theorem exists_definitionLoop (pos : Nat) :
    ∃ outcome, definitionLoop tokens (tokens.length - pos + 1) pos [] = some outcome := by
  by_cases inside : pos ≤ tokens.length
  · obtain ⟨columns, after, definitions⟩ := definitions_total (tokens.drop pos)
    obtain ⟨stop, read, -⟩ := @definitionLoop_eq tokens _ _ _ definitions
      (tokens.length - pos + 1) pos [] ⟨inside, rfl⟩ (by rw [List.length_drop]; omega)
    exact ⟨_, read⟩
  · rw [definitionLoop, if_neg (by omega)]
    exact ⟨_, rfl⟩

theorem exists_parseOptionalWhere (pos : Nat) (result : ParseResult) :
    ∃ outcome, parseOptionalWhere tokens pos result = some outcome := by
  refine exists_ite (fun _ => ?_) fun _ => ⟨_, rfl⟩
  refine exists_ite (fun _ => ⟨_, rfl⟩) fun inside => exists_bind (exists_get tokens inside) ?_
  intro keyword
  refine exists_ite (fun _ => ⟨_, rfl⟩) fun _ => exists_ite (fun _ => ⟨_, rfl⟩) fun inside => ?_
  refine exists_bind (exists_get tokens inside) fun column => ?_
  refine exists_ite (fun _ => ⟨_, rfl⟩) fun inside => exists_bind (exists_get tokens inside) ?_
  intro op
  refine exists_ite (fun _ => ⟨_, rfl⟩) fun inside => exists_bind (exists_get tokens inside) ?_
  exact fun value => ⟨_, rfl⟩

/-- `ParseSelect` ends on every text. -/
theorem exists_parseSelect (pos : Nat) : ∃ outcome, parseSelect tokens pos = some outcome := by
  refine exists_bind (exists_parseColumnList tokens _) fun (columns, next) => ?_
  refine exists_ite (fun _ => ⟨_, rfl⟩) fun _ => exists_ite (fun _ => ⟨_, rfl⟩) fun inside => ?_
  refine exists_bind (exists_get tokens inside) fun keyword => ?_
  refine exists_ite (fun _ => ⟨_, rfl⟩) fun _ => ?_
  refine exists_bind (exists_parseTableName tokens _) fun (tableName, next) => ?_
  exact exists_ite (fun _ => ⟨_, rfl⟩) fun _ => exists_parseOptionalWhere tokens _ _

/-- `ParseInsert` ends on every text. -/
theorem exists_parseInsert (pos : Nat) : ∃ outcome, parseInsert tokens pos = some outcome := by
  refine exists_ite (fun _ => ⟨_, rfl⟩) fun inside => exists_bind (exists_get tokens inside) ?_
  intro keyword
  refine exists_ite (fun _ => ⟨_, rfl⟩) fun _ => ?_
  refine exists_bind (exists_parseTableName tokens _) fun (tableName, next) => ?_
  refine exists_ite (fun _ => ⟨_, rfl⟩) fun _ => ?_
  refine exists_ite (fun _ => ?_) fun _ => ?_
  · refine exists_bind (exists_parseColumnList tokens _) fun (columns, stop) => ?_
    refine exists_ite (fun _ => ⟨_, rfl⟩) fun _ => ?_
    refine exists_bind (exists_parseValueList tokens _) fun (values, last) => ?_
    exact exists_ite (fun _ => ⟨_, rfl⟩) fun _ => ⟨_, rfl⟩
  · refine exists_ite (fun _ => ⟨_, rfl⟩) fun _ => ?_
    refine exists_bind (exists_parseValueList tokens _) fun (values, last) => ?_
    exact exists_ite (fun _ => ⟨_, rfl⟩) fun _ => ⟨_, rfl⟩

/-- `ParseUpdate` ends on every text. -/
theorem exists_parseUpdate (pos : Nat) : ∃ outcome, parseUpdate tokens pos = some outcome := by
  refine exists_bind (exists_parseTableName tokens _) fun (tableName, next) => ?_
  refine exists_ite (fun _ => ⟨_, rfl⟩) fun _ => exists_ite (fun _ => ⟨_, rfl⟩) fun inside => ?_
  refine exists_bind (exists_get tokens inside) fun keyword => ?_
  refine exists_ite (fun _ => ⟨_, rfl⟩) fun _ => exists_ite (fun _ => ⟨_, rfl⟩) fun inside => ?_
  refine exists_bind (exists_get tokens inside) fun column => ?_
  refine exists_ite (fun _ => ⟨_, rfl⟩) fun _ => exists_ite (fun _ => ⟨_, rfl⟩) fun inside => ?_
  exact exists_bind (exists_get tokens inside) fun value => exists_parseOptionalWhere tokens _ _

/-- `ParseDelete` ends on every text. -/
theorem exists_parseDelete (pos : Nat) : ∃ outcome, parseDelete tokens pos = some outcome := by
  refine exists_ite (fun _ => ⟨_, rfl⟩) fun inside => exists_bind (exists_get tokens inside) ?_
  intro keyword
  refine exists_bind (exists_parseTableName tokens _) fun (tableName, next) => ?_
  exact exists_ite (fun _ => ⟨_, rfl⟩) fun _ => exists_parseOptionalWhere tokens _ _

/-- `ParseCreateTable` ends on every text. -/
theorem exists_parseCreateTable (pos : Nat) :
    ∃ outcome, parseCreateTable tokens pos = some outcome := by
  refine exists_ite (fun _ => ⟨_, rfl⟩) fun inside => exists_bind (exists_get tokens inside) ?_
  intro keyword
  refine exists_ite (fun _ => ⟨_, rfl⟩) fun _ => ?_
  refine exists_bind (exists_parseTableName tokens _) fun (tableName, next) => ?_
  refine exists_ite (fun _ => ⟨_, rfl⟩) fun _ => exists_ite (fun _ => ⟨_, rfl⟩) fun _ => ?_
  refine exists_bind (exists_definitionLoop tokens _) fun (columns, stop) => ?_
  exact exists_ite (fun _ => ⟨_, rfl⟩) fun _ => ⟨_, rfl⟩

/-- No statement makes a parser read outside the tokens or run out of fuel. -/
theorem exists_parseStatement : ∃ outcome, parseStatement tokens = some outcome := by
  cases tokens with
  | nil => exact ⟨_, rfl⟩
  | cons first rest =>
    refine exists_ite (fun _ => exists_parseSelect _ 0) fun _ => ?_
    refine exists_ite (fun _ => exists_parseInsert _ 0) fun _ => ?_
    refine exists_ite (fun _ => exists_parseUpdate _ 0) fun _ => ?_
    refine exists_ite (fun _ => exists_parseDelete _ 0) fun _ => ?_
    refine exists_ite (fun _ => ?_) fun _ => ⟨_, rfl⟩
    exact exists_ite (fun _ => exists_parseCreateTable _ 0) fun _ => ⟨_, rfl⟩

end Total

end MiniDB.Parser
