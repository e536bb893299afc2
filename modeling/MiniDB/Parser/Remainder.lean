import Mathlib.Data.List.TakeWhile
import MiniDB.Parser.Statements

/-!
# What an accepted statement leaves unread

`ParseQuery` never looks at what follows the last token its statement parser
took. `Complete` names the statements with nothing after that point, part by
part of the grammar, and an accepted statement is read to its end exactly when
it is complete.
-/

namespace MiniDB.Parser

/-- The end of a statement: nothing, or one semicolon. -/
def EndsStatement (rest : List Token) : Prop := rest = [] ∨ rest = [[';']]

/-- At most one comparison after `WHERE`, then the end. -/
def WhereAtEnd (tail : List Token) : Prop :=
  EndsStatement tail ∨
    ∃ keyword column op value rest, tail = keyword :: column :: op :: value :: rest ∧
      toUpper keyword = "WHERE".toList ∧ EndsStatement rest

/-- A list of values whose first closing parenthesis, if it has one, stands at the end. -/
def ValuesAtEnd (rest : List Token) : Prop :=
  [')'] ∉ rest ∨
    ∃ values after, rest = values ++ [')'] :: after ∧ [')'] ∉ values ∧ EndsStatement after

/-- Column definitions whose closing parenthesis, if they have one, stands at the end. -/
def DefinitionsAtEnd (rest : List Token) : Prop :=
  ∃ columns stop, Definitions rest columns stop ∧ (stop = [] ∨
    ∃ after, stop = [')'] :: after ∧ EndsStatement after)

/-- `SELECT` with nothing after its table name or its comparison. -/
def SelectAtEnd (rest : List Token) : Prop :=
  ∃ list source table tail, rest = list ++ source :: table :: tail ∧
    (∀ token ∈ list, isClauseKeyword token = false) ∧ toUpper source = "FROM".toList ∧
    WhereAtEnd tail

/-- `INSERT` with nothing after its row of values; a column list in front of the
row ends at its parenthesis or at a clause keyword. -/
def InsertAtEnd (rest : List Token) : Prop :=
  ∃ into table body, rest = into :: table :: body ∧
    ((body.head? ≠ some ['('] ∧ ValuesAtEnd body) ∨
      ∃ columns stop middle, body = ['('] :: (columns ++ stop :: middle) ∧
        (∀ token ∈ columns, endsColumns token = false) ∧
        ((stop = [')'] ∧ ValuesAtEnd middle) ∨
          (isClauseKeyword stop = true ∧ ValuesAtEnd (stop :: middle))))

/-- `UPDATE` with nothing after its one assignment or its comparison. -/
def UpdateAtEnd (rest : List Token) : Prop :=
  ∃ table set column equals value tail,
    rest = table :: set :: column :: equals :: value :: tail ∧ WhereAtEnd tail

/-- `DELETE` with nothing after its table name or its comparison. -/
def DeleteAtEnd (rest : List Token) : Prop :=
  (∃ table tail, rest = table :: tail ∧ toUpper table ≠ "FROM".toList ∧ WhereAtEnd tail) ∨
    ∃ source table tail, rest = source :: table :: tail ∧ toUpper source = "FROM".toList ∧
      WhereAtEnd tail

/-- `CREATE TABLE` with nothing after its definitions. -/
def CreateAtEnd (rest : List Token) : Prop :=
  ∃ kind table opening body, rest = kind :: table :: opening :: body ∧ DefinitionsAtEnd body

/-- The statements with nothing after the last part that is parsed. -/
def Complete : List Token → Prop
  | [] => False
  | keyword :: rest =>
    (toUpper keyword = "SELECT".toList ∧ SelectAtEnd rest) ∨
      (toUpper keyword = "INSERT".toList ∧ InsertAtEnd rest) ∨
      (toUpper keyword = "UPDATE".toList ∧ UpdateAtEnd rest) ∨
      (toUpper keyword = "DELETE".toList ∧ DeleteAtEnd rest) ∨
      (toUpper keyword = "CREATE".toList ∧ CreateAtEnd rest)

/-! ## Where the parts of a statement end -/

/-- What is left behind a WHERE clause. -/
theorem endsStatement_whereClause {result final : ParseResult} {tail after : List Token}
    (clause : WhereClause result tail final after) : EndsStatement after ↔ WhereAtEnd tail := by
  cases clause with
  | absent noWhere =>
    constructor
    · exact Or.inl
    · rintro (ends | ⟨keyword, column, op, value, rest, rfl, isWhere, -⟩)
      · exact ends
      · exact absurd isWhere (noWhere keyword rfl)
  | comparison after isWhere =>
    constructor
    · intro ends
      exact .inr ⟨_, _, _, _, _, rfl, isWhere, ends⟩
    · rintro (ends | ⟨keyword, column, op, value, rest, shape, -, ends⟩)
      · rcases ends with empty | semicolon
        · exact absurd empty (by simp)
        · exact absurd semicolon (by simp)
      · simp only [List.cons.injEq] at shape
        rwa [shape.2.2.2.2]

/-- The tokens from the first one that stops a scan on. -/
theorem dropWhile_append_cons {stops : Token → Bool} {list after : List Token} {stop : Token}
    (passed : ∀ token ∈ list, stops token = false) (stopped : stops stop = true) :
    (list ++ stop :: after).dropWhile (fun token => !stops token) = stop :: after := by
  rw [List.dropWhile_append_of_pos (by simpa using passed),
    List.dropWhile_cons_of_neg (by simp [stopped])]

/-- A scan that stops leaves a stopping token behind tokens it passed. -/
theorem split_dropWhile {stops : Token → Bool} {rest after : List Token} {stop : Token}
    (scanned : rest.dropWhile (fun token => !stops token) = stop :: after) :
    ∃ list, rest = list ++ stop :: after ∧ (∀ token ∈ list, stops token = false) ∧
      stops stop = true := by
  refine ⟨rest.takeWhile fun token => !stops token, ?_, ?_, ?_⟩
  · rw [← scanned, List.takeWhile_append_dropWhile]
  · intro token member
    simpa using List.all_eq_true.mp (List.all_takeWhile) token member
  · have heads := List.head?_dropWhile_not (fun token => !stops token) rest
    rw [scanned] at heads
    simpa using heads

theorem scan_close (rest : List Token) :
    rest.dropWhile (fun token => token ≠ [')']) =
      rest.dropWhile fun token => !decide (token = [')']) := by
  congr 1
  funext token
  simp

/-- What is left behind a list of values. -/
theorem endsStatement_values (rest : List Token) :
    EndsStatement (dropClose (rest.dropWhile fun token => token ≠ [')'])) ↔ ValuesAtEnd rest := by
  rw [scan_close]
  constructor
  · intro ends
    cases scanned : rest.dropWhile fun token => !decide (token = [')']) with
    | nil =>
      left
      intro closed
      simpa using List.dropWhile_eq_nil_iff.mp scanned [')'] closed
    | cons stop after =>
      obtain ⟨values, rfl, passed, stopped⟩ := split_dropWhile scanned
      obtain rfl : stop = [')'] := by simpa using stopped
      rw [scanned] at ends
      refine .inr ⟨values, after, rfl, fun closed => ?_, by simpa [dropClose] using ends⟩
      simpa using passed _ closed
  · rintro (unclosed | ⟨values, after, rfl, notIn, ends⟩)
    · rw [List.dropWhile_eq_nil_iff.mpr]
      · exact .inl rfl
      · intro token member
        simpa using fun close : token = [')'] => unclosed (close ▸ member)
    · rw [dropWhile_append_cons _ (by simp)]
      · simpa [dropClose] using ends
      · intro token member
        simpa using fun close : token = [')'] => notIn (close ▸ member)

/-- The optional `VALUES` and `(` do not move the end of a value list. -/
theorem valueList_after (rest : List Token) :
    (valueList rest).2 = dropClose (rest.dropWhile fun token => token ≠ [')']) := by
  have kept : ∀ (test : Token → Bool), test [')'] = false → ∀ tokens : List Token,
      (dropIf test tokens).dropWhile (fun token => token ≠ [')']) =
        tokens.dropWhile fun token => token ≠ [')'] := by
    intro test notClose tokens
    cases tokens with
    | nil => rfl
    | cons token tokens =>
      by_cases passes : test token = true
      · have other : token ≠ [')'] := by
          rintro rfl
          simp [notClose] at passes
        simp [dropIf, passes, other]
      · simp [dropIf, passes]
  simp only [valueList, valuesIn]
  rw [kept _ (by decide), kept _ (by decide)]

/-- A column list stops at its parenthesis or at a clause keyword. -/
theorem columnsIn_split {rest columns tail : List Token} {token : Token}
    (list : columnsIn rest = (columns, token :: tail)) :
    ∃ names, (∀ name ∈ names, endsColumns name = false) ∧
      (rest = names ++ [')'] :: token :: tail ∨
        (isClauseKeyword token = true ∧ rest = names ++ token :: tail)) := by
  have after : dropClose (rest.dropWhile fun name => !endsColumns name) = token :: tail :=
    congrArg Prod.snd list
  cases scanned : rest.dropWhile fun name => !endsColumns name with
  | nil => simp [scanned, dropClose] at after
  | cons stop beyond =>
    obtain ⟨names, rfl, passed, stopped⟩ := split_dropWhile scanned
    refine ⟨names, passed, ?_⟩
    rw [scanned] at after
    by_cases close : stop = [')']
    · left
      simp only [dropClose, if_pos close] at after
      rw [close, after]
    · right
      simp only [dropClose, if_neg close, List.cons.injEq] at after
      obtain ⟨rfl, rfl⟩ := after
      exact ⟨by simpa [endsColumns, close] using stopped, rfl⟩

/-- A token that ends no list of columns is no keyword. -/
theorem not_keyword_of_not_ends {token : Token} (passed : endsColumns token = false) :
    isClauseKeyword token = false := by
  simp only [endsColumns, Bool.or_eq_false_iff] at passed
  exact passed.2

/-- The column list of a `SELECT` ends at its first clause keyword. -/
theorem scan_of_columnsIn {rest columns tail : List Token} {source : Token}
    (list : columnsIn rest = (columns, source :: tail)) (isKeyword : isClauseKeyword source = true) :
    rest.dropWhile (fun token => !isClauseKeyword token) = source :: tail := by
  obtain ⟨names, passed, rfl | ⟨-, rfl⟩⟩ := columnsIn_split list
  · rw [List.dropWhile_append_of_pos]
    · exact @dropWhile_append_cons _ [[')']] tail source (by decide) isKeyword
    · intro name member
      simp [not_keyword_of_not_ends (passed name member)]
  · exact dropWhile_append_cons (fun name member => not_keyword_of_not_ends (passed name member))
      isKeyword

/-- A list of columns goes up to the first keyword. -/
theorem scan_of_columnList {rest columns tail : List Token} {source : Token}
    (list : columnList rest = (columns, source :: tail))
    (isKeyword : isClauseKeyword source = true) :
    rest.dropWhile (fun token => !isClauseKeyword token) = source :: tail := by
  cases rest with
  | nil => simp [columnList] at list
  | cons first rest =>
    simp only [columnList] at list
    by_cases star : first = ['*']
    · rw [if_pos star] at list
      obtain ⟨-, rfl⟩ := Prod.mk.inj list
      subst star
      exact @dropWhile_append_cons _ [['*']] tail source (by decide) isKeyword
    rw [if_neg star] at list
    by_cases opened : first = ['(']
    · rw [if_pos opened] at list
      subst opened
      rw [List.dropWhile_cons_of_pos (by decide)]
      exact scan_of_columnsIn list isKeyword
    · rw [if_neg opened] at list
      exact scan_of_columnsIn list isKeyword

/-- Column definitions are read in one way. -/
theorem Definitions.unique {rest columns columns' stop stop' : List Token}
    (first : Definitions rest columns stop) (second : Definitions rest columns' stop') :
    stop = stop' := by
  obtain ⟨pos, read, located⟩ :=
    definitionLoop_eq first [] (At.start rest) (Nat.lt_succ_self rest.length)
  obtain ⟨pos', read', located'⟩ :=
    definitionLoop_eq second [] (At.start rest) (Nat.lt_succ_self rest.length)
  rw [read] at read'
  obtain ⟨-, rfl⟩ := Prod.mk.inj (Option.some.inj read')
  rw [← located.2, ← located'.2]

/-- Column definitions end at a closing bracket or with the tokens. -/
theorem Definitions.stop_shape {rest columns stop : List Token}
    (definitions : Definitions rest columns stop) : stop = [] ∨ ∃ after, stop = [')'] :: after := by
  induction definitions with
  | atEnd => exact .inl rfl
  | close rest => exact .inr ⟨rest, rfl⟩
  | comma _ ih => exact ih
  | sized _ _ ih => exact ih
  | keyword _ _ _ ih => exact ih
  | name _ _ _ _ ih => exact ih

/-- What is left behind column definitions. -/
theorem endsStatement_definitions {rest columns stop : List Token}
    (definitions : Definitions rest columns stop) :
    EndsStatement (dropClose stop) ↔ DefinitionsAtEnd rest := by
  constructor
  · intro ends
    refine ⟨columns, stop, definitions, ?_⟩
    rcases definitions.stop_shape with rfl | ⟨after, rfl⟩
    · exact .inl rfl
    · exact .inr ⟨after, rfl, by simpa [dropClose] using ends⟩
  · rintro ⟨columns', stop', definitions', atEnd⟩
    obtain rfl := definitions.unique definitions'
    rcases atEnd with rfl | ⟨after, rfl, ends⟩
    · exact .inl rfl
    · simpa [dropClose] using ends

/-! ## Complete statements -/

/-- A SELECT is at its end where its WHERE clause is. -/
theorem select_complete_iff {rest columns tail : List Token} {source table : Token}
    (list : columnList rest = (columns, source :: table :: tail))
    (isFrom : toUpper source = "FROM".toList) : SelectAtEnd rest ↔ WhereAtEnd tail := by
  have isKeyword : ∀ {token : Token}, toUpper token = "FROM".toList →
      isClauseKeyword token = true := by
    intro token from_
    simp [isClauseKeyword, from_]
  have scanned := scan_of_columnList list (isKeyword isFrom)
  constructor
  · rintro ⟨names, source', table', tail', rfl, passed, isFrom', atEnd⟩
    rw [dropWhile_append_cons passed (isKeyword isFrom')] at scanned
    simp only [List.cons.injEq] at scanned
    rwa [← scanned.2.2]
  · intro atEnd
    obtain ⟨names, rfl, passed, -⟩ := split_dropWhile scanned
    exact ⟨names, source, table, tail, rfl, passed, isFrom, atEnd⟩

/-- An INSERT with a list of columns is at its end where its values are. -/
theorem insert_complete_iff {rest columns middle : List Token} {into table : Token}
    (list : columnsIn rest = (columns, middle)) (more : middle ≠ []) :
    InsertAtEnd (into :: table :: ['('] :: rest) ↔ ValuesAtEnd middle := by
  obtain ⟨first, beyond, rfl⟩ := List.exists_cons_of_ne_nil more
  obtain ⟨names, passed, shape⟩ := columnsIn_split list
  constructor
  · rintro ⟨into', table', body, same, ⟨noColumns, -⟩ | ⟨names', stop, middle, rfl, passed', atEnd⟩⟩
    · simp only [List.cons.injEq] at same
      simp [← same.2.2] at noColumns
    · simp only [List.cons.injEq, true_and] at same
      have ends : endsColumns stop = true := by
        rcases atEnd with ⟨rfl, -⟩ | ⟨keyword, -⟩
        · decide
        · simp [endsColumns, keyword]
      have scanned := @dropWhile_append_cons _ names' middle stop passed' ends
      rw [← same.2.2] at scanned
      have after := congrArg Prod.snd list
      simp only [columnsIn, scanned, dropClose] at after
      rcases atEnd with ⟨rfl, atEnd⟩ | ⟨keyword, atEnd⟩
      · rw [if_pos rfl] at after
        rwa [after] at atEnd
      · rw [if_neg] at after
        · rwa [after] at atEnd
        · rintro rfl
          exact absurd keyword (by decide)
  · intro atEnd
    refine ⟨into, table, _, rfl, .inr ?_⟩
    rcases shape with rfl | ⟨keyword, rfl⟩
    · exact ⟨names, _, _, rfl, passed, .inl ⟨rfl, atEnd⟩⟩
    · exact ⟨names, _, _, rfl, passed, .inr ⟨keyword, atEnd⟩⟩

/-- An INSERT without one is at its end where its values are. -/
theorem values_complete_iff {rest : List Token} {into table : Token}
    (noColumns : rest.head? ≠ some ['(']) :
    InsertAtEnd (into :: table :: rest) ↔ ValuesAtEnd rest := by
  constructor
  · rintro ⟨into', table', body, same, ⟨-, atEnd⟩ | ⟨names, stop, middle, rfl, -⟩⟩
    · simp only [List.cons.injEq] at same
      rwa [same.2.2]
    · simp only [List.cons.injEq] at same
      simp [same.2.2] at noColumns
  · intro atEnd
    exact ⟨into, table, rest, rfl, .inl ⟨noColumns, atEnd⟩⟩

/-- An UPDATE is at its end where its WHERE clause is. -/
theorem update_complete_iff {table set column equals value : Token} {tail : List Token} :
    UpdateAtEnd (table :: set :: column :: equals :: value :: tail) ↔ WhereAtEnd tail := by
  constructor
  · rintro ⟨_, _, _, _, _, tail', same, atEnd⟩
    simp only [List.cons.injEq] at same
    rwa [same.2.2.2.2.2]
  · intro atEnd
    exact ⟨table, set, column, equals, value, tail, rfl, atEnd⟩

/-- A DELETE without FROM is at its end where its WHERE clause is. -/
theorem delete_complete_iff {table : Token} {tail : List Token}
    (notFrom : toUpper table ≠ "FROM".toList) :
    DeleteAtEnd (table :: tail) ↔ WhereAtEnd tail := by
  constructor
  · rintro (⟨_, tail', same, -, atEnd⟩ | ⟨source, _, _, same, isFrom, -⟩)
    · obtain ⟨-, rfl⟩ := List.cons.inj same
      exact atEnd
    · obtain ⟨rfl, -⟩ := List.cons.inj same
      exact absurd isFrom notFrom
  · intro atEnd
    exact .inl ⟨table, tail, rfl, notFrom, atEnd⟩

/-- A DELETE with FROM is at its end where its WHERE clause is. -/
theorem deleteFrom_complete_iff {source table : Token} {tail : List Token}
    (isFrom : toUpper source = "FROM".toList) :
    DeleteAtEnd (source :: table :: tail) ↔ WhereAtEnd tail := by
  constructor
  · rintro (⟨first, _, same, notFrom, -⟩ | ⟨_, _, tail', same, -, atEnd⟩)
    · obtain ⟨rfl, -⟩ := List.cons.inj same
      exact absurd isFrom notFrom
    · simp only [List.cons.injEq] at same
      rwa [same.2.2]
  · intro atEnd
    exact .inr ⟨source, table, tail, rfl, isFrom, atEnd⟩

/-- A CREATE TABLE is at its end where its definitions are. -/
theorem create_complete_iff {kind table opening : Token} {body : List Token} :
    CreateAtEnd (kind :: table :: opening :: body) ↔ DefinitionsAtEnd body := by
  constructor
  · rintro ⟨_, _, _, body', same, atEnd⟩
    simp only [List.cons.injEq] at same
    rwa [same.2.2.2]
  · intro atEnd
    exact ⟨kind, table, opening, body, rfl, atEnd⟩

/-- A described parse leaves nothing over exactly when its statement is complete. -/
theorem endsStatement_iff_complete {tokens after : List Token} {result : ParseResult}
    (parses : Parses tokens result after) : EndsStatement after ↔ Complete tokens := by
  cases parses with
  | select isSelect list listed isFrom named clause =>
    rw [endsStatement_whereClause clause]
    simp [Complete, isSelect, select_complete_iff list isFrom]
  | @insert keyword into table rest values after isInsert isInto named noColumns more list listed =>
    have ends := endsStatement_values rest
    rw [← valueList_after, list] at ends
    rw [ends]
    simp [Complete, isInsert, values_complete_iff noColumns]
  | @insertColumns keyword into table rest columns middle values after isInsert isInto named
      columnsRead more list listed =>
    have ends := endsStatement_values middle
    rw [← valueList_after, list] at ends
    rw [ends]
    simp [Complete, isInsert, insert_complete_iff columnsRead more]
  | update isUpdate named isSet clause =>
    rw [endsStatement_whereClause clause]
    simp [Complete, isUpdate, update_complete_iff]
  | deleteFrom isDelete isFrom named clause =>
    rw [endsStatement_whereClause clause]
    simp [Complete, isDelete, deleteFrom_complete_iff isFrom]
  | delete isDelete notFrom named clause =>
    rw [endsStatement_whereClause clause]
    simp [Complete, isDelete, delete_complete_iff notFrom]
  | createTable isCreate isTable named definitions listed =>
    rw [endsStatement_definitions definitions]
    simp [Complete, isCreate, create_complete_iff]

/-- The statement is accepted. -/
def Accepted (sql : List Char) : Prop := ∃ result, parseQuery sql = some result ∧ result.success

theorem accepted_iff (sql : List Char) :
    Accepted sql ↔ (parseQuery sql).any (fun result => result.success) = true := by
  simp [Accepted, Option.any_eq_true]

/-- All tokens of the statement were read, except for at most one semicolon. -/
def ReadToEnd (sql : List Char) : Prop := ∃ rest, unread sql = some rest ∧ EndsStatement rest

/-- An accepted statement is read to its end exactly when nothing follows the
last part that its parser takes. -/
theorem readToEnd_iff_complete (sql : List Char) (accepted : Accepted sql) :
    ReadToEnd sql ↔ Complete (tokenize sql) := by
  obtain ⟨result, parsed, success⟩ := accepted
  obtain ⟨⟨final, stop⟩, statement, rfl⟩ := Option.map_eq_some_iff.mp parsed
  obtain ⟨after, parses, located⟩ := parses_of_success statement success
  rw [← endsStatement_iff_complete parses]
  simp [ReadToEnd, unread, statement, located.2]

/-- The statement with one comparison is accepted and read to its end. -/
theorem readToEnd_oneComparison :
    Accepted "DELETE FROM users WHERE id = 1;".toList ∧
      (ReadToEnd "DELETE FROM users WHERE id = 1;".toList ↔
        Complete (tokenize "DELETE FROM users WHERE id = 1;".toList)) := by
  have accepted : Accepted "DELETE FROM users WHERE id = 1;".toList :=
    (accepted_iff _).mpr (by decide +kernel)
  exact ⟨accepted, readToEnd_iff_complete _ accepted⟩

/-- A second assignment and the `WHERE` after it are dropped: the statement is
accepted as an update of every row. -/
theorem secondAssignment_dropped :
    Accepted "UPDATE users SET name = 1, age = 2 WHERE id = 3".toList ∧
      (parseQuery "UPDATE users SET name = 1, age = 2 WHERE id = 3".toList).map
        (fun result => result.attributes .whereColumn) = some none ∧
      ¬ ReadToEnd "UPDATE users SET name = 1, age = 2 WHERE id = 3".toList := by
  have left : unread "UPDATE users SET name = 1, age = 2 WHERE id = 3".toList =
      some [",".toList, "age".toList, "=".toList, "2".toList, "WHERE".toList, "id".toList,
        "=".toList, "3".toList] := by
    decide +kernel
  refine ⟨(accepted_iff _).mpr (by decide +kernel), by decide +kernel, ?_⟩
  rintro ⟨rest, same, ends⟩
  rw [left] at same
  obtain rfl := Option.some.inj same
  rcases ends with empty | semicolon
  · exact absurd empty (by decide)
  · exact absurd semicolon (by decide)

end MiniDB.Parser
