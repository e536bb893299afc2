import MiniDB.Parser.AcceptedReads
import MiniDB.Parser.CursorSafety
import MiniDB.Parser.ListAttributes

/-!
# Names where names belong

A table, column or operator position takes whatever token comes next, and a list ends at
the end of the statement as well as at its parenthesis. `WellNamed` is the grammar of
the statements whose names are words and whose parentheses are closed; an accepted
statement has names where names belong exactly when it follows that grammar.
-/

namespace MiniDB.Parser

open Foundation

/-! ## Words -/

/-- The symbols and operators of the tokenizer, and `*`. -/
def symbols : List Token :=
  [",".toList, ";".toList, "(".toList, ")".toList, "=".toList, "<".toList, ">".toList, "!".toList,
    "<=".toList, ">=".toList, "!=".toList, "*".toList]

/-- The words that statements are made of. -/
def keywords : List Token :=
  ["SELECT".toList, "FROM".toList, "WHERE".toList, "INSERT".toList, "INTO".toList,
    "VALUES".toList, "UPDATE".toList, "SET".toList, "DELETE".toList, "CREATE".toList,
    "TABLE".toList]

/-- A token that is neither a symbol nor, in any case, a keyword. -/
def IsWord (token : Token) : Prop := token ∉ symbols ∧ toUpper token ∉ keywords

instance (token : Token) : Decidable (IsWord token) := inferInstanceAs (Decidable (_ ∧ _))

/-- The comparison operators. -/
def comparisons : List Token :=
  ["=".toList, "<".toList, ">".toList, "<=".toList, ">=".toList, "!=".toList]

/-- Words, or `*` alone. -/
def ColumnNames (columns : List Token) : Prop :=
  columns = [['*']] ∨ ∀ column ∈ columns, IsWord column

/-! ## What an accepted statement should store -/

/-- The tokens that `ParseQuery` passes without storing them. -/
def skippedTokens (sql : List Char) : List Token :=
  (Client.run Cursor.handle (CursorProgram.parseQuery sql) { tokens := tokenize sql }).2.skipped

/-- The names in the attributes and the collected columns are words, and no parenthesis
that was skipped stays open. -/
structure NamesBelong (tokens : List Token) (result : ParseResult) (depth : Nat) : Prop where
  table : ∀ name ∈ result.attributes .table, IsWord name
  setColumn : ∀ name ∈ result.attributes .setColumn, IsWord name
  whereColumn : ∀ name ∈ result.attributes .whereColumn, IsWord name
  whereOperator : ∀ op ∈ result.attributes .whereOperator, op ∈ comparisons ∨ IsWord op
  columns : ∀ columns ∈ collectedColumns tokens, ColumnNames columns
  closed : depth = 0

/-! ## The grammar -/

/-- No `WHERE` in front, or one comparison of a word. -/
def WhereNamed (tail : List Token) : Prop :=
  (∀ token ∈ tail.head?, toUpper token ≠ "WHERE".toList) ∨
    ∃ keyword column op value rest, tail = keyword :: column :: op :: value :: rest ∧
      toUpper keyword = "WHERE".toList ∧ IsWord column ∧ (op ∈ comparisons ∨ IsWord op)

/-- The columns of a `SELECT`: `*`, or names with commas, closed if they are opened. -/
def SelectColumns (part : List Token) : Prop :=
  part = [['*']] ∨ ∃ names, ColumnNames (withoutCommas names) ∧
    ((names.head? ≠ some ['*'] ∧ (part = names ∨ part = names ++ [[')']])) ∨
      part = ['('] :: (names ++ [[')']]))

def SelectNamed (rest : List Token) : Prop :=
  ∃ part source table tail, rest = part ++ source :: table :: tail ∧ SelectColumns part ∧
    toUpper source = "FROM".toList ∧ IsWord table ∧ WhereNamed tail

/-- What follows an optional `VALUES`. -/
def afterValues (rest : List Token) : List Token :=
  dropIf (fun token => toUpper token = "VALUES".toList) rest

/-- The body of an `INSERT` behind its table name: values that are closed if they are
opened, after a closed list of columns or none; or one pair of parentheses around both. -/
def InsertBody (body : List Token) : Prop :=
  (body.head? ≠ some ['('] ∧ ((afterValues body).head? = some ['('] → [')'] ∈ body)) ∨
    ∃ names, ColumnNames (withoutCommas names) ∧
      ((∃ middle, body = ['('] :: (names ++ [')'] :: middle) ∧
          ((afterValues middle).head? = some ['('] → [')'] ∈ middle)) ∨
        ∃ keyword middle, body = ['('] :: (names ++ keyword :: middle) ∧
          isClauseKeyword keyword = true ∧
          (afterValues (keyword :: middle)).head? ≠ some ['('] ∧ [')'] ∈ middle)

def InsertNamed (rest : List Token) : Prop :=
  ∃ into table body, rest = into :: table :: body ∧ IsWord table ∧ InsertBody body

def UpdateNamed (rest : List Token) : Prop :=
  ∃ table set column equals value tail,
    rest = table :: set :: column :: equals :: value :: tail ∧ IsWord table ∧ IsWord column ∧
      WhereNamed tail

def DeleteNamed (rest : List Token) : Prop :=
  (∃ source table tail, rest = source :: table :: tail ∧ toUpper source = "FROM".toList ∧
      IsWord table ∧ WhereNamed tail) ∨
    ∃ table tail, rest = table :: tail ∧ toUpper table ≠ "FROM".toList ∧ IsWord table ∧
      WhereNamed tail

def CreateNamed (rest : List Token) : Prop :=
  ∃ kind table opening body names, rest = kind :: table :: opening :: body ∧ IsWord table ∧
    ClosedDefinitions body names ∧ ColumnNames names

/-- The statements whose names are words and whose parentheses are closed. -/
def WellNamed : List Token → Prop
  | [] => False
  | keyword :: rest =>
    (toUpper keyword = "SELECT".toList ∧ SelectNamed rest) ∨
      (toUpper keyword = "INSERT".toList ∧ InsertNamed rest) ∨
      (toUpper keyword = "UPDATE".toList ∧ UpdateNamed rest) ∨
      (toUpper keyword = "DELETE".toList ∧ DeleteNamed rest) ∨
      (toUpper keyword = "CREATE".toList ∧ CreateNamed rest)

/-! ## What ends a list of names -/

/-- A word does not end a column list. -/
theorem IsWord.inside {name : Token} (word : IsWord name) : endsColumns name = false := by
  obtain ⟨notSymbol, notKeyword⟩ := word
  simp only [symbols, keywords, List.mem_cons, not_or] at notSymbol notKeyword
  have notClose : name ≠ [')'] := notSymbol.2.2.2.1
  obtain ⟨-, notFrom, notWhere, -, -, notValues, -, notSet, -⟩ := notKeyword
  simp only [endsColumns, isClauseKeyword, Bool.or_eq_false_iff, decide_eq_false_iff_not]
  exact ⟨notClose, ⟨⟨notFrom, notWhere⟩, notValues⟩, notSet⟩

/-- Names do not end a column list. -/
theorem ColumnNames.inside {names : List Token} (named : ColumnNames (withoutCommas names)) :
    ∀ name ∈ names, endsColumns name = false := by
  intro name member
  by_cases comma : name = [',']
  · subst comma
    decide
  have column : name ∈ withoutCommas names := List.mem_filter.mpr ⟨member, by simpa using comma⟩
  rcases named with star | words
  · rw [star, List.mem_singleton] at column
    subst column
    decide
  · exact (words name column).inside

section Columns

variable {names rest tail columns : List Token} {stop : Token}

/-- A list of columns that a bracket closes. -/
theorem columnsIn_closed (inside : ∀ name ∈ names, endsColumns name = false) (rest : List Token)
    (depth : Nat) :
    columnsIn (names ++ [')'] :: rest) = (withoutCommas names, rest) ∧
      columnsDepth (names ++ [')'] :: rest) depth = depth - 1 := by
  have passed : ∀ name ∈ names, (!endsColumns name) = true := by simpa using inside
  refine ⟨?_, ?_⟩
  · rw [columnsIn, List.takeWhile_append_of_pos passed, List.dropWhile_append_of_pos passed]
    simp [endsColumns, dropClose]
  · rw [columnsDepth, List.dropWhile_append_of_pos passed]
    rfl

/-- A list of columns that a keyword ends. -/
theorem columnsIn_ended (inside : ∀ name ∈ names, endsColumns name = false)
    (keyword : isClauseKeyword stop = true) (rest : List Token) (depth : Nat) :
    columnsIn (names ++ stop :: rest) = (withoutCommas names, stop :: rest) ∧
      columnsDepth (names ++ stop :: rest) depth = depth := by
  have passed : ∀ name ∈ names, (!endsColumns name) = true := by simpa using inside
  have ends : endsColumns stop = true := by simp [endsColumns, keyword]
  have notClose : stop ≠ [')'] := by
    rintro rfl
    exact absurd keyword (by decide)
  refine ⟨?_, ?_⟩
  · rw [columnsIn, List.takeWhile_append_of_pos passed, List.dropWhile_append_of_pos passed]
    simp [ends, dropClose, notClose]
  · rw [columnsDepth, List.dropWhile_append_of_pos passed]
    simp [ends, closeDepth, notClose]

/-- A column list that something follows ends at its parenthesis or at a keyword. -/
theorem columnsIn_cases (list : columnsIn rest = (columns, stop :: tail)) :
    ∃ names, columns = withoutCommas names ∧ (∀ name ∈ names, endsColumns name = false) ∧
      (rest = names ++ [')'] :: stop :: tail ∨
        (isClauseKeyword stop = true ∧ rest = names ++ stop :: tail)) := by
  obtain ⟨names, inside, shape⟩ := columnsIn_split list
  refine ⟨names, ?_, inside, shape⟩
  rcases shape with rfl | ⟨keyword, rfl⟩
  · rw [(columnsIn_closed inside (stop :: tail) 0).1] at list
    exact (Prod.mk.inj list).1.symm
  · rw [(columnsIn_ended inside keyword tail 0).1] at list
    exact (Prod.mk.inj list).1.symm

end Columns

/-! ## The parentheses of a list of values -/

variable {tokens rest tail after columns values : List Token} {depth fuel : Nat}
  {keyword source table into : Token} {result final : ParseResult}

/-- A list of values counts its closing bracket, if it has one. -/
theorem valuesDepth_eq (rest : List Token) (depth : Nat) :
    valuesDepth rest depth = if [')'] ∈ rest then depth - 1 else depth := by
  induction rest with
  | nil => rfl
  | cons token rest ih =>
    by_cases close : token = [')']
    · subst close
      rw [valuesDepth_close, if_pos List.mem_cons_self]
    · rw [valuesDepth_cons close, ih]
      simp [Ne.symm close]

/-- The parentheses behind the values of an `INSERT`. -/
theorem valueListDepth_eq (rest : List Token) (depth : Nat) :
    valueListDepth rest depth =
      if (afterValues rest).head? = some ['('] then if [')'] ∈ rest then depth else depth + 1
      else if [')'] ∈ rest then depth - 1 else depth := by
  have sameClose : [')'] ∈ afterValues rest ↔ [')'] ∈ rest := by
    cases rest with
    | nil => rfl
    | cons token rest =>
      rw [afterValues, dropIf]
      split
      · next values =>
        have other : [')'] ≠ token := by
          rintro rfl
          exact absurd values (by decide)
        simp [other]
      · rfl
  rw [valueListDepth, ← afterValues]
  by_cases opened : (afterValues rest).head? = some ['(']
  · rw [if_pos opened, if_pos opened]
    obtain ⟨inner, shape⟩ := List.head?_eq_some_iff.mp opened
    rw [shape] at sameClose ⊢
    have inside : [')'] ∈ inner ↔ [')'] ∈ rest := by simpa using sameClose
    simp [valuesDepth_eq, inside]
  · rw [if_neg opened, if_neg opened, valuesDepth_eq]
    simp [sameClose]

/-! ## The parts of the grammar -/

/-- The column and the operator of the `WHERE` clause are as they should be. -/
def WhereBelongs (result : ParseResult) : Prop :=
  (∀ name ∈ result.attributes .whereColumn, IsWord name) ∧
    ∀ op ∈ result.attributes .whereOperator, op ∈ comparisons ∨ IsWord op

/-- The names of a WHERE clause belong exactly if the grammar names them. -/
theorem whereBelongs_iff (clause : WhereClause result tail final after)
    (noColumn : result.attributes .whereColumn = none)
    (noOperator : result.attributes .whereOperator = none) :
    WhereBelongs final ↔ WhereNamed tail := by
  cases clause with
  | absent noWhere =>
    refine iff_of_true ⟨?_, ?_⟩ (.inl noWhere)
    · simp [noColumn]
    · simp [noOperator]
  | @comparison keyword column op value after isWhere =>
    have belongs : WhereBelongs (((result.set .whereColumn column).set .whereOperator op).set
        .whereValue value) ↔ IsWord column ∧ (op ∈ comparisons ∨ IsWord op) := by
      simp [WhereBelongs, ParseResult.set]
    rw [belongs]
    constructor
    · rintro ⟨word, operator⟩
      exact .inr ⟨keyword, column, op, value, after, rfl, isWhere, word, operator⟩
    · rintro (noWhere | ⟨keyword', column', op', value', rest, shape, -, word, operator⟩)
      · exact absurd isWhere (noWhere keyword rfl)
      · simp only [List.cons.injEq] at shape
        obtain ⟨-, rfl, rfl, -⟩ := shape
        exact ⟨word, operator⟩

/-- Columns that are names and closed follow the grammar. -/
theorem selectColumns_of_named (list : columnList rest = (columns, source :: tail))
    (isKeyword : isClauseKeyword source = true) (named : ColumnNames columns)
    (closed : columnListDepth rest 0 = 0) :
    ∃ part, rest = part ++ source :: tail ∧ SelectColumns part := by
  cases rest with
  | nil => simp [columnList] at list
  | cons first rest =>
    rw [columnList] at list
    rw [columnListDepth] at closed
    by_cases star : first = ['*']
    · rw [if_pos star] at list
      obtain ⟨-, rfl⟩ := Prod.mk.inj list
      exact ⟨[['*']], by rw [star]; rfl, .inl rfl⟩
    rw [if_neg star] at list closed
    by_cases opened : first = ['(']
    · rw [if_pos opened] at list closed
      obtain ⟨names, rfl, inside, rfl | ⟨-, rfl⟩⟩ := columnsIn_cases list
      · exact ⟨['('] :: (names ++ [[')']]), by simp [opened], .inr ⟨names, named, .inr rfl⟩⟩
      · rw [(columnsIn_ended inside isKeyword tail 1).2] at closed
        exact absurd closed Nat.one_ne_zero
    · rw [if_neg opened] at list
      obtain ⟨names, rfl, inside, shape⟩ := columnsIn_cases list
      have notStar : names.head? ≠ some ['*'] := by
        intro head
        obtain ⟨more, rfl⟩ := List.head?_eq_some_iff.mp head
        rcases shape with shape | ⟨-, shape⟩
        · exact star (List.cons.inj shape).1
        · exact star (List.cons.inj shape).1
      rcases shape with shape | ⟨-, shape⟩
      · exact ⟨names ++ [[')']], by simp [shape], .inr ⟨names, named, .inl ⟨notStar, .inr rfl⟩⟩⟩
      · exact ⟨names, shape, .inr ⟨names, named, .inl ⟨notStar, .inl rfl⟩⟩⟩

/-- A list that does not start with `*` or a parenthesis is read from its start. -/
theorem columnList_unopened {first : Token} (notStar : first ≠ ['*']) (notOpen : first ≠ ['('])
    (rest : List Token) (depth : Nat) :
    columnList (first :: rest) = columnsIn (first :: rest) ∧
      columnListDepth (first :: rest) depth = columnsDepth (first :: rest) depth := by
  rw [columnList, columnListDepth, if_neg notStar, if_neg notOpen, if_neg notStar, if_neg notOpen]
  exact ⟨rfl, rfl⟩

/-- The first token behind names that do not start with `*`. -/
theorem names_start {names : List Token} (named : ColumnNames (withoutCommas names))
    (notStar : names.head? ≠ some ['*']) {stop : Token} (stops : stop ≠ ['*'] ∧ stop ≠ ['('])
    (rest : List Token) :
    ∃ first more, names ++ stop :: rest = first :: more ∧ first ≠ ['*'] ∧ first ≠ ['('] := by
  cases names with
  | nil => exact ⟨stop, rest, rfl, stops.1, stops.2⟩
  | cons first names =>
    refine ⟨first, names ++ stop :: rest, rfl, by simpa using notStar, ?_⟩
    rintro rfl
    have column : ['('] ∈ withoutCommas (['('] :: names) :=
      List.mem_filter.mpr ⟨List.mem_cons_self, by decide⟩
    rcases named with star | words
    · rw [star] at column
      exact absurd column (by decide)
    · exact absurd (words _ column) (by decide)

/-- Columns that follow the grammar are read as names, and closed. -/
theorem named_of_selectColumns {part : List Token} (follows : SelectColumns part)
    (isKeyword : isClauseKeyword source = true) (tail : List Token) :
    ∃ columns, columnList (part ++ source :: tail) = (columns, source :: tail) ∧
      ColumnNames columns ∧ columnListDepth (part ++ source :: tail) 0 = 0 := by
  rcases follows with rfl | ⟨names, named, ⟨notStar, rfl | rfl⟩ | rfl⟩
  · exact ⟨[['*']], rfl, .inl rfl, rfl⟩
  · have stops : source ≠ ['*'] ∧ source ≠ ['('] := by
      constructor <;>
      · rintro rfl
        exact absurd isKeyword (by decide)
    obtain ⟨list, closed⟩ := columnsIn_ended named.inside isKeyword tail 0
    obtain ⟨first, more, shape, noStar, noOpen⟩ := names_start named notStar stops tail
    rw [shape] at list closed ⊢
    obtain ⟨sameList, sameDepth⟩ := columnList_unopened noStar noOpen more 0
    exact ⟨_, sameList.trans list, named, sameDepth.trans closed⟩
  · rw [List.append_assoc, List.singleton_append]
    obtain ⟨list, closed⟩ := columnsIn_closed named.inside (source :: tail) 0
    obtain ⟨first, more, shape, noStar, noOpen⟩ :=
      names_start named notStar (show [')'] ≠ ['*'] ∧ [')'] ≠ ['('] by decide) (source :: tail)
    rw [shape] at list closed ⊢
    obtain ⟨sameList, sameDepth⟩ := columnList_unopened noStar noOpen more 0
    exact ⟨_, sameList.trans list, named, sameDepth.trans closed⟩
  · rw [List.cons_append, List.append_assoc, List.singleton_append]
    obtain ⟨list, closed⟩ := columnsIn_closed named.inside (source :: tail) 1
    exact ⟨_, list, named, closed⟩

/-! ## The statements -/

/-- Values behind no open parenthesis are closed if they are opened. -/
theorem valuesClosed_iff (rest : List Token) :
    valueListDepth rest 0 = 0 ↔ ((afterValues rest).head? = some ['('] → [')'] ∈ rest) := by
  rw [valueListDepth_eq]
  by_cases opened : (afterValues rest).head? = some ['('] <;>
    by_cases close : [')'] ∈ rest <;> simp [opened, close]

/-- Values behind an open parenthesis close it if they open none themselves. -/
theorem valuesClose_iff (rest : List Token) :
    valueListDepth rest 1 = 0 ↔ (afterValues rest).head? ≠ some ['('] ∧ [')'] ∈ rest := by
  rw [valueListDepth_eq]
  by_cases opened : (afterValues rest).head? = some ['('] <;>
    by_cases close : [')'] ∈ rest <;> simp [opened, close]

/-- The body of an accepted `INSERT` with columns. -/
theorem insertBody_iff {middle : List Token} (columnsRead : columnsIn rest = (columns, middle))
    (more : middle ≠ []) :
    ColumnNames columns ∧ valueListDepth middle (columnsDepth rest 1) = 0 ↔
      InsertBody (['('] :: rest) := by
  obtain ⟨stop, tail, rfl⟩ := List.exists_cons_of_ne_nil more
  constructor
  · rintro ⟨named, closed⟩
    obtain ⟨names, rfl, inside, rfl | ⟨keyword, rfl⟩⟩ := columnsIn_cases columnsRead
    · rw [(columnsIn_closed inside (stop :: tail) 1).2] at closed
      exact .inr ⟨names, named, .inl ⟨stop :: tail, rfl, (valuesClosed_iff _).mp closed⟩⟩
    · rw [(columnsIn_ended inside keyword tail 1).2] at closed
      obtain ⟨unopened, close⟩ := (valuesClose_iff _).mp closed
      have notClose : [')'] ≠ stop := by
        rintro rfl
        exact absurd keyword (by decide)
      exact .inr ⟨names, named, .inr ⟨stop, tail, rfl, keyword, unopened,
        (List.mem_cons.mp close).resolve_left notClose⟩⟩
  · rintro (⟨unopened, -⟩ | ⟨names, named, ⟨middle, shape, closed⟩ |
      ⟨keyword, middle, shape, isKeyword, unopened, close⟩⟩)
    · exact absurd rfl unopened
    · obtain rfl := (List.cons.inj shape).2
      obtain ⟨read, depth⟩ := columnsIn_closed named.inside middle 1
      rw [read] at columnsRead
      obtain ⟨rfl, rfl⟩ := Prod.mk.inj columnsRead
      rw [depth]
      exact ⟨named, (valuesClosed_iff _).mpr closed⟩
    · obtain rfl := (List.cons.inj shape).2
      obtain ⟨read, depth⟩ := columnsIn_ended named.inside isKeyword middle 1
      rw [read] at columnsRead
      obtain ⟨rfl, same⟩ := Prod.mk.inj columnsRead
      rw [depth, ← same]
      exact ⟨named, (valuesClose_iff _).mpr ⟨unopened, List.mem_cons_of_mem _ close⟩⟩

/-! ## The statements -/

/-- Where the table name, the columns of the statement and the `WHERE` clause belong. -/
theorem namesBelong_iff_parts (tableEq : result.attributes .table = some table) :
    NamesBelong tokens result depth ↔
      IsWord table ∧ (∀ name ∈ result.attributes .setColumn, IsWord name) ∧ WhereBelongs result ∧
        (∀ columns ∈ collectedColumns tokens, ColumnNames columns) ∧ depth = 0 := by
  constructor
  · rintro ⟨word, setColumn, whereColumn, whereOperator, named, closed⟩
    exact ⟨word table tableEq, setColumn, ⟨whereColumn, whereOperator⟩, named, closed⟩
  · rintro ⟨word, setColumn, ⟨whereColumn, whereOperator⟩, named, closed⟩
    exact ⟨by simpa [tableEq] using word, setColumn, whereColumn, whereOperator, named, closed⟩

/-- The names of a SELECT belong exactly if the grammar names them. -/
theorem namesBelong_select (isSelect : toUpper keyword = "SELECT".toList)
    (list : columnList rest = (columns, source :: table :: tail))
    (isFrom : toUpper source = "FROM".toList)
    (clause : WhereClause (((ParseResult.start .select).set .columns (joinComma columns)).set
      .table table) tail final after) :
    NamesBelong (keyword :: rest) final (columnListDepth rest 0) ↔ SelectNamed rest := by
  have isKeyword : ∀ {token : Token}, toUpper token = "FROM".toList →
      isClauseKeyword token = true := by
    intro token from_
    simp [isClauseKeyword, from_]
  have collected := @collectedColumns_select keyword rest isSelect
  have setEq : final.attributes .setColumn = none :=
    clause.attribute_eq (by decide)
  have whereIff := whereBelongs_iff clause rfl rfl
  rw [list] at collected
  rw [namesBelong_iff_parts (clause.attribute_eq (by decide)), whereIff,
    setEq, collected]
  constructor
  · rintro ⟨word, -, whereNamed, named, closed⟩
    obtain ⟨part, rfl, follows⟩ :=
      selectColumns_of_named list (isKeyword isFrom) (named columns rfl) closed
    exact ⟨part, source, table, tail, rfl, follows, isFrom, word, whereNamed⟩
  · rintro ⟨part, source', table', tail', rfl, follows, isFrom', word, whereNamed⟩
    obtain ⟨columns', list', named, closed⟩ :=
      named_of_selectColumns follows (isKeyword isFrom') (table' :: tail')
    rw [list'] at list
    simp only [Prod.mk.injEq, List.cons.injEq] at list
    obtain ⟨rfl, rfl, rfl, rfl⟩ := list
    exact ⟨word, by simp, whereNamed, by simpa using named, closed⟩

/-- So do those of an INSERT without a list of columns. -/
theorem namesBelong_insert (isInsert : toUpper keyword = "INSERT".toList)
    (noColumns : rest.head? ≠ some ['(']) :
    NamesBelong (keyword :: into :: table :: rest)
        (((ParseResult.start .insert).set .table table).set .values (joinComma values))
        (valueListDepth rest 0) ↔
      InsertNamed (into :: table :: rest) := by
  have collected := @collectedColumns_values keyword into table rest isInsert noColumns
  rw [namesBelong_iff_parts (show _ = some table from rfl), collected, valuesClosed_iff]
  constructor
  · rintro ⟨word, -, -, -, closed⟩
    exact ⟨into, table, rest, rfl, word, .inl ⟨noColumns, closed⟩⟩
  · rintro ⟨into', table', body, shape, word, ⟨-, closed⟩ | ⟨names, -, columned⟩⟩
    · simp only [List.cons.injEq] at shape
      obtain ⟨-, rfl, rfl⟩ := shape
      refine ⟨word, ?_, ?_, by simp, closed⟩
      · simp [ParseResult.set, ParseResult.start]
      · simp [WhereBelongs, ParseResult.set, ParseResult.start]
    · simp only [List.cons.injEq] at shape
      obtain ⟨-, -, rfl⟩ := shape
      rcases columned with ⟨middle, rfl, -⟩ | ⟨stop, middle, rfl, -⟩
      · exact absurd rfl noColumns
      · exact absurd rfl noColumns

/-- So do those of an INSERT with a list of columns. -/
theorem namesBelong_insertColumns {middle : List Token}
    (isInsert : toUpper keyword = "INSERT".toList)
    (columnsRead : columnsIn rest = (columns, middle)) (more : middle ≠ []) :
    NamesBelong (keyword :: into :: table :: ['('] :: rest)
        ((((ParseResult.start .insert).set .table table).set .columns (joinComma columns)).set
          .values (joinComma values))
        (valueListDepth middle (columnsDepth rest 1)) ↔
      InsertNamed (into :: table :: ['('] :: rest) := by
  have collected := @collectedColumns_insertColumns keyword into table rest isInsert
  have bodyIff := insertBody_iff columnsRead more
  rw [columnsRead] at collected
  rw [namesBelong_iff_parts (show _ = some table from rfl), collected]
  constructor
  · rintro ⟨word, -, -, named, closed⟩
    exact ⟨into, table, ['('] :: rest, rfl, word, bodyIff.mp ⟨named columns rfl, closed⟩⟩
  · rintro ⟨into', table', body, shape, word, follows⟩
    simp only [List.cons.injEq] at shape
    obtain ⟨-, rfl, rfl⟩ := shape
    obtain ⟨named, closed⟩ := bodyIff.mpr follows
    refine ⟨word, ?_, ?_, by simpa using named, closed⟩
    · simp [ParseResult.set, ParseResult.start]
    · simp [WhereBelongs, ParseResult.set, ParseResult.start]

/-- So do those of an UPDATE. -/
theorem namesBelong_update {set column value : Token} (isUpdate : toUpper keyword = "UPDATE".toList)
    (clause : WhereClause ((((ParseResult.start .update).set .table table).set .setColumn
      column).set .setValue value) tail final after) :
    NamesBelong (keyword :: table :: set :: column :: ['='] :: value :: tail) final 0 ↔
      UpdateNamed (table :: set :: column :: ['='] :: value :: tail) := by
  have collected : collectedColumns (keyword :: table :: set :: column :: ['='] :: value :: tail) =
      none := by simp [collectedColumns, isUpdate]
  have setEq : final.attributes .setColumn = some column :=
    clause.attribute_eq (by decide)
  rw [namesBelong_iff_parts (clause.attribute_eq (by decide)),
    whereBelongs_iff clause rfl rfl, setEq, collected]
  constructor
  · rintro ⟨word, setWord, whereNamed, -, -⟩
    exact ⟨table, set, column, ['='], value, tail, rfl, word, setWord column rfl, whereNamed⟩
  · rintro ⟨table', set', column', equals, value', tail', shape, word, setWord, whereNamed⟩
    simp only [List.cons.injEq] at shape
    obtain ⟨rfl, rfl, rfl, rfl, rfl, rfl⟩ := shape
    exact ⟨word, by simpa using setWord, whereNamed, by simp, rfl⟩

/-- A `DELETE` has no names but its table and those of its `WHERE` clause. -/
theorem namesBelong_table (noColumns : collectedColumns tokens = none)
    (clause : WhereClause ((ParseResult.start .delete).set .table table) tail final after) :
    NamesBelong tokens final 0 ↔ IsWord table ∧ WhereNamed tail := by
  have setEq : final.attributes .setColumn = none := clause.attribute_eq (by decide)
  rw [namesBelong_iff_parts (clause.attribute_eq (by decide)),
    whereBelongs_iff clause rfl rfl, setEq, noColumns]
  constructor
  · rintro ⟨word, -, whereNamed, -, -⟩
    exact ⟨word, whereNamed⟩
  · rintro ⟨word, whereNamed⟩
    exact ⟨word, by simp, whereNamed, by simp, rfl⟩

/-- So do those of a DELETE with FROM. -/
theorem namesBelong_deleteFrom (isDelete : toUpper keyword = "DELETE".toList)
    (isFrom : toUpper source = "FROM".toList)
    (clause : WhereClause ((ParseResult.start .delete).set .table table) tail final after) :
    NamesBelong (keyword :: source :: table :: tail) final 0 ↔
      DeleteNamed (source :: table :: tail) := by
  rw [namesBelong_table (by simp [collectedColumns, isDelete]) clause]
  constructor
  · rintro ⟨word, whereNamed⟩
    exact .inl ⟨source, table, tail, rfl, isFrom, word, whereNamed⟩
  · rintro (⟨source', table', tail', shape, -, follows⟩ | ⟨table', tail', shape, notFrom, -⟩)
    · simp only [List.cons.injEq] at shape
      obtain ⟨rfl, rfl, rfl⟩ := shape
      exact follows
    · obtain ⟨rfl, -⟩ := List.cons.inj shape
      exact absurd isFrom notFrom

/-- So do those of a DELETE without FROM. -/
theorem namesBelong_delete (isDelete : toUpper keyword = "DELETE".toList)
    (notFrom : toUpper table ≠ "FROM".toList)
    (clause : WhereClause ((ParseResult.start .delete).set .table table) tail final after) :
    NamesBelong (keyword :: table :: tail) final 0 ↔ DeleteNamed (table :: tail) := by
  rw [namesBelong_table (by simp [collectedColumns, isDelete]) clause]
  constructor
  · rintro ⟨word, whereNamed⟩
    exact .inr ⟨table, tail, rfl, notFrom, word, whereNamed⟩
  · rintro (⟨source', table', tail', shape, isFrom, -⟩ | ⟨table', tail', shape, -, follows⟩)
    · obtain ⟨rfl, -⟩ := List.cons.inj shape
      exact absurd isFrom notFrom
    · obtain ⟨rfl, rfl⟩ := List.cons.inj shape
      exact follows

/-- The definitions of an accepted `CREATE TABLE`, read behind its opening parenthesis. -/
theorem closedDefinitions_iff {stop : List Token} {depth' pos : Nat} (located : At tokens pos rest)
    (read : Reads tokens (CursorProgram.definitionLoop fuel []) rest 1 columns stop depth')
    (enough : rest.length < fuel) (grows : 1 ≤ depth')
    (closed : depth' = 1 → stop.head? = some [')'] → ClosedDefinitions rest columns)
    (names : List Token) :
    ClosedDefinitions rest names ↔ columns = names ∧ closeDepth stop depth' = 0 := by
  constructor
  · intro definitions
    obtain ⟨beyond, readClosed⟩ :=
      @Reads.definitionLoop_closed tokens rest names 1 definitions fuel [] enough
    obtain ⟨same, rfl, rfl⟩ := read.unique located readClosed
    exact ⟨same, rfl⟩
  · rintro ⟨rfl, noneOpen⟩
    rw [closeDepth] at noneOpen
    split at noneOpen
    · next ends => exact closed (by omega) ends
    · omega

/-- So do those of a CREATE TABLE. -/
theorem namesBelong_createTable {kind : Token} {stop : List Token} {depth' : Nat}
    (isCreate : toUpper keyword = "CREATE".toList) (definitions : Definitions rest columns stop)
    (closedIff : ∀ names, ClosedDefinitions rest names ↔
      columns = names ∧ closeDepth stop depth' = 0) :
    NamesBelong (keyword :: kind :: table :: ['('] :: rest)
        (((ParseResult.start .createTable).set .table table).set .columns (joinComma columns))
        (closeDepth stop depth') ↔
      CreateNamed (kind :: table :: ['('] :: rest) := by
  have collected := @collectedColumns_createTable keyword table kind rest columns stop isCreate
    definitions
  rw [namesBelong_iff_parts (show _ = some table from rfl), collected]
  constructor
  · rintro ⟨word, -, -, named, closed⟩
    exact ⟨kind, table, ['('], rest, columns, rfl, word, (closedIff columns).mpr ⟨rfl, closed⟩,
      named columns rfl⟩
  · rintro ⟨kind', table', opening, body, names, shape, word, follows, named⟩
    simp only [List.cons.injEq] at shape
    obtain ⟨-, rfl, -, rfl⟩ := shape
    obtain ⟨rfl, closed⟩ := (closedIff names).mp follows
    refine ⟨word, ?_, ?_, by simpa using named, closed⟩
    · simp [ParseResult.set, ParseResult.start]
    · simp [WhereBelongs, ParseResult.set, ParseResult.start]

/-! ## The dispatch on the first token -/

section Dispatch

variable {carried : ParseResult}

theorem Reads.dispatch_insert (isInsert : toUpper keyword = "INSERT".toList)
    (read : Reads (keyword :: rest) (CursorProgram.parseInsert fuel) (keyword :: rest) 0 result
      after depth) :
    Reads (keyword :: rest) (CursorProgram.parseStatement fuel carried) (keyword :: rest) 0 result
      after depth := by
  refine (Reads.tokenAt rfl).bind (Reads.ite_neg ?_ (Reads.ite_pos isInsert read))
  rw [isInsert]
  decide

theorem Reads.dispatch_update (isUpdate : toUpper keyword = "UPDATE".toList)
    (read : Reads (keyword :: rest) CursorProgram.parseUpdate (keyword :: rest) 0 result after
      depth) :
    Reads (keyword :: rest) (CursorProgram.parseStatement fuel carried) (keyword :: rest) 0 result
      after depth := by
  refine (Reads.tokenAt rfl).bind
    (Reads.ite_neg ?_ (Reads.ite_neg ?_ (Reads.ite_pos isUpdate read)))
  all_goals
    rw [isUpdate]
    decide

theorem Reads.dispatch_delete (isDelete : toUpper keyword = "DELETE".toList)
    (read : Reads (keyword :: rest) CursorProgram.parseDelete (keyword :: rest) 0 result after
      depth) :
    Reads (keyword :: rest) (CursorProgram.parseStatement fuel carried) (keyword :: rest) 0 result
      after depth := by
  refine (Reads.tokenAt rfl).bind
    (Reads.ite_neg ?_ (Reads.ite_neg ?_ (Reads.ite_neg ?_ (Reads.ite_pos isDelete read))))
  all_goals
    rw [isDelete]
    decide

theorem Reads.dispatch_create {kind : Token} (isCreate : toUpper keyword = "CREATE".toList)
    (isTable : toUpper kind = "TABLE".toList)
    (read : Reads (keyword :: kind :: rest) (CursorProgram.parseCreateTable fuel)
      (keyword :: kind :: rest) 0 result after depth) :
    Reads (keyword :: kind :: rest) (CursorProgram.parseStatement fuel carried)
      (keyword :: kind :: rest) 0 result after depth := by
  refine (Reads.tokenAt rfl).bind (Reads.ite_neg ?_ (Reads.ite_neg ?_ (Reads.ite_neg ?_
    (Reads.ite_neg ?_ (Reads.ite_pos isCreate (Reads.size.bind (Reads.ite_pos (by simp)
      ((Reads.tokenAt rfl).bind (Reads.ite_pos isTable read)))))))))
  all_goals
    rw [isCreate]
    decide

end Dispatch

/-- An accepted statement is read with so many parentheses left open that its names
belong just when it follows the grammar. -/
theorem reads_of_parses (parses : Parses tokens result after) (carried : ParseResult) :
    ∃ depth, Reads tokens (CursorProgram.parseStatement (tokens.length + 1) carried) tokens 0 result
        after depth ∧
      (NamesBelong tokens result depth ↔ WellNamed tokens) := by
  cases parses with
  | @select keyword source table rest columns tail after result isSelect list listed isFrom named
      clause =>
    refine ⟨columnListDepth rest 0, (Reads.tokenAt rfl).bind (Reads.ite_pos isSelect ?_), ?_⟩
    · exact Reads.select isSelect list listed isFrom named clause (by grind)
    · rw [namesBelong_select isSelect list isFrom clause]
      simp [WellNamed, isSelect]
  | @insert keyword into table rest values after isInsert isInto named noColumns more list listed =>
    refine ⟨valueListDepth rest 0, Reads.dispatch_insert isInsert ?_, ?_⟩
    · exact Reads.insert isInsert isInto named noColumns more list listed (by simp; omega)
    · rw [namesBelong_insert isInsert noColumns]
      simp [WellNamed, isInsert]
  | @insertColumns keyword into table rest columns middle values after isInsert isInto named
      columnsRead more list listed =>
    refine ⟨valueListDepth middle (columnsDepth rest 1), Reads.dispatch_insert isInsert ?_, ?_⟩
    · exact Reads.insertColumns isInsert isInto named columnsRead more list listed (by simp)
    · rw [namesBelong_insertColumns isInsert columnsRead more]
      simp [WellNamed, isInsert]
  | update isUpdate named isSet clause =>
    refine ⟨0, Reads.dispatch_update isUpdate (Reads.update isUpdate named isSet clause), ?_⟩
    rw [namesBelong_update isUpdate clause]
    simp [WellNamed, isUpdate]
  | deleteFrom isDelete isFrom named clause =>
    refine ⟨0, Reads.dispatch_delete isDelete (Reads.deleteFrom isDelete isFrom named clause), ?_⟩
    rw [namesBelong_deleteFrom isDelete isFrom clause]
    simp [WellNamed, isDelete]
  | delete isDelete notFrom named clause =>
    refine ⟨0, Reads.dispatch_delete isDelete (Reads.delete isDelete notFrom named clause), ?_⟩
    rw [namesBelong_delete isDelete notFrom clause]
    simp [WellNamed, isDelete]
  | @createTable keyword kind table rest columns stop isCreate isTable named definitions listed =>
    have located := (At.start (keyword :: kind :: table :: ['('] :: rest)).next.next.next.next
    have enough : rest.length < (keyword :: kind :: table :: ['('] :: rest).length + 1 := by
      simp only [List.length_cons]
      omega
    obtain ⟨depth', read, grows, closed⟩ :=
      @Reads.definitionLoop (keyword :: kind :: table :: ['('] :: rest) rest columns stop definitions
        _ 1 [] enough
    refine ⟨closeDepth stop depth', Reads.dispatch_create isCreate isTable ?_, ?_⟩
    · exact Reads.createTable isCreate isTable named listed read
    · rw [namesBelong_createTable isCreate definitions
        (closedDefinitions_iff located read enough grows closed)]
      simp [WellNamed, isCreate]

/-- The names of an accepted statement are words, and every parenthesis that was skipped
is closed, exactly when the statement follows the grammar. -/
theorem namesBelong_iff {sql : List Char} {result : ParseResult}
    (parsed : parseQuery sql = some result) (accepted : result.success = true) :
    NamesBelong (tokenize sql) result (unclosed (skippedTokens sql)) ↔ WellNamed (tokenize sql) := by
  obtain ⟨⟨final, stop⟩, statement, rfl⟩ := Option.map_eq_some_iff.mp parsed
  obtain ⟨after, parses, -⟩ := parses_of_success statement accepted
  obtain ⟨depth, reads, wellNamed⟩ := reads_of_parses parses { tokens := tokenize sql }
  have nonempty : tokenize sql ≠ [] := by
    intro empty
    rw [empty] at parses
    cases parses
  have skipped : unclosed (skippedTokens sql) = depth := by
    obtain ⟨cursor, checked, -, -, open_⟩ :=
      reads.parseQuery nonempty { tokens := tokenize sql } rfl (At.start _) rfl
    obtain ⟨-, ran⟩ := Client.checked_eq_some_iff.mp checked
    rw [skippedTokens, ran]
    exact open_
  rw [skipped, ← wellNamed]
  constructor
  · rintro ⟨table, setColumn, whereColumn, whereOperator, columns, closed⟩
    exact ⟨table, setColumn, whereColumn, whereOperator, columns, closed⟩
  · rintro ⟨table, setColumn, whereColumn, whereOperator, columns, closed⟩
    exact ⟨table, setColumn, whereColumn, whereOperator, columns, closed⟩

/-- A statement that follows the grammar. -/
theorem namesBelong_iff_createTable :
    ∃ result,
      parseQuery "CREATE TABLE users (id INT, name VARCHAR(10))".toList = some result ∧
        (NamesBelong (tokenize "CREATE TABLE users (id INT, name VARCHAR(10))".toList) result
            (unclosed (skippedTokens "CREATE TABLE users (id INT, name VARCHAR(10))".toList)) ↔
          WellNamed (tokenize "CREATE TABLE users (id INT, name VARCHAR(10))".toList)) := by
  obtain ⟨result, parsed, accepted⟩ :
      Accepted "CREATE TABLE users (id INT, name VARCHAR(10))".toList :=
    (accepted_iff _).mpr (by decide +kernel)
  exact ⟨result, parsed, namesBelong_iff parsed accepted⟩

/-- A missing table name is not noticed: the keyword after `FROM` is taken as the name,
and the statement is accepted as a deletion without a condition. -/
theorem keyword_as_name :
    ∃ result, parseQuery "DELETE FROM WHERE id = 1".toList = some result ∧
      result.success = true ∧ result.attributes .table = some "WHERE".toList ∧
      result.attributes .whereColumn = none ∧
      ¬ NamesBelong (tokenize "DELETE FROM WHERE id = 1".toList) result
        (unclosed (skippedTokens "DELETE FROM WHERE id = 1".toList)) := by
  obtain ⟨result, parsed, accepted⟩ : Accepted "DELETE FROM WHERE id = 1".toList :=
    (accepted_iff _).mpr (by decide +kernel)
  have attributes : (parseQuery "DELETE FROM WHERE id = 1".toList).map (fun result =>
      (result.attributes .table, result.attributes .whereColumn)) =
        some (some "WHERE".toList, none) := by decide +kernel
  rw [parsed] at attributes
  obtain ⟨tableEq, whereEq⟩ := Prod.mk.inj (Option.some.inj attributes)
  refine ⟨result, parsed, accepted, tableEq, whereEq, fun belongs => ?_⟩
  exact absurd (belongs.table _ tableEq) (by decide)

end MiniDB.Parser
