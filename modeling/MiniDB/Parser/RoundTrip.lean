import MiniDB.Parser.Printing
import MiniDB.Parser.Statements

/-!
# Parsing undoes printing

`Statement` is the abstract syntax of the supported statements. A statement is
printed as its token sequence with any whitespace and an optional semicolon, and
`ParseQuery` gives back its type and exactly its attributes.
-/

namespace MiniDB.Parser

/-! ## Abstract syntax -/

/-- A non-empty word without whitespace, quotes or symbols. -/
structure Word where
  text : Token
  nonempty : text ≠ []
  plain : text.all isPlain = true

/-- A word that is not reserved: no clause keyword, no `*`, no type or constraint keyword. -/
structure Name extends Word where
  notClause : isClauseKeyword text = false
  notStar : text ≠ ['*']
  notType : isTypeKeyword text = false

/-- A value: a word or a terminated quoted literal. -/
inductive Value where
  | word (name : Name)
  | literal (quote : Char) (isQuote : isQuote quote = true) (text : List Char)

/-- The comparison operators. -/
inductive Operator where
  | equal
  | less
  | greater
  | lessEqual
  | greaterEqual
  | notEqual

/-- One comparison after `WHERE`. -/
structure Comparison where
  column : Name
  operator : Operator
  value : Value

/-- The column types. -/
inductive ColumnType where
  | int
  | integer
  | char
  | varchar
  | text

/-- The column constraints. -/
inductive Constraint where
  | primaryKey
  | notNull

/-- A column definition, with an optional size after the type. -/
structure ColumnDefinition where
  name : Name
  type : ColumnType
  size : Option Word
  constraints : List Constraint

/-- The supported statements. A list that may not be empty is given by its first
element and the others. -/
inductive Statement where
  | selectAll (table : Name) (condition : Option Comparison)
  | select (first : Name) (others : List Name) (table : Name) (condition : Option Comparison)
  | insert (table : Name) (columns : Option (Name × List Name)) (first : Value)
      (others : List Value)
  | update (table column : Name) (value : Value) (condition : Option Comparison)
  | delete (table : Name) (condition : Option Comparison)
  | createTable (table : Name) (first : ColumnDefinition) (others : List ColumnDefinition)

/-! ## Printing -/

def Value.token : Value → Token
  | .word name => name.text
  | .literal quote _ text => quoted quote text

def Operator.token : Operator → Token
  | .equal => ['=']
  | .less => ['<']
  | .greater => ['>']
  | .lessEqual => ['<', '=']
  | .greaterEqual => ['>', '=']
  | .notEqual => ['!', '=']

def ColumnType.token : ColumnType → Token
  | .int => "INT".toList
  | .integer => "INTEGER".toList
  | .char => "CHAR".toList
  | .varchar => "VARCHAR".toList
  | .text => "TEXT".toList

def Constraint.tokens : Constraint → List Token
  | .primaryKey => ["PRIMARY".toList, "KEY".toList]
  | .notNull => ["NOT".toList, "NULL".toList]

/-- The tokens of the elements, with a comma in front of each. -/
def commaTokens (elements : List (List Token)) : List Token :=
  elements.flatMap fun tokens => [','] :: tokens

/-- A list of names or values, separated by commas. -/
def listTokens (first : Token) (others : List Token) : List Token :=
  first :: commaTokens (others.map fun token => [token])

def Comparison.tokens (comparison : Comparison) : List Token :=
  ["WHERE".toList, comparison.column.text, comparison.operator.token, comparison.value.token]

def conditionTokens (condition : Option Comparison) : List Token :=
  (condition.map Comparison.tokens).getD []

def sizeTokens (size : Option Word) : List Token :=
  (size.map fun word => [['('], word.text, [')']]).getD []

def ColumnDefinition.tokens (definition : ColumnDefinition) : List Token :=
  definition.name.text :: definition.type.token ::
    (sizeTokens definition.size ++ definition.constraints.flatMap Constraint.tokens)

def columnsTokens (columns : Option (Name × List Name)) : List Token :=
  (columns.map fun (first, others) =>
    ['('] :: (listTokens first.text (others.map fun name => name.text) ++ [[')']])).getD []

/-- The tokens of a statement. -/
def Statement.tokens : Statement → List Token
  | .selectAll table condition =>
    "SELECT".toList :: ['*'] :: "FROM".toList :: table.text :: conditionTokens condition
  | .select first others table condition =>
    "SELECT".toList :: (listTokens first.text (others.map fun name => name.text) ++
      "FROM".toList :: table.text :: conditionTokens condition)
  | .insert table columns first others =>
    "INSERT".toList :: "INTO".toList :: table.text :: (columnsTokens columns ++
      "VALUES".toList :: ['('] :: (listTokens first.token (others.map Value.token) ++ [[')']]))
  | .update table column value condition =>
    "UPDATE".toList :: table.text :: "SET".toList :: column.text :: ['='] :: value.token ::
      conditionTokens condition
  | .delete table condition =>
    "DELETE".toList :: "FROM".toList :: table.text :: conditionTokens condition
  | .createTable table first others =>
    "CREATE".toList :: "TABLE".toList :: table.text :: ['('] ::
      (first.tokens ++ commaTokens (others.map ColumnDefinition.tokens) ++ [[')']])

/-- The optional semicolon. -/
def ending (semicolon : Bool) : List Token := if semicolon then [[';']] else []

/-- The tokens of a statement with an optional semicolon. -/
def Statement.terminated (statement : Statement) (semicolon : Bool) : List Token :=
  statement.tokens ++ ending semicolon

/-! ## The attributes of a statement -/

def Statement.type : Statement → StatementType
  | .selectAll .. => .select
  | .select .. => .select
  | .insert .. => .insert
  | .update .. => .update
  | .delete .. => .delete
  | .createTable .. => .createTable

def Statement.table : Statement → Name
  | .selectAll table _ => table
  | .select _ _ table _ => table
  | .insert table _ _ _ => table
  | .update table _ _ _ => table
  | .delete table _ => table
  | .createTable table _ _ => table

def Statement.condition : Statement → Option Comparison
  | .selectAll _ condition => condition
  | .select _ _ _ condition => condition
  | .update _ _ _ condition => condition
  | .delete _ condition => condition
  | _ => none

/-- The columns that a statement names. -/
def Statement.columns : Statement → Option (List Token)
  | .selectAll _ _ => some [['*']]
  | .select first others _ _ => some (first.text :: others.map fun name => name.text)
  | .insert _ columns _ _ =>
    columns.map fun (first, others) => first.text :: others.map fun name => name.text
  | .createTable _ first others =>
    some (first.name.text :: others.map fun definition => definition.name.text)
  | _ => none

/-- The values that a statement inserts. -/
def Statement.values : Statement → Option (List Token)
  | .insert _ _ first others => some (first.token :: others.map Value.token)
  | _ => none

/-- The assignment that a statement makes. -/
def Statement.assignment : Statement → Option (Name × Value)
  | .update _ column value _ => some (column, value)
  | _ => none

/-- The attributes that `ParseQuery` has to report. -/
def Statement.attributes (statement : Statement) : Attribute → Option Token
  | .table => some statement.table.text
  | .columns => statement.columns.map joinComma
  | .values => statement.values.map joinComma
  | .setColumn => statement.assignment.map fun (column, _) => column.text
  | .setValue => statement.assignment.map fun (_, value) => value.token
  | .whereColumn => statement.condition.map fun comparison => comparison.column.text
  | .whereOperator => statement.condition.map fun comparison => comparison.operator.token
  | .whereValue => statement.condition.map fun comparison => comparison.value.token

/-- The result of parsing a statement, without the tokens. -/
def Statement.result (statement : Statement) : ParseResult :=
  { type := statement.type, attributes := statement.attributes, success := true }

/-! ## The tokens can be printed -/

/-- A word is one token of the tokenizer. -/
theorem Word.lexeme (word : Word) : Lexeme word.text := .word word.nonempty word.plain

/-- A value is one token, a quoted one with its quotes. -/
theorem Value.lexeme (value : Value) : Lexeme value.token := by
  cases value with
  | word name => exact name.lexeme
  | literal quote isQuote text => exact .literal text isQuote

/-- An operator is one token. -/
theorem Operator.lexeme (operator : Operator) : Lexeme operator.token := by
  cases operator with
  | equal => exact .symbol (by decide)
  | less => exact .symbol (by decide)
  | greater => exact .symbol (by decide)
  | lessEqual => exact .operator (by decide)
  | greaterEqual => exact .operator (by decide)
  | notEqual => exact .operator (by decide)

/-- A type is one token. -/
theorem ColumnType.lexeme (type : ColumnType) : Lexeme type.token := by
  cases type <;> exact .word (by decide) (by decide)

/-- Every token of the list can be printed. -/
def Lexemes (tokens : List Token) : Prop := ∀ token ∈ tokens, Lexeme token

@[simp] theorem lexemes_nil : Lexemes [] := by simp [Lexemes]

@[simp] theorem lexemes_cons {token : Token} {tokens : List Token} :
    Lexemes (token :: tokens) ↔ Lexeme token ∧ Lexemes tokens := by simp [Lexemes]

@[simp] theorem lexemes_append {first second : List Token} :
    Lexemes (first ++ second) ↔ Lexemes first ∧ Lexemes second := by
  simp only [Lexemes, List.mem_append]
  constructor
  · intro all
    exact ⟨fun token member => all token (.inl member), fun token member => all token (.inr member)⟩
  · rintro ⟨left, right⟩ token (member | member)
    · exact left token member
    · exact right token member

/-- Tokens of several elements, element by element. -/
theorem lexemes_flatMap {α : Type} {elements : List α} {tokens : α → List Token}
    (each : ∀ element ∈ elements, Lexemes (tokens element)) : Lexemes (elements.flatMap tokens) := by
  intro token member
  obtain ⟨element, here, inside⟩ := List.mem_flatMap.mp member
  exact each element here token inside

theorem lexeme_comma : Lexeme [','] := .symbol (by decide)
theorem lexeme_open : Lexeme ['('] := .symbol (by decide)
theorem lexeme_close : Lexeme [')'] := .symbol (by decide)

/-- Elements with commas between them. -/
theorem lexemes_commaTokens {elements : List (List Token)} (each : ∀ tokens ∈ elements, Lexemes tokens) :
    Lexemes (commaTokens elements) :=
  lexemes_flatMap fun tokens member => lexemes_cons.mpr ⟨lexeme_comma, each tokens member⟩

/-- A list of tokens with commas between them. -/
theorem lexemes_listTokens {first : Token} {others : List Token} (head : Lexeme first)
    (tail : ∀ token ∈ others, Lexeme token) : Lexemes (listTokens first others) := by
  refine lexemes_cons.mpr ⟨head, lexemes_commaTokens ?_⟩
  simpa using tail

theorem lexemes_names (first : Name) (others : List Name) :
    Lexemes (listTokens first.text (others.map fun name => name.text)) := by
  refine lexemes_listTokens first.lexeme fun token member => ?_
  obtain ⟨name, -, rfl⟩ := List.mem_map.mp member
  exact name.lexeme

theorem lexemes_values (first : Value) (others : List Value) :
    Lexemes (listTokens first.token (others.map Value.token)) := by
  refine lexemes_listTokens first.lexeme fun token member => ?_
  obtain ⟨value, -, rfl⟩ := List.mem_map.mp member
  exact value.lexeme

/-- A WHERE clause, if there is one. -/
theorem lexemes_condition (condition : Option Comparison) : Lexemes (conditionTokens condition) := by
  cases condition with
  | none => exact lexemes_nil
  | some comparison =>
    simpa [conditionTokens, Comparison.tokens, comparison.column.lexeme,
      comparison.operator.lexeme, comparison.value.lexeme] using
      (Lexeme.word (by decide) (by decide) : Lexeme "WHERE".toList)

/-- A column definition. -/
theorem ColumnDefinition.lexemes (definition : ColumnDefinition) : Lexemes definition.tokens := by
  refine lexemes_cons.mpr ⟨definition.name.lexeme, lexemes_cons.mpr ⟨definition.type.lexeme,
    lexemes_append.mpr ⟨?_, lexemes_flatMap fun constraint _ => ?_⟩⟩⟩
  · cases definition.size with
    | none => exact lexemes_nil
    | some word => simp [sizeTokens, lexeme_open, lexeme_close, word.lexeme]
  · cases constraint with
    | primaryKey =>
      exact lexemes_cons.mpr ⟨.word (by decide) (by decide),
        lexemes_cons.mpr ⟨.word (by decide) (by decide), lexemes_nil⟩⟩
    | notNull =>
      exact lexemes_cons.mpr ⟨.word (by decide) (by decide),
        lexemes_cons.mpr ⟨.word (by decide) (by decide), lexemes_nil⟩⟩

/-- INSERT's list of columns, if there is one. -/
theorem lexemes_columns (columns : Option (Name × List Name)) : Lexemes (columnsTokens columns) := by
  cases columns with
  | none => exact lexemes_nil
  | some columns => simp [columnsTokens, lexeme_open, lexeme_close, lexemes_names]

/-- The keywords of the statements. -/
theorem lexeme_keyword {keyword : Token} (isKeyword : keyword ∈ ["SELECT".toList, "FROM".toList,
    "INSERT".toList, "INTO".toList, "VALUES".toList, "UPDATE".toList, "SET".toList,
    "DELETE".toList, "CREATE".toList, "TABLE".toList, ['*']]) : Lexeme keyword := by
  have nonempty : ∀ token ∈ ["SELECT".toList, "FROM".toList, "INSERT".toList, "INTO".toList,
      "VALUES".toList, "UPDATE".toList, "SET".toList, "DELETE".toList, "CREATE".toList,
      "TABLE".toList, ['*']], token ≠ [] ∧ token.all isPlain = true := by decide
  obtain ⟨filled, plain⟩ := nonempty keyword isKeyword
  exact .word filled plain

/-- Every token of a statement is one of the tokenizer's. -/
theorem Statement.lexemes (statement : Statement) (semicolon : Bool) :
    Lexemes (statement.terminated semicolon) := by
  have ends : Lexemes (ending semicolon) := by
    cases semicolon with
    | false => exact lexemes_nil
    | true => exact lexemes_cons.mpr ⟨.symbol (by decide), lexemes_nil⟩
  refine lexemes_append.mpr ⟨?_, ends⟩
  cases statement with
  | selectAll table condition =>
    exact lexemes_cons.mpr ⟨lexeme_keyword (by decide), lexemes_cons.mpr ⟨lexeme_keyword (by decide),
      lexemes_cons.mpr ⟨lexeme_keyword (by decide), lexemes_cons.mpr ⟨table.lexeme,
        lexemes_condition condition⟩⟩⟩⟩
  | select first others table condition =>
    exact lexemes_cons.mpr ⟨lexeme_keyword (by decide), lexemes_append.mpr
      ⟨lexemes_names first others, lexemes_cons.mpr ⟨lexeme_keyword (by decide),
        lexemes_cons.mpr ⟨table.lexeme, lexemes_condition condition⟩⟩⟩⟩
  | insert table columns first others =>
    exact lexemes_cons.mpr ⟨lexeme_keyword (by decide), lexemes_cons.mpr ⟨lexeme_keyword (by decide),
      lexemes_cons.mpr ⟨table.lexeme, lexemes_append.mpr ⟨lexemes_columns columns,
        lexemes_cons.mpr ⟨lexeme_keyword (by decide), lexemes_cons.mpr ⟨lexeme_open,
          lexemes_append.mpr ⟨lexemes_values first others,
            lexemes_cons.mpr ⟨lexeme_close, lexemes_nil⟩⟩⟩⟩⟩⟩⟩⟩
  | update table column value condition =>
    exact lexemes_cons.mpr ⟨lexeme_keyword (by decide), lexemes_cons.mpr ⟨table.lexeme,
      lexemes_cons.mpr ⟨lexeme_keyword (by decide), lexemes_cons.mpr ⟨column.lexeme,
        lexemes_cons.mpr ⟨.symbol (by decide), lexemes_cons.mpr ⟨value.lexeme,
          lexemes_condition condition⟩⟩⟩⟩⟩⟩
  | delete table condition =>
    exact lexemes_cons.mpr ⟨lexeme_keyword (by decide), lexemes_cons.mpr ⟨lexeme_keyword (by decide),
      lexemes_cons.mpr ⟨table.lexeme, lexemes_condition condition⟩⟩⟩
  | createTable table first others =>
    refine lexemes_cons.mpr ⟨lexeme_keyword (by decide), lexemes_cons.mpr
      ⟨lexeme_keyword (by decide), lexemes_cons.mpr ⟨table.lexeme, lexemes_cons.mpr ⟨lexeme_open,
        lexemes_append.mpr ⟨lexemes_append.mpr ⟨first.lexemes, lexemes_commaTokens ?_⟩,
          lexemes_cons.mpr ⟨lexeme_close, lexemes_nil⟩⟩⟩⟩⟩⟩
    intro tokens member
    obtain ⟨definition, -, rfl⟩ := List.mem_map.mp member
    exact definition.lexemes

/-! ## The tokens parse to the statement -/

/-- A word is no separator. -/
theorem Word.ne_symbol (word : Word) {c : Char} (symbol : isSymbol c = true) : word.text ≠ [c] := by
  intro same
  have plain := List.all_eq_true.mp word.plain c (by simp [same])
  simp [isPlain, symbol] at plain

/-- A value is no symbol. -/
theorem Value.ne_symbol (value : Value) {c : Char} (symbol : isSymbol c = true) :
    value.token ≠ [c] := by
  cases value with
  | word name => exact name.ne_symbol symbol
  | literal quote isQuote text =>
    intro same
    simp [Value.token, quoted] at same

/-- No name ends a list of columns. -/
theorem Name.not_endsColumns (name : Name) : endsColumns name.text = false := by
  have notClose : name.text ≠ [')'] := name.ne_symbol (by decide)
  simp [endsColumns, name.notClause, notClose]

theorem withoutCommas_comma (tokens : List Token) :
    withoutCommas ([','] :: tokens) = withoutCommas tokens := by
  simp [withoutCommas]

/-- A token that is no comma stays. -/
theorem withoutCommas_cons {token : Token} (other : token ≠ [',']) (tokens : List Token) :
    withoutCommas (token :: tokens) = token :: withoutCommas tokens := by
  simp [withoutCommas, other]

/-- The elements of a comma-separated list are what is left without the commas. -/
theorem withoutCommas_listTokens {first : Token} {others : List Token} (head : first ≠ [','])
    (tail : ∀ token ∈ others, token ≠ [',']) :
    withoutCommas (listTokens first others) = first :: others := by
  have each : withoutCommas (commaTokens (others.map fun token => [token])) = others := by
    induction others with
    | nil => rfl
    | cons token others ih =>
      have step := ih fun other member => tail other (by simp [member])
      simp only [commaTokens, List.map_cons, List.flatMap_cons, List.cons_append,
        List.nil_append] at step ⊢
      rw [withoutCommas_comma, withoutCommas_cons (tail token (by simp)), step]
  rw [listTokens, withoutCommas_cons head, each]

/-- The tokens of a list are its elements and commas. -/
theorem mem_listTokens {first token : Token} {others : List Token}
    (member : token ∈ listTokens first others) : token = first ∨ token ∈ others ∨ token = [','] := by
  simp only [listTokens, commaTokens, List.mem_cons, List.mem_flatMap, List.mem_map] at member
  rcases member with rfl | ⟨_, ⟨other, here, rfl⟩, rfl | inside⟩
  · exact .inl rfl
  · exact .inr (.inr rfl)
  · obtain rfl : token = other := by simpa using inside
    exact .inr (.inl here)

/-- A list of columns ends at the first token that ends one. -/
theorem columnsIn_stop {list rest : List Token} {stop : Token}
    (passed : ∀ token ∈ list, endsColumns token = false) (stopped : endsColumns stop = true) :
    columnsIn (list ++ stop :: rest) = (withoutCommas list, dropClose (stop :: rest)) := by
  have inside : ∀ token ∈ list, (!endsColumns token) = true := by simpa using passed
  simp only [columnsIn]
  rw [List.takeWhile_append_of_pos inside, List.dropWhile_append_of_pos inside,
    List.takeWhile_cons_of_neg (by simp [stopped]), List.dropWhile_cons_of_neg (by simp [stopped]),
    List.append_nil]

/-- A printed list of names reads back as the names. -/
theorem columnsIn_names (first : Name) (others : List Name) {rest : List Token} {stop : Token}
    (stopped : endsColumns stop = true) :
    columnsIn (listTokens first.text (others.map fun name => name.text) ++ stop :: rest) =
      (first.text :: others.map (fun name => name.text), dropClose (stop :: rest)) := by
  rw [columnsIn_stop _ stopped, withoutCommas_listTokens]
  · exact first.ne_symbol (by decide)
  · intro token member
    obtain ⟨name, -, rfl⟩ := List.mem_map.mp member
    exact name.ne_symbol (by decide)
  · intro token member
    rcases mem_listTokens member with rfl | here | rfl
    · exact first.not_endsColumns
    · obtain ⟨name, -, rfl⟩ := List.mem_map.mp here
      exact name.not_endsColumns
    · decide

/-- A printed row of values reads back as the values. -/
theorem valueList_values (first : Value) (others : List Value) (rest : List Token) :
    valueList ("VALUES".toList :: ['('] ::
        (listTokens first.token (others.map Value.token) ++ [')'] :: rest)) =
      (first.token :: others.map Value.token, rest) := by
  have inside : ∀ token ∈ listTokens first.token (others.map Value.token),
      (decide (token ≠ [')'])) = true := by
    intro token member
    rcases mem_listTokens member with rfl | here | rfl
    · simpa using first.ne_symbol (by decide)
    · obtain ⟨value, -, rfl⟩ := List.mem_map.mp here
      simpa using value.ne_symbol (by decide)
    · decide
  have skipped : valueList ("VALUES".toList :: ['('] ::
      (listTokens first.token (others.map Value.token) ++ [')'] :: rest)) =
        valuesIn (listTokens first.token (others.map Value.token) ++ [')'] :: rest) := rfl
  rw [skipped, valuesIn, List.takeWhile_append_of_pos inside, List.dropWhile_append_of_pos inside,
    List.takeWhile_cons_of_neg (by simp), List.dropWhile_cons_of_neg (by simp), List.append_nil,
    withoutCommas_listTokens]
  · simp [dropClose]
  · exact first.ne_symbol (by decide)
  · intro token member
    obtain ⟨value, -, rfl⟩ := List.mem_map.mp member
    exact value.ne_symbol (by decide)

/-! ### Column definitions -/

variable {rest columns stop : List Token}

theorem head?_ne_open {token : Token} (other : token ≠ ['(']) (tokens : List Token) :
    (token :: tokens).head? ≠ some ['('] := by
  simpa using other

/-- The constraints of a column are passed over. -/
theorem definitions_constraints (constraints : List Constraint) (plain : rest.head? ≠ some ['('])
    (later : Definitions rest columns stop) :
    Definitions (constraints.flatMap Constraint.tokens ++ rest) columns stop ∧
      (constraints.flatMap Constraint.tokens ++ rest).head? ≠ some ['('] := by
  induction constraints with
  | nil => exact ⟨later, plain⟩
  | cons constraint constraints ih =>
    obtain ⟨definitions, head⟩ := ih
    rw [List.flatMap_cons, List.append_assoc]
    cases constraint with
    | primaryKey =>
      exact ⟨.keyword (by decide) (head?_ne_open (by decide) _)
        (.keyword (by decide) head definitions), head?_ne_open (by decide) _⟩
    | notNull =>
      exact ⟨.keyword (by decide) (head?_ne_open (by decide) _)
        (.keyword (by decide) head definitions), head?_ne_open (by decide) _⟩

/-- The parser knows every type. -/
theorem ColumnType.isTypeKeyword (type : ColumnType) : isTypeKeyword type.token = true := by
  cases type <;> decide

/-- A printed definition adds its name to the columns. -/
theorem ColumnDefinition.definitions (definition : ColumnDefinition)
    (plain : rest.head? ≠ some ['(']) (later : Definitions rest columns stop) :
    Definitions (definition.tokens ++ rest) (definition.name.text :: columns) stop := by
  obtain ⟨constrained, head⟩ := definitions_constraints definition.constraints plain later
  rw [ColumnDefinition.tokens, List.cons_append, List.cons_append, List.append_assoc]
  refine .name (definition.name.ne_symbol (by decide)) (definition.name.ne_symbol (by decide))
    definition.name.notType ?_
  cases definition.size with
  | none => exact .keyword definition.type.isTypeKeyword head constrained
  | some word =>
    have inner : word.text ≠ [')'] := word.ne_symbol (by decide)
    have skipped : afterClose (word.text :: [')'] ::
        (definition.constraints.flatMap Constraint.tokens ++ rest)) =
          definition.constraints.flatMap Constraint.tokens ++ rest := by
      simp [afterClose, inner]
    rw [← skipped] at constrained
    exact .sized definition.type.isTypeKeyword constrained

/-- The column definitions behind the first one. -/
theorem definitions_others (others : List ColumnDefinition) (after : List Token) :
    Definitions (commaTokens (others.map ColumnDefinition.tokens) ++ [')'] :: after)
        (others.map fun definition => definition.name.text) ([')'] :: after) ∧
      (commaTokens (others.map ColumnDefinition.tokens) ++ [')'] :: after).head? ≠ some ['('] := by
  induction others with
  | nil => exact ⟨.close after, head?_ne_open (by decide) _⟩
  | cons definition others ih =>
    obtain ⟨later, plain⟩ := ih
    have shape : commaTokens ((definition :: others).map ColumnDefinition.tokens) ++
        [')'] :: after = [','] :: (definition.tokens ++
          (commaTokens (others.map ColumnDefinition.tokens) ++ [')'] :: after)) := by
      simp only [commaTokens, List.map_cons, List.flatMap_cons, List.cons_append,
        List.append_assoc]
    rw [shape]
    exact ⟨.comma (definition.definitions plain later), head?_ne_open (by decide) _⟩

/-! ### Statements -/

/-- The result with the attributes of an optional condition. -/
def ParseResult.withCondition (result : ParseResult) : Option Comparison → ParseResult
  | none => result
  | some comparison =>
    ((result.set .whereColumn comparison.column.text).set .whereOperator
      comparison.operator.token).set .whereValue comparison.value.token

/-- A WHERE clause gives its attributes. -/
theorem whereClause_condition (result : ParseResult) (condition : Option Comparison)
    (semicolon : Bool) :
    WhereClause result (conditionTokens condition ++ ending semicolon)
      (result.withCondition condition) (ending semicolon) := by
  cases condition with
  | none =>
    refine .absent fun token head => ?_
    cases semicolon with
    | false => simp [conditionTokens, ending] at head
    | true =>
      obtain rfl : [';'] = token := by simpa [conditionTokens, ending] using head
      decide
  | some comparison => exact .comparison (ending semicolon) (by decide)

/-- Two results with the same type and attributes, both without tokens and errors. -/
theorem Statement.result_eq {statement : Statement} {result : ParseResult}
    (type : result.type = statement.type) (success : result.success = true)
    (bare : result.tokens = [] ∧ result.errorMessage = [])
    (attributes : ∀ key, result.attributes key = statement.attributes key) :
    result = statement.result := by
  cases result
  obtain ⟨rfl, rfl⟩ := bare
  obtain rfl := funext attributes
  simp_all [Statement.result]

/-- The attributes of the condition change nothing else. -/
theorem Statement.withCondition_eq {statement : Statement} {result : ParseResult}
    {condition : Option Comparison} (type : result.type = statement.type)
    (success : result.success = true) (bare : result.tokens = [] ∧ result.errorMessage = [])
    (attributes : ∀ key,
      (result.withCondition condition).attributes key = statement.attributes key) :
    result.withCondition condition = statement.result := by
  cases condition with
  | none => exact result_eq type success bare attributes
  | some comparison => exact result_eq type success bare attributes

/-- A SELECT with a star is read as it was printed. -/
theorem Statement.parses_selectAll (table : Name) (condition : Option Comparison)
    (semicolon : Bool) :
    Parses ((selectAll table condition).terminated semicolon) (selectAll table condition).result
      (ending semicolon) := by
  have clause := whereClause_condition (((ParseResult.start .select).set .columns
    (joinComma [['*']])).set .table table.text) condition semicolon
  have same : ((((ParseResult.start .select).set .columns (joinComma [['*']])).set .table
      table.text).withCondition condition) = (selectAll table condition).result :=
    withCondition_eq rfl rfl ⟨rfl, rfl⟩ fun key => by cases condition <;> cases key <;> rfl
  rw [← same]
  exact .select rfl rfl (by simp) rfl table.nonempty clause

/-- A SELECT with columns is read as it was printed. -/
theorem Statement.parses_select (first : Name) (others : List Name) (table : Name)
    (condition : Option Comparison) (semicolon : Bool) :
    Parses ((select first others table condition).terminated semicolon)
      (select first others table condition).result (ending semicolon) := by
  have list : columnList (listTokens first.text (others.map fun name => name.text) ++
      "FROM".toList :: table.text :: (conditionTokens condition ++ ending semicolon)) =
        (first.text :: others.map (fun name => name.text),
          "FROM".toList :: table.text :: (conditionTokens condition ++ ending semicolon)) := by
    have notOpen : first.text ≠ ['('] := first.ne_symbol (by decide)
    rw [listTokens, List.cons_append, columnList, if_neg first.notStar, if_neg notOpen,
      ← List.cons_append]
    exact columnsIn_names first others (by decide)
  have clause := whereClause_condition (((ParseResult.start .select).set .columns
    (joinComma (first.text :: others.map fun name => name.text))).set .table table.text)
    condition semicolon
  have same : ((((ParseResult.start .select).set .columns (joinComma (first.text ::
      others.map fun name => name.text))).set .table table.text).withCondition condition) =
        (select first others table condition).result :=
    withCondition_eq rfl rfl ⟨rfl, rfl⟩ fun key => by cases condition <;> cases key <;> rfl
  have shape : (select first others table condition).terminated semicolon =
      "SELECT".toList :: (listTokens first.text (others.map fun name => name.text) ++
        "FROM".toList :: table.text :: (conditionTokens condition ++ ending semicolon)) := by
    simp only [terminated, tokens, List.cons_append, List.append_assoc]
  rw [← same, shape]
  exact .select rfl list (by simp) rfl table.nonempty clause

/-- An INSERT without a list of columns is read as it was printed. -/
theorem Statement.parses_insertValues (table : Name) (first : Value) (others : List Value)
    (semicolon : Bool) :
    Parses ((insert table none first others).terminated semicolon)
      (insert table none first others).result (ending semicolon) := by
  have values := valueList_values first others (ending semicolon)
  have same : (((ParseResult.start .insert).set .table table.text).set .values
      (joinComma (first.token :: others.map Value.token))) =
        (insert table none first others).result :=
    result_eq rfl rfl ⟨rfl, rfl⟩ fun key => by cases key <;> rfl
  have shape : (insert table none first others).terminated semicolon =
      "INSERT".toList :: "INTO".toList :: table.text :: "VALUES".toList :: ['('] ::
        (listTokens first.token (others.map Value.token) ++ [')'] :: ending semicolon) := by
    simp only [terminated, tokens, columnsTokens, Option.map_none, Option.getD_none,
      List.cons_append, List.append_assoc, List.nil_append]
  rw [← same, shape]
  exact .insert rfl rfl table.nonempty (head?_ne_open (by decide) _) (List.cons_ne_nil _ _)
    values (by simp)

/-- An INSERT with a list of columns is read as it was printed. -/
theorem Statement.parses_insertColumns (table : Name) (firstColumn : Name)
    (otherColumns : List Name) (first : Value) (others : List Value) (semicolon : Bool) :
    Parses ((insert table (some (firstColumn, otherColumns)) first others).terminated semicolon)
      (insert table (some (firstColumn, otherColumns)) first others).result
      (ending semicolon) := by
  have values := valueList_values first others (ending semicolon)
  have same : ((((ParseResult.start .insert).set .table table.text).set .columns
      (joinComma (firstColumn.text :: otherColumns.map fun name => name.text))).set .values
        (joinComma (first.token :: others.map Value.token))) =
          (insert table (some (firstColumn, otherColumns)) first others).result :=
    result_eq rfl rfl ⟨rfl, rfl⟩ fun key => by cases key <;> rfl
  have shape : (insert table (some (firstColumn, otherColumns)) first others).terminated
      semicolon = "INSERT".toList :: "INTO".toList :: table.text :: ['('] ::
        (listTokens firstColumn.text (otherColumns.map fun name => name.text) ++ [')'] ::
          "VALUES".toList :: ['('] ::
            (listTokens first.token (others.map Value.token) ++ [')'] :: ending semicolon)) := by
    simp only [terminated, tokens, columnsTokens, Option.map_some, Option.getD_some,
      List.cons_append, List.append_assoc, List.nil_append]
  rw [← same, shape]
  exact .insertColumns rfl rfl table.nonempty
    (columnsIn_names firstColumn otherColumns (by decide)) (List.cons_ne_nil _ _) values (by simp)

/-- An UPDATE is read as it was printed. -/
theorem Statement.parses_update (table column : Name) (value : Value)
    (condition : Option Comparison) (semicolon : Bool) :
    Parses ((update table column value condition).terminated semicolon)
      (update table column value condition).result (ending semicolon) := by
  have clause := whereClause_condition ((((ParseResult.start .update).set .table table.text).set
    .setColumn column.text).set .setValue value.token) condition semicolon
  have same : (((((ParseResult.start .update).set .table table.text).set .setColumn
      column.text).set .setValue value.token).withCondition condition) =
        (update table column value condition).result :=
    withCondition_eq rfl rfl ⟨rfl, rfl⟩ fun key => by cases condition <;> cases key <;> rfl
  rw [← same]
  exact .update rfl table.nonempty rfl clause

/-- A DELETE is read as it was printed. -/
theorem Statement.parses_delete (table : Name) (condition : Option Comparison)
    (semicolon : Bool) :
    Parses ((delete table condition).terminated semicolon) (delete table condition).result
      (ending semicolon) := by
  have clause := whereClause_condition ((ParseResult.start .delete).set .table table.text)
    condition semicolon
  have same : (((ParseResult.start .delete).set .table table.text).withCondition condition) =
      (delete table condition).result :=
    withCondition_eq rfl rfl ⟨rfl, rfl⟩ fun key => by cases condition <;> cases key <;> rfl
  rw [← same]
  exact .deleteFrom rfl rfl table.nonempty clause

/-- A CREATE TABLE is read as it was printed. -/
theorem Statement.parses_createTable (table : Name) (first : ColumnDefinition)
    (others : List ColumnDefinition) (semicolon : Bool) :
    Parses ((createTable table first others).terminated semicolon)
      (createTable table first others).result (ending semicolon) := by
  obtain ⟨later, plain⟩ := definitions_others others (ending semicolon)
  have definitions := first.definitions plain later
  have same : (((ParseResult.start .createTable).set .table table.text).set .columns
      (joinComma (first.name.text :: others.map fun definition => definition.name.text))) =
        (createTable table first others).result :=
    result_eq rfl rfl ⟨rfl, rfl⟩ fun key => by cases key <;> rfl
  have shape : (createTable table first others).terminated semicolon =
      "CREATE".toList :: "TABLE".toList :: table.text :: ['('] ::
        (first.tokens ++ (commaTokens (others.map ColumnDefinition.tokens) ++
          [')'] :: ending semicolon)) := by
    simp only [terminated, tokens, List.cons_append, List.append_assoc, List.nil_append]
  rw [← same, shape]
  exact .createTable rfl rfl table.nonempty definitions (by simp)

/-- The tokens of a statement are a described parse with the statement's result. -/
theorem Statement.parses (statement : Statement) (semicolon : Bool) :
    Parses (statement.terminated semicolon) statement.result (ending semicolon) := by
  cases statement with
  | selectAll table condition => exact parses_selectAll table condition semicolon
  | select first others table condition =>
    exact parses_select first others table condition semicolon
  | insert table columns first others =>
    cases columns with
    | none => exact parses_insertValues table first others semicolon
    | some columns => exact parses_insertColumns table columns.1 columns.2 first others semicolon
  | update table column value condition =>
    exact parses_update table column value condition semicolon
  | delete table condition => exact parses_delete table condition semicolon
  | createTable table first others => exact parses_createTable table first others semicolon

/-- `ParseQuery` on a printed statement succeeds with the statement's type and
exactly its attributes. -/
theorem parseQuery_printed (statement : Statement) (semicolon : Bool) (text : List Char)
    (printed : Printed (statement.terminated semicolon) text) :
    parseQuery text = some
      { type := statement.type, attributes := statement.attributes, success := true,
        tokens := statement.terminated semicolon } := by
  have tokenized := tokenize_printed printed (statement.lexemes semicolon)
  obtain ⟨stop, parsed, -⟩ := parseStatement_of_parses (statement.parses semicolon)
  rw [parseQuery, tokenized, parsed]
  rfl

/-- `DELETE FROM t WHERE c <= 'it''s'`. -/
def deleteQuoted : Statement :=
  .delete ⟨⟨['t'], by decide, by decide⟩, by decide, by decide, by decide⟩
    (some ⟨⟨⟨['c'], by decide, by decide⟩, by decide, by decide, by decide⟩, .lessEqual,
      .literal '\x27' (by decide) ['i', 't', '\x27', 's']⟩)

theorem parseQuery_printed_deleteQuoted :
    Printed (deleteQuoted.terminated true)
        "DELETE FROM\tt WHERE c<=\x27it\x27\x27s\x27;".toList ∧
      parseQuery "DELETE FROM\tt WHERE c<=\x27it\x27\x27s\x27;".toList = some
        { type := .delete, attributes := deleteQuoted.attributes, success := true,
          tokens := deleteQuoted.terminated true } := by
  have spaced : "DELETE FROM\tt WHERE c<=\x27it\x27\x27s\x27;".toList =
      [] ++ "DELETE".toList ++ ([' '] ++ "FROM".toList ++ (['\t'] ++ ['t'] ++
        ([' '] ++ "WHERE".toList ++ ([' '] ++ ['c'] ++ ([] ++ ['<', '='] ++
          ([] ++ quoted '\x27' ['i', 't', '\x27', 's'] ++ ([] ++ [';'] ++ []))))))) := by
    decide +kernel
  have printed : Printed (deleteQuoted.terminated true)
      "DELETE FROM\tt WHERE c<=\x27it\x27\x27s\x27;".toList := by
    rw [spaced]
    exact .cons (by decide) (by decide) (.cons (by decide) (by decide) (.cons (by decide)
      (by decide) (.cons (by decide) (by decide) (.cons (by decide) (by decide) (.cons (by decide)
        (by decide) (.cons (by decide) (by decide) (.cons (by decide) (by decide)
          (.nil (by decide)))))))))
  exact ⟨printed, parseQuery_printed deleteQuoted true _ printed⟩

end MiniDB.Parser
