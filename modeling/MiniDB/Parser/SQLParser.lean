import MiniDB.Parser.Tokenizer

/-!
# The statement parsers

The five statement parsers read the token vector through a position. An access
`tokens[pos]` outside the vector is `none`, so a parser that returns `some` made
none; a test of the form `pos < tokens.size() && tokens[pos] == text` is
`tokens[pos]? = some text`. Each loop has a fuel argument, and running out of it
is `none` as well.
-/

namespace MiniDB.Parser

/-- `SQLStatementType`. -/
inductive StatementType where
  | select
  | insert
  | update
  | delete
  | createTable
  | unknown
deriving DecidableEq, Repr

/-- The keys the parsers use in `ParseResult::attributes`. -/
inductive Attribute where
  | columns
  | table
  | values
  | setColumn
  | setValue
  | whereColumn
  | whereOperator
  | whereValue
deriving DecidableEq, Repr

/-- `ParseResult`. -/
structure ParseResult where
  type : StatementType := .unknown
  attributes : Attribute → Option Token := fun _ => none
  tokens : List Token := []
  success : Bool := false
  errorMessage : Token := []

namespace ParseResult

/-- `result.attributes[key] = value`. -/
def set (result : ParseResult) (key : Attribute) (value : Token) : ParseResult :=
  { result with attributes := fun other => if other = key then some value else
      result.attributes other }

/-- `result.success = false; result.error_message = message`. -/
def fail (result : ParseResult) (message : String) : ParseResult :=
  { result with success := false, errorMessage := message.toList }

/-- The result a statement parser starts from. -/
def start (type : StatementType) : ParseResult := { type, success := true }

end ParseResult

/-- The loop that joins a list with commas. -/
def joinComma (tokens : List Token) : Token := [','].intercalate tokens

/-- The keywords that end a column list. -/
def isClauseKeyword (token : Token) : Bool :=
  let upper := toUpper token
  upper = "FROM".toList || upper = "WHERE".toList || upper = "VALUES".toList ||
    upper = "SET".toList

/-- The type and constraint keywords that `ParseCreateTable` skips. -/
def isTypeKeyword (token : Token) : Bool :=
  let upper := toUpper token
  upper = "INT".toList || upper = "VARCHAR".toList || upper = "TEXT".toList ||
    upper = "CHAR".toList || upper = "INTEGER".toList || upper = "PRIMARY".toList ||
    upper = "KEY".toList || upper = "NOT".toList || upper = "NULL".toList

/-- `SQLParser::ParseTableName`: an empty name at the end of the tokens. -/
def parseTableName (tokens : List Token) (pos : Nat) : Option (Token × Nat) :=
  if tokens.length ≤ pos then some ([], pos)
  else do
    let tableName ← tokens[pos]?
    return (tableName, pos + 1)

/-- The loop of `ParseColumnList`. -/
def columnLoop (tokens : List Token) : Nat → Nat → List Token → Option (List Token × Nat)
  | 0, _, _ => none
  | fuel + 1, pos, columns =>
    if pos < tokens.length then do
      let token ← tokens[pos]?
      if token = [')'] then
        return (columns, pos + 1)
      else if token = [','] then
        columnLoop tokens fuel (pos + 1) columns
      else if isClauseKeyword token then
        return (columns, pos)
      else if tokens[pos + 1]? = some [','] then
        columnLoop tokens fuel (pos + 2) (columns ++ [token])
      else if tokens[pos + 1]? = some [')'] then
        return (columns ++ [token], pos + 2)
      else
        columnLoop tokens fuel (pos + 1) (columns ++ [token])
    else
      some (columns, pos)

/-- `SQLParser::ParseColumnList`. -/
def parseColumnList (tokens : List Token) (pos : Nat) : Option (List Token × Nat) :=
  if tokens.length ≤ pos then some ([], pos)
  else do
    let first ← tokens[pos]?
    if first = ['*'] then
      return ([['*']], pos + 1)
    else
      let pos := if tokens[pos]? = some ['('] then pos + 1 else pos
      columnLoop tokens (tokens.length - pos + 1) pos []

/-- The loop of `ParseValueList`. -/
def valueLoop (tokens : List Token) : Nat → Nat → List Token → Option (List Token × Nat)
  | 0, _, _ => none
  | fuel + 1, pos, values =>
    if pos < tokens.length then do
      let token ← tokens[pos]?
      if token = [')'] then
        return (values, pos + 1)
      else if token = [','] then
        valueLoop tokens fuel (pos + 1) values
      else
        valueLoop tokens fuel (pos + 1) (values ++ [token])
    else
      some (values, pos)

/-- `SQLParser::ParseValueList`. -/
def parseValueList (tokens : List Token) (pos : Nat) : Option (List Token × Nat) :=
  if tokens.length ≤ pos then some ([], pos)
  else do
    let first ← tokens[pos]?
    let pos := if toUpper first = "VALUES".toList then pos + 1 else pos
    let pos := if tokens[pos]? = some ['('] then pos + 1 else pos
    valueLoop tokens (tokens.length - pos + 1) pos []

/-- `SQLParser::ParseWhereClause`: one comparison after `WHERE`. -/
def parseWhereClause (tokens : List Token) (pos : Nat) (result : ParseResult) :
    Option (ParseResult × Nat) :=
  if tokens.length ≤ pos then some (result, pos)
  else do
    let keyword ← tokens[pos]?
    if toUpper keyword ≠ "WHERE".toList then
      return (result, pos)
    else if tokens.length ≤ pos + 1 then
      return (result.fail "WHERE clause is incomplete", pos + 1)
    else
      let column ← tokens[pos + 1]?
      let result := result.set .whereColumn column
      if tokens.length ≤ pos + 2 then
        return (result.fail "WHERE clause operator missing", pos + 2)
      else
        let op ← tokens[pos + 2]?
        let result := result.set .whereOperator op
        if tokens.length ≤ pos + 3 then
          return (result.fail "WHERE clause value missing", pos + 3)
        else
          let value ← tokens[pos + 3]?
          return (result.set .whereValue value, pos + 4)

/-- The optional `WHERE` clause that ends `SELECT`, `UPDATE` and `DELETE`. -/
def parseOptionalWhere (tokens : List Token) (pos : Nat) (result : ParseResult) :
    Option (ParseResult × Nat) :=
  if pos < tokens.length then parseWhereClause tokens pos result else some (result, pos)

/-- `SQLParser::ParseSelect`. -/
def parseSelect (tokens : List Token) (pos : Nat) : Option (ParseResult × Nat) := do
  let result := ParseResult.start .select
  let (columns, pos) ← parseColumnList tokens (pos + 1)
  if columns = [] then
    return (result.fail "SELECT statement must have at least one column", pos)
  let result := result.set .columns (joinComma columns)
  if tokens.length ≤ pos then
    return (result.fail "SELECT statement missing FROM clause", pos)
  let keyword ← tokens[pos]?
  if toUpper keyword ≠ "FROM".toList then
    return (result.fail "SELECT statement missing FROM keyword", pos)
  let (tableName, pos) ← parseTableName tokens (pos + 1)
  if tableName = [] then
    return (result.fail "SELECT statement missing table name", pos)
  parseOptionalWhere tokens pos (result.set .table tableName)

/-- `SQLParser::ParseInsert`. -/
def parseInsert (tokens : List Token) (pos : Nat) : Option (ParseResult × Nat) := do
  let result := ParseResult.start .insert
  let pos := pos + 1
  if tokens.length ≤ pos then
    return (result.fail "INSERT statement incomplete", pos)
  let keyword ← tokens[pos]?
  if toUpper keyword ≠ "INTO".toList then
    return (result.fail "INSERT statement missing INTO keyword", pos)
  let (tableName, pos) ← parseTableName tokens (pos + 1)
  if tableName = [] then
    return (result.fail "INSERT statement missing table name", pos)
  let result := result.set .table tableName
  let (result, pos) ←
    if tokens[pos]? = some ['('] then do
      let (columns, pos) ← parseColumnList tokens pos
      pure (result.set .columns (joinComma columns), pos)
    else pure (result, pos)
  if tokens.length ≤ pos then
    return (result.fail "INSERT statement missing VALUES clause", pos)
  let (values, pos) ← parseValueList tokens pos
  if values = [] then
    return (result.fail "INSERT statement missing values", pos)
  return (result.set .values (joinComma values), pos)

/-- `SQLParser::ParseUpdate`: one assignment after `SET`. -/
def parseUpdate (tokens : List Token) (pos : Nat) : Option (ParseResult × Nat) := do
  let result := ParseResult.start .update
  let (tableName, pos) ← parseTableName tokens (pos + 1)
  if tableName = [] then
    return (result.fail "UPDATE statement missing table name", pos)
  let result := result.set .table tableName
  if tokens.length ≤ pos then
    return (result.fail "UPDATE statement missing SET clause", pos)
  let keyword ← tokens[pos]?
  if toUpper keyword ≠ "SET".toList then
    return (result.fail "UPDATE statement missing SET keyword", pos)
  let pos := pos + 1
  if tokens.length ≤ pos then
    return (result.fail "UPDATE SET clause incomplete", pos)
  let column ← tokens[pos]?
  let result := result.set .setColumn column
  let pos := pos + 1
  if tokens[pos]? ≠ some ['='] then
    return (result.fail "UPDATE SET clause missing = operator", pos)
  let pos := pos + 1
  if tokens.length ≤ pos then
    return (result.fail "UPDATE SET clause missing value", pos)
  let value ← tokens[pos]?
  parseOptionalWhere tokens (pos + 1) (result.set .setValue value)

/-- `SQLParser::ParseDelete`; `FROM` is optional. -/
def parseDelete (tokens : List Token) (pos : Nat) : Option (ParseResult × Nat) := do
  let result := ParseResult.start .delete
  let pos := pos + 1
  if tokens.length ≤ pos then
    return (result.fail "DELETE statement incomplete", pos)
  let keyword ← tokens[pos]?
  let pos := if toUpper keyword = "FROM".toList then pos + 1 else pos
  let (tableName, pos) ← parseTableName tokens pos
  if tableName = [] then
    return (result.fail "DELETE statement missing table name", pos)
  parseOptionalWhere tokens pos (result.set .table tableName)

/-- The loop that skips to the `)` of a type such as `VARCHAR(10)`. -/
def skipToClose (tokens : List Token) : Nat → Nat → Option Nat
  | 0, _ => none
  | fuel + 1, pos =>
    if pos < tokens.length then do
      let token ← tokens[pos]?
      if token = [')'] then return pos + 1 else skipToClose tokens fuel (pos + 1)
    else
      some pos

/-- The loop of `ParseCreateTable` over the column definitions. -/
def definitionLoop (tokens : List Token) : Nat → Nat → List Token → Option (List Token × Nat)
  | 0, _, _ => none
  | fuel + 1, pos, columns =>
    if pos < tokens.length then do
      let token ← tokens[pos]?
      if token = [')'] then
        return (columns, pos)
      else if token = [','] then
        definitionLoop tokens fuel (pos + 1) columns
      else if isTypeKeyword token then
        if tokens[pos + 1]? = some ['('] then
          let pos ← skipToClose tokens (tokens.length - (pos + 2) + 1) (pos + 2)
          definitionLoop tokens fuel pos columns
        else
          definitionLoop tokens fuel (pos + 1) columns
      else
        definitionLoop tokens fuel (pos + 1) (columns ++ [token])
    else
      some (columns, pos)

/-- `SQLParser::ParseCreateTable`: it keeps the column names only. -/
def parseCreateTable (tokens : List Token) (pos : Nat) : Option (ParseResult × Nat) := do
  let result := ParseResult.start .createTable
  let pos := pos + 1
  if tokens.length ≤ pos then
    return (result.fail "CREATE statement incomplete", pos)
  let keyword ← tokens[pos]?
  if toUpper keyword ≠ "TABLE".toList then
    return (result.fail "CREATE statement missing TABLE keyword", pos)
  let (tableName, pos) ← parseTableName tokens (pos + 1)
  if tableName = [] then
    return (result.fail "CREATE TABLE statement missing table name", pos)
  let result := result.set .table tableName
  if tokens[pos]? ≠ some ['('] then
    return (result.fail "CREATE TABLE statement missing column definitions", pos)
  let (columns, pos) ← definitionLoop tokens (tokens.length - (pos + 1) + 1) (pos + 1) []
  let pos := if tokens[pos]? = some [')'] then pos + 1 else pos
  if columns = [] then
    return (result.fail "CREATE TABLE statement has no columns", pos)
  return (result.set .columns (joinComma columns), pos)

/-- The dispatch of `ParseQuery` on the first token, with the position at which
the statement parser stopped. -/
def parseStatement (tokens : List Token) : Option (ParseResult × Nat) :=
  match tokens with
  | [] => some (ParseResult.fail {} "Empty SQL statement", 0)
  | first :: _ =>
    let keyword := toUpper first
    if keyword = "SELECT".toList then parseSelect tokens 0
    else if keyword = "INSERT".toList then parseInsert tokens 0
    else if keyword = "UPDATE".toList then parseUpdate tokens 0
    else if keyword = "DELETE".toList then parseDelete tokens 0
    else if keyword = "CREATE".toList then
      if (tokens[1]?).map toUpper = some "TABLE".toList then parseCreateTable tokens 0
      else some (ParseResult.fail {} "Unsupported CREATE statement type", 0)
    else
      some ({ errorMessage := "Unsupported SQL statement type: ".toList ++ first }, 0)

/-- `SQLParser::ParseQuery`. The result carries the tokens: a statement parser
returns none, and they are put back at the end. -/
def parseQuery (sql : List Char) : Option ParseResult :=
  (parseStatement (tokenize sql)).map fun (result, _) => { result with tokens := tokenize sql }

/-- The tokens that the statement parser run by `ParseQuery` left unread. -/
def unread (sql : List Char) : Option (List Token) :=
  (parseStatement (tokenize sql)).map fun (_, pos) => (tokenize sql).drop pos

end MiniDB.Parser
