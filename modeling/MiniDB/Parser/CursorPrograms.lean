import MiniDB.Foundation.Client
import MiniDB.Parser.SQLParser

/-!
# The parsers, one access at a time

Here the parsers are programs over the token vector and the position that they share:
every test of the position, every `tokens[pos]` and every `pos++` is a request. A
request is `Safe` if it reads inside the vector and leaves the position there; a loop
that runs out of fuel makes a request that is never safe.
-/

namespace MiniDB.Parser

open Foundation

/-- What a parser does with the tokens and its position. -/
inductive CursorRequest where
  /-- `pos < tokens.size()`. -/
  | hasMore
  /-- `tokens[pos]`. -/
  | token
  /-- `pos++`, past a token that was stored or past one that was not. -/
  | advance (kept : Bool)
  /-- `tokens.size()`. -/
  | size
  /-- `tokens[index]`. -/
  | tokenAt (index : Nat)
  /-- A loop with no fuel left. -/
  | outOfFuel

/-- What a request returns. -/
def CursorRequest.Answer : CursorRequest → Type
  | hasMore => Bool
  | token => Token
  | advance _ => Unit
  | size => Nat
  | tokenAt _ => Token
  | outOfFuel => Unit

/-- The tokens and the position, with the tokens that were passed without being stored. -/
structure Cursor where
  tokens : List Token
  pos : Nat := 0
  skipped : List Token := []

namespace Cursor

/-- Serve a request. What lies behind the end of the tokens is left open in the source;
here it is the empty token. -/
def handle : (request : CursorRequest) → Cursor → request.Answer × Cursor
  | .hasMore, cursor => (decide (cursor.pos < cursor.tokens.length), cursor)
  | .token, cursor => ((cursor.tokens[cursor.pos]?).getD [], cursor)
  | .advance kept, cursor =>
    ((), { cursor with
      pos := cursor.pos + 1
      skipped :=
        if kept then cursor.skipped
        else cursor.skipped ++ [(cursor.tokens[cursor.pos]?).getD []] })
  | .size, cursor => (cursor.tokens.length, cursor)
  | .tokenAt index, cursor => ((cursor.tokens[index]?).getD [], cursor)
  | .outOfFuel, cursor => ((), cursor)

/-- The request reads inside the tokens. -/
def InRange : CursorRequest → Cursor → Prop
  | .token, cursor => cursor.pos < cursor.tokens.length
  | .tokenAt index, cursor => index < cursor.tokens.length
  | .outOfFuel, _ => False
  | _, _ => True

instance InRange.decidable : ∀ request cursor, Decidable (InRange request cursor)
  | .token, cursor => inferInstanceAs (Decidable (cursor.pos < cursor.tokens.length))
  | .tokenAt index, cursor => inferInstanceAs (Decidable (index < cursor.tokens.length))
  | .outOfFuel, _ => inferInstanceAs (Decidable False)
  | .hasMore, _ => inferInstanceAs (Decidable True)
  | .advance _, _ => inferInstanceAs (Decidable True)
  | .size, _ => inferInstanceAs (Decidable True)

/-- The request reads inside the tokens, and the position does not go back or beyond
their end. -/
def Safe (request : CursorRequest) (cursor : Cursor) : Prop :=
  InRange request cursor ∧ cursor.pos ≤ (handle request cursor).2.pos ∧
    (handle request cursor).2.pos ≤ cursor.tokens.length

instance (request : CursorRequest) (cursor : Cursor) : Decidable (Safe request cursor) :=
  inferInstanceAs (Decidable (_ ∧ _ ∧ _))

end Cursor

/-- A program over the tokens. -/
abbrev CursorProgram := Client CursorRequest CursorRequest.Answer

namespace CursorProgram

/-- `pos < tokens.size()`. -/
def hasMore : CursorProgram Bool := Client.make CursorRequest.hasMore

/-- `pos >= tokens.size()`. -/
def atEnd : CursorProgram Bool := do
  return !(← hasMore)

/-- `tokens[pos]`. -/
def token : CursorProgram Token := Client.make CursorRequest.token

/-- `pos++`. -/
def advance (kept : Bool) : CursorProgram Unit := Client.make (CursorRequest.advance kept)

/-- `tokens.size()`. -/
def size : CursorProgram Nat := Client.make CursorRequest.size

/-- `tokens[index]`. -/
def tokenAt (index : Nat) : CursorProgram Token := Client.make (CursorRequest.tokenAt index)

/-- The end of the fuel. -/
def outOfFuel : CursorProgram Unit := Client.make CursorRequest.outOfFuel

/-- `tokens[pos++]`. -/
def take : CursorProgram Token := do
  let token ← token
  advance true
  return token

/-- `pos < tokens.size() && tokens[pos] == text`. -/
def nextIs (text : Token) : CursorProgram Bool := do
  if ← hasMore then
    return (← token) = text
  else
    return false

/-- `pos < tokens.size() && tokens[pos] != text`. -/
def nextIsNot (text : Token) : CursorProgram Bool := do
  if ← hasMore then
    return (← token) ≠ text
  else
    return false

/-- `if (pos < tokens.size() && tokens[pos] == text) pos++;`. -/
def skipIf (text : Token) : CursorProgram Unit := do
  if ← nextIs text then
    advance false

/-- `if (ToUpper(tokens[pos]) == keyword) pos++;`. -/
def skipKeyword (keyword : Token) : CursorProgram Unit := do
  if toUpper (← token) = keyword then
    advance false

/-- `SQLParser::ParseTableName`. -/
def parseTableName : CursorProgram Token := do
  if ← atEnd then return []
  take

/-- The loop of `ParseColumnList`. -/
def columnLoop : Nat → List Token → CursorProgram (List Token)
  | 0, columns => do
    outOfFuel
    return columns
  | fuel + 1, columns => do
    if ← hasMore then
      let token ← token
      if token = [')'] then
        advance false
        return columns
      else if token = [','] then
        advance false
        columnLoop fuel columns
      else if isClauseKeyword token then
        return columns
      else
        advance true
        if ← nextIs [','] then
          advance false
          columnLoop fuel (columns ++ [token])
        else if ← nextIs [')'] then
          advance false
          return columns ++ [token]
        else
          columnLoop fuel (columns ++ [token])
    else
      return columns

/-- `SQLParser::ParseColumnList`. -/
def parseColumnList (fuel : Nat) : CursorProgram (List Token) := do
  if ← atEnd then return []
  if (← token) = ['*'] then
    advance true
    return [['*']]
  skipIf ['(']
  columnLoop fuel []

/-- The loop of `ParseValueList`. -/
def valueLoop : Nat → List Token → CursorProgram (List Token)
  | 0, values => do
    outOfFuel
    return values
  | fuel + 1, values => do
    if ← hasMore then
      let token ← token
      if token = [')'] then
        advance false
        return values
      else if token = [','] then
        advance false
        valueLoop fuel values
      else
        advance true
        valueLoop fuel (values ++ [token])
    else
      return values

/-- `SQLParser::ParseValueList`. -/
def parseValueList (fuel : Nat) : CursorProgram (List Token) := do
  if ← atEnd then return []
  skipKeyword "VALUES".toList
  skipIf ['(']
  valueLoop fuel []

/-- `SQLParser::ParseWhereClause`. -/
def parseWhereClause (result : ParseResult) : CursorProgram ParseResult := do
  if ← atEnd then return result
  if toUpper (← token) ≠ "WHERE".toList then return result
  advance false
  if ← atEnd then return result.fail "WHERE clause is incomplete"
  let result := result.set .whereColumn (← take)
  if ← atEnd then return result.fail "WHERE clause operator missing"
  let result := result.set .whereOperator (← take)
  if ← atEnd then return result.fail "WHERE clause value missing"
  return result.set .whereValue (← take)

/-- `if (pos < tokens.size()) ParseWhereClause(tokens, pos, result);`. -/
def parseOptionalWhere (result : ParseResult) : CursorProgram ParseResult := do
  if ← hasMore then
    parseWhereClause result
  else
    return result

/-- `SQLParser::ParseSelect`. -/
def parseSelect (fuel : Nat) : CursorProgram ParseResult := do
  let result := ParseResult.start .select
  advance false
  let columns ← parseColumnList fuel
  if columns = [] then return result.fail "SELECT statement must have at least one column"
  let result := result.set .columns (joinComma columns)
  if ← atEnd then return result.fail "SELECT statement missing FROM clause"
  if toUpper (← token) ≠ "FROM".toList then
    return result.fail "SELECT statement missing FROM keyword"
  advance false
  let tableName ← parseTableName
  if tableName = [] then return result.fail "SELECT statement missing table name"
  parseOptionalWhere (result.set .table tableName)

/-- The optional column list of `ParseInsert`. -/
def parseInsertColumns (fuel : Nat) (result : ParseResult) : CursorProgram ParseResult := do
  if ← nextIs ['('] then
    let columns ← parseColumnList fuel
    return result.set .columns (joinComma columns)
  else
    return result

/-- The end of `ParseInsert`, from `VALUES` on. -/
def parseInsertValues (fuel : Nat) (result : ParseResult) : CursorProgram ParseResult := do
  if ← atEnd then return result.fail "INSERT statement missing VALUES clause"
  let values ← parseValueList fuel
  if values = [] then return result.fail "INSERT statement missing values"
  return result.set .values (joinComma values)

/-- `SQLParser::ParseInsert`. -/
def parseInsert (fuel : Nat) : CursorProgram ParseResult := do
  let result := ParseResult.start .insert
  advance false
  if ← atEnd then return result.fail "INSERT statement incomplete"
  if toUpper (← token) ≠ "INTO".toList then
    return result.fail "INSERT statement missing INTO keyword"
  advance false
  let tableName ← parseTableName
  if tableName = [] then return result.fail "INSERT statement missing table name"
  parseInsertValues fuel (← parseInsertColumns fuel (result.set .table tableName))

/-- `SQLParser::ParseUpdate`. -/
def parseUpdate : CursorProgram ParseResult := do
  let result := ParseResult.start .update
  advance false
  let tableName ← parseTableName
  if tableName = [] then return result.fail "UPDATE statement missing table name"
  let result := result.set .table tableName
  if ← atEnd then return result.fail "UPDATE statement missing SET clause"
  if toUpper (← token) ≠ "SET".toList then
    return result.fail "UPDATE statement missing SET keyword"
  advance false
  if ← atEnd then return result.fail "UPDATE SET clause incomplete"
  let result := result.set .setColumn (← take)
  if !(← nextIs ['=']) then return result.fail "UPDATE SET clause missing = operator"
  advance false
  if ← atEnd then return result.fail "UPDATE SET clause missing value"
  parseOptionalWhere (result.set .setValue (← take))

/-- `SQLParser::ParseDelete`. -/
def parseDelete : CursorProgram ParseResult := do
  let result := ParseResult.start .delete
  advance false
  if ← atEnd then return result.fail "DELETE statement incomplete"
  skipKeyword "FROM".toList
  let tableName ← parseTableName
  if tableName = [] then return result.fail "DELETE statement missing table name"
  parseOptionalWhere (result.set .table tableName)

/-- The loop that skips the size of a type. -/
def skipToClose : Nat → CursorProgram Unit
  | 0 => outOfFuel
  | fuel + 1 => do
    if ← nextIsNot [')'] then
      advance false
      skipToClose fuel

/-- The size that may follow a type keyword. -/
def skipSize (fuel : Nat) : CursorProgram Unit := do
  if ← nextIs ['('] then
    advance false
    skipToClose fuel
    skipIf [')']

/-- The loop of `ParseCreateTable`. -/
def definitionLoop : Nat → List Token → CursorProgram (List Token)
  | 0, columns => do
    outOfFuel
    return columns
  | fuel + 1, columns => do
    if ← nextIsNot [')'] then
      let token ← token
      if token = [','] then
        advance false
        definitionLoop fuel columns
      else if isTypeKeyword token then
        advance false
        skipSize fuel
        definitionLoop fuel columns
      else
        advance true
        definitionLoop fuel (columns ++ [token])
    else
      return columns

/-- `SQLParser::ParseCreateTable`. -/
def parseCreateTable (fuel : Nat) : CursorProgram ParseResult := do
  let result := ParseResult.start .createTable
  advance false
  if ← atEnd then return result.fail "CREATE statement incomplete"
  if toUpper (← token) ≠ "TABLE".toList then
    return result.fail "CREATE statement missing TABLE keyword"
  advance false
  let tableName ← parseTableName
  if tableName = [] then return result.fail "CREATE TABLE statement missing table name"
  let result := result.set .table tableName
  if !(← nextIs ['(']) then
    return result.fail "CREATE TABLE statement missing column definitions"
  advance false
  let columns ← definitionLoop fuel []
  skipIf [')']
  if columns = [] then return result.fail "CREATE TABLE statement has no columns"
  return result.set .columns (joinComma columns)

/-- The dispatch of `ParseQuery` on the first token. -/
def parseStatement (fuel : Nat) (result : ParseResult) : CursorProgram ParseResult := do
  let keyword := toUpper (← tokenAt 0)
  if keyword = "SELECT".toList then parseSelect fuel
  else if keyword = "INSERT".toList then parseInsert fuel
  else if keyword = "UPDATE".toList then parseUpdate
  else if keyword = "DELETE".toList then parseDelete
  else if keyword = "CREATE".toList then
    if 1 < (← size) then
      if toUpper (← tokenAt 1) = "TABLE".toList then
        parseCreateTable fuel
      else
        return result.fail "Unsupported CREATE statement type"
    else
      return result.fail "Unsupported CREATE statement type"
  else
    let first ← tokenAt 0
    return { result with
      success := false
      errorMessage := "Unsupported SQL statement type: ".toList ++ first }

/-- `SQLParser::ParseQuery`; the loops get one unit of fuel more than there are tokens. -/
def parseQuery (sql : List Char) : CursorProgram ParseResult := do
  let result : ParseResult := { tokens := tokenize sql }
  if (← size) = 0 then return result.fail "Empty SQL statement"
  let result ← parseStatement ((tokenize sql).length + 1) result
  if result.tokens = [] then
    return { result with tokens := tokenize sql }
  else
    return result

end CursorProgram

end MiniDB.Parser
