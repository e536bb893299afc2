import MiniDB.Parser.CursorReads
import MiniDB.Parser.Statements

/-!
# How accepted statements are read

For each form of an accepted statement, what its parser program returns and leaves, and
how many of the parentheses that it skipped stay open.
-/

namespace MiniDB.Parser

variable {tokens rest tail after columns values : List Token} {depth fuel : Nat}
  {keyword source table into : Token} {result final : ParseResult}

namespace Reads

theorem whereClause (clause : WhereClause result tail final after) :
    Reads tokens (CursorProgram.parseOptionalWhere result) tail depth final after depth := by
  cases clause with
  | absent noWhere =>
    cases tail with
    | nil => exact hasMore_nil.bind (ite_neg Bool.false_ne_true (pure result))
    | cons token tail =>
      refine hasMore.bind (ite_pos rfl (atEnd.bind (ite_neg Bool.false_ne_true ?_)))
      exact token_cons.bind (ite_pos (noWhere token rfl) (pure result))
  | @comparison keyword column op value after isWhere =>
    refine hasMore.bind (ite_pos rfl (atEnd.bind (ite_neg Bool.false_ne_true ?_)))
    refine token_cons.bind (ite_neg (not_not_intro isWhere) ?_)
    refine (skipWord (by decide) isWhere).bind ?_
    refine atEnd.bind (ite_neg Bool.false_ne_true (take.bind ?_))
    refine atEnd.bind (ite_neg Bool.false_ne_true (take.bind ?_))
    exact atEnd.bind (ite_neg Bool.false_ne_true (take.bind (pure _)))

theorem select (isSelect : toUpper keyword = "SELECT".toList)
    (list : columnList rest = (columns, source :: table :: tail)) (listed : columns ≠ [])
    (isFrom : toUpper source = "FROM".toList) (named : table ≠ [])
    (clause : WhereClause (((ParseResult.start .select).set .columns (joinComma columns)).set
      .table table) tail final after) (enough : rest.length < fuel) :
    Reads tokens (CursorProgram.parseSelect fuel) (keyword :: rest) depth final after
      (columnListDepth rest depth) := by
  have read := @Reads.parseColumnList tokens rest depth fuel enough
  rw [list] at read
  refine (skipWord (by decide) isSelect).bind (read.bind (ite_neg listed ?_))
  refine atEnd.bind (ite_neg Bool.false_ne_true (token_cons.bind ?_))
  refine ite_neg (not_not_intro isFrom) ((skipWord (by decide) isFrom).bind ?_)
  exact parseTableName.bind (ite_neg named (whereClause clause))

/-- The values that end an `INSERT`. -/
theorem insertValues (more : rest ≠ []) (list : valueList rest = (values, after))
    (listed : values ≠ []) (enough : rest.length < fuel) :
    Reads tokens (CursorProgram.parseInsertValues fuel result) rest depth
      (result.set .values (joinComma values)) after (valueListDepth rest depth) := by
  have read := @Reads.parseValueList tokens rest depth fuel enough
  rw [list] at read
  obtain ⟨first, beyond, rfl⟩ := List.exists_cons_of_ne_nil more
  exact atEnd.bind (ite_neg Bool.false_ne_true (read.bind (ite_neg listed (pure _))))

theorem insert (isInsert : toUpper keyword = "INSERT".toList)
    (isInto : toUpper into = "INTO".toList) (named : table ≠ [])
    (noColumns : rest.head? ≠ some ['(']) (more : rest ≠ [])
    (list : valueList rest = (values, after)) (listed : values ≠ []) (enough : rest.length < fuel) :
    Reads tokens (CursorProgram.parseInsert fuel) (keyword :: into :: table :: rest) depth
      (((ParseResult.start .insert).set .table table).set .values (joinComma values)) after
      (valueListDepth rest depth) := by
  refine (skipWord (by decide) isInsert).bind (atEnd.bind (ite_neg Bool.false_ne_true ?_))
  refine token_cons.bind (ite_neg (not_not_intro isInto) ((skipWord (by decide) isInto).bind ?_))
  refine parseTableName.bind (ite_neg named ?_)
  exact (parseInsertColumns_not _ noColumns).bind (insertValues more list listed enough)

theorem insertColumns {middle : List Token} (isInsert : toUpper keyword = "INSERT".toList)
    (isInto : toUpper into = "INTO".toList) (named : table ≠ [])
    (columnsRead : columnsIn rest = (columns, middle)) (more : middle ≠ [])
    (list : valueList middle = (values, after)) (listed : values ≠ [])
    (enough : (['('] :: rest).length < fuel) :
    Reads tokens (CursorProgram.parseInsert fuel) (keyword :: into :: table :: ['('] :: rest) depth
      ((((ParseResult.start .insert).set .table table).set .columns (joinComma columns)).set
        .values (joinComma values)) after
      (valueListDepth middle (columnsDepth rest (depth + 1))) := by
  have read := @parseInsertColumns tokens rest depth fuel ((ParseResult.start .insert).set .table table)
    enough
  have shorter := (columnsIn_after_sublist rest).length_le
  rw [columnsRead] at read shorter
  simp only [List.length_cons] at enough
  refine (skipWord (by decide) isInsert).bind (atEnd.bind (ite_neg Bool.false_ne_true ?_))
  refine token_cons.bind (ite_neg (not_not_intro isInto) ((skipWord (by decide) isInto).bind ?_))
  refine parseTableName.bind (ite_neg named ?_)
  exact read.bind (insertValues more list listed (by omega))

theorem update {set column value : Token} (isUpdate : toUpper keyword = "UPDATE".toList)
    (named : table ≠ []) (isSet : toUpper set = "SET".toList)
    (clause : WhereClause ((((ParseResult.start .update).set .table table).set .setColumn
      column).set .setValue value) tail final after) :
    Reads tokens CursorProgram.parseUpdate
      (keyword :: table :: set :: column :: ['='] :: value :: tail) depth final after depth := by
  refine (skipWord (by decide) isUpdate).bind (parseTableName.bind (ite_neg named ?_))
  refine atEnd.bind (ite_neg Bool.false_ne_true (token_cons.bind ?_))
  refine ite_neg (not_not_intro isSet) ((skipWord (by decide) isSet).bind ?_)
  refine atEnd.bind (ite_neg Bool.false_ne_true (take.bind ?_))
  refine (nextIs _).bind (ite_neg (by simp) (skip.bind ?_))
  exact atEnd.bind (ite_neg Bool.false_ne_true (take.bind (whereClause clause)))

theorem deleteFrom (isDelete : toUpper keyword = "DELETE".toList)
    (isFrom : toUpper source = "FROM".toList) (named : table ≠ [])
    (clause : WhereClause ((ParseResult.start .delete).set .table table) tail final after) :
    Reads tokens CursorProgram.parseDelete (keyword :: source :: table :: tail) depth final after
      depth := by
  refine (skipWord (by decide) isDelete).bind (atEnd.bind (ite_neg Bool.false_ne_true ?_))
  refine (skipKeyword (by decide)).bind ?_
  rw [dropIf, if_pos (decide_eq_true isFrom)]
  exact parseTableName.bind (ite_neg named (whereClause clause))

theorem delete (isDelete : toUpper keyword = "DELETE".toList)
    (notFrom : toUpper table ≠ "FROM".toList) (named : table ≠ [])
    (clause : WhereClause ((ParseResult.start .delete).set .table table) tail final after) :
    Reads tokens CursorProgram.parseDelete (keyword :: table :: tail) depth final after depth := by
  refine (skipWord (by decide) isDelete).bind (atEnd.bind (ite_neg Bool.false_ne_true ?_))
  refine (skipKeyword (by decide)).bind ?_
  rw [dropIf, if_neg (by simpa using notFrom)]
  exact parseTableName.bind (ite_neg named (whereClause clause))

theorem createTable {kind : Token} {stop : List Token} {depth' : Nat}
    (isCreate : toUpper keyword = "CREATE".toList) (isTable : toUpper kind = "TABLE".toList)
    (named : table ≠ []) (listed : columns ≠ [])
    (read : Reads tokens (CursorProgram.definitionLoop fuel []) rest (depth + 1) columns stop depth') :
    Reads tokens (CursorProgram.parseCreateTable fuel) (keyword :: kind :: table :: ['('] :: rest)
      depth (((ParseResult.start .createTable).set .table table).set .columns (joinComma columns))
      (dropClose stop) (closeDepth stop depth') := by
  refine (skipWord (by decide) isCreate).bind (atEnd.bind (ite_neg Bool.false_ne_true ?_))
  refine token_cons.bind (ite_neg (not_not_intro isTable) ((skipWord (by decide) isTable).bind ?_))
  refine parseTableName.bind (ite_neg named ((nextIs _).bind (ite_neg (by simp) (skip.bind ?_))))
  exact read.bind (skipClose.bind (ite_neg listed (pure _)))

end Reads

end MiniDB.Parser
