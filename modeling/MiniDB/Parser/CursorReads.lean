import MiniDB.Parser.CursorPrograms
import MiniDB.Parser.Lists

/-!
# What the parser programs read

`Reads` is a triple for the programs over the tokens: from the tokens in front of the
position to a value, the tokens that are left, and the number of parentheses that were
skipped and are still open. The lists are read as the descriptions of the list parsers
say.
-/

namespace MiniDB.Parser

open Foundation

/-! ## Skipped parentheses -/

/-- The number of open parentheses after one more skipped token. -/
def parenDepth (depth : Nat) (token : Token) : Nat :=
  if token = ['('] then depth + 1 else if token = [')'] then depth - 1 else depth

/-- The parentheses that were opened and not closed among skipped tokens. -/
def unclosed (skipped : List Token) : Nat := skipped.foldl parenDepth 0

theorem parenDepth_open (depth : Nat) : parenDepth depth ['('] = depth + 1 := rfl

/-- A token that is no bracket leaves the depth. -/
theorem parenDepth_other {token : Token} (notOpen : token ≠ ['(']) (notClose : token ≠ [')'])
    (depth : Nat) : parenDepth depth token = depth := by
  rw [parenDepth, if_neg notOpen, if_neg notClose]

/-- The open parentheses behind a closing one, if there is one in front. -/
def closeDepth (rest : List Token) (depth : Nat) : Nat :=
  if rest.head? = some [')'] then depth - 1 else depth

/-- The open parentheses behind a column list. -/
def columnsDepth (rest : List Token) (depth : Nat) : Nat :=
  closeDepth (rest.dropWhile fun token => !endsColumns token) depth

/-- The open parentheses behind a list of values. -/
def valuesDepth (rest : List Token) (depth : Nat) : Nat :=
  closeDepth (rest.dropWhile fun token => token ≠ [')']) depth

/-- The open parentheses behind what `ParseColumnList` reads. -/
def columnListDepth : List Token → Nat → Nat
  | [], depth => depth
  | first :: rest, depth =>
    if first = ['*'] then depth
    else if first = ['('] then columnsDepth rest (depth + 1)
    else columnsDepth (first :: rest) depth

/-- The open parentheses behind what `ParseValueList` reads. -/
def valueListDepth (rest : List Token) (depth : Nat) : Nat :=
  let values := dropIf (fun token => toUpper token = "VALUES".toList) rest
  if values.head? = some ['('] then valuesDepth values.tail (depth + 1)
  else valuesDepth values depth

/-- The open parentheses behind the size of a type, whose opening one is in front of
`inner`. -/
def sizeDepth (inner : List Token) (depth : Nat) : Nat :=
  closeDepth (inner.dropWhile fun token => token ≠ [')'])
    (depth + 1 + (inner.takeWhile fun token => token ≠ [')']).count ['('])

/-- The bracket that closes a list of columns is counted. -/
theorem columnsDepth_close (rest : List Token) (depth : Nat) :
    columnsDepth ([')'] :: rest) depth = depth - 1 := rfl

/-- A keyword that ends a list of columns is not read. -/
theorem columnsDepth_keyword {token : Token} (keyword : isClauseKeyword token = true)
    (notClose : token ≠ [')']) (rest : List Token) (depth : Nat) :
    columnsDepth (token :: rest) depth = depth := by
  have ends : endsColumns token = true := by simp [endsColumns, keyword]
  simp [columnsDepth, closeDepth, ends, notClose]

/-- A column leaves the depth. -/
theorem columnsDepth_cons {token : Token} (inside : endsColumns token = false)
    (rest : List Token) (depth : Nat) :
    columnsDepth (token :: rest) depth = columnsDepth rest depth := by
  simp [columnsDepth, inside]

/-- The bracket that closes a list of values is counted. -/
theorem valuesDepth_close (rest : List Token) (depth : Nat) :
    valuesDepth ([')'] :: rest) depth = depth - 1 := by
  simp [valuesDepth, closeDepth]

/-- A value leaves the depth. -/
theorem valuesDepth_cons {token : Token} (notClose : token ≠ [')']) (rest : List Token)
    (depth : Nat) : valuesDepth (token :: rest) depth = valuesDepth rest depth := by
  simp [valuesDepth, notClose]

namespace Cursor

/-- The tokens in front of the position. -/
def Located (cursor : Cursor) (rest : List Token) : Prop := At cursor.tokens cursor.pos rest

/-- The parentheses that were skipped and are still open. -/
def depth (cursor : Cursor) : Nat := unclosed cursor.skipped

/-- The cursor behind a token. -/
def past (cursor : Cursor) (kept : Bool) (token : Token) : Cursor :=
  { cursor with
    pos := cursor.pos + 1
    skipped := if kept then cursor.skipped else cursor.skipped ++ [token] }

/-- A skipped token is counted if it is a bracket. -/
theorem depth_past_skipped (cursor : Cursor) (token : Token) :
    (cursor.past false token).depth = parenDepth cursor.depth token := by
  simp [depth, past, unclosed]

/-- Run a program as long as its requests are safe. -/
def check {Result : Type} (program : CursorProgram Result) (cursor : Cursor) :
    Option (Result × Cursor) :=
  Client.checked handle Safe program cursor

end Cursor

/-- On these tokens, with `rest` in front of the position and so many parentheses open,
the program makes safe requests only; it returns the value and leaves `after` and so
many parentheses. -/
def Reads {Result : Type} (tokens : List Token) (program : CursorProgram Result)
    (rest : List Token) (depth : Nat) (value : Result) (after : List Token) (depth' : Nat) : Prop :=
  ∀ cursor : Cursor, cursor.tokens = tokens → cursor.Located rest → cursor.depth = depth →
    ∃ cursor', cursor.check program = some (value, cursor') ∧ cursor'.tokens = tokens ∧
      cursor'.Located after ∧ cursor'.depth = depth'

namespace Reads

open CursorProgram

variable {Result Next : Type} {tokens rest after later : List Token} {depth depth' depth'' : Nat}
  {token : Token}

theorem pure (value : Result) : Reads tokens (pure value) rest depth value rest depth :=
  fun cursor same located open_ => ⟨cursor, rfl, same, located, open_⟩

/-- One program after another reads what both read. -/
theorem bind {program : CursorProgram Result} {next : Result → CursorProgram Next} {value : Result}
    {value' : Next} (first : Reads tokens program rest depth value after depth')
    (second : Reads tokens (next value) after depth' value' later depth'') :
    Reads tokens (program >>= next) rest depth value' later depth'' := by
  intro cursor same located open_
  obtain ⟨middle, checked, sameMiddle, locatedMiddle, openMiddle⟩ := first cursor same located open_
  obtain ⟨last, checkedLast, rest⟩ := second middle sameMiddle locatedMiddle openMiddle
  refine ⟨last, ?_, rest⟩
  unfold Cursor.check at checked checkedLast ⊢
  rw [Client.checked_bind, checked]
  exact checkedLast

/-- A request that is safe where it is made. -/
theorem make {request : CursorRequest} {value : request.Answer}
    (served : ∀ cursor : Cursor, cursor.tokens = tokens → cursor.Located rest →
      cursor.depth = depth → ∃ cursor', Cursor.Safe request cursor ∧
        Cursor.handle request cursor = (value, cursor') ∧ cursor'.tokens = tokens ∧
        cursor'.Located after ∧ cursor'.depth = depth') :
    Reads tokens (Client.make request) rest depth value after depth' := by
  intro cursor same located open_
  obtain ⟨cursor', safe, handled, kept⟩ := served cursor same located open_
  exact ⟨cursor', (Client.checked_make safe).trans (congrArg some handled), kept⟩

/-- A request that leaves the cursor alone. -/
theorem look {request : CursorRequest} {value : request.Answer}
    (inRange : ∀ cursor : Cursor, cursor.tokens = tokens → cursor.Located rest →
      Cursor.InRange request cursor ∧ Cursor.handle request cursor = (value, cursor)) :
    Reads tokens (Client.make request) rest depth value rest depth := by
  refine make fun cursor same located open_ => ?_
  obtain ⟨reads, handled⟩ := inRange cursor same located
  refine ⟨cursor, ⟨reads, ?_⟩, handled, same, located, open_⟩
  rw [handled]
  exact ⟨Nat.le_refl _, located.1⟩

/-- Asking whether there is a token reads nothing. -/
theorem hasMore : Reads tokens hasMore (token :: rest) depth true (token :: rest) depth := by
  refine look fun cursor _ located => ⟨trivial, ?_⟩
  have notEnd := located.not_end
  exact congrArg (·, cursor) (decide_eq_true (by omega))

theorem hasMore_nil : Reads tokens CursorProgram.hasMore [] depth false [] depth := by
  refine look fun cursor _ located => ⟨trivial, ?_⟩
  have atEnd := located.at_end
  exact congrArg (·, cursor) (decide_eq_false (by omega))

/-- Asking for the end reads nothing. -/
theorem atEnd : Reads tokens atEnd (token :: rest) depth false (token :: rest) depth :=
  hasMore.bind (pure _)

theorem atEnd_nil : Reads tokens CursorProgram.atEnd [] depth true [] depth :=
  hasMore_nil.bind (pure _)

/-- Looking at a token does not pass it. -/
theorem token_cons : Reads tokens CursorProgram.token (token :: rest) depth token (token :: rest)
    depth := by
  refine look fun cursor _ located => ⟨?_, ?_⟩
  · have notEnd := located.not_end
    exact show cursor.pos < cursor.tokens.length by omega
  · exact congrArg (·, cursor) (congrArg (·.getD []) located.get?_cons)

/-- A token that is passed over is counted unless it is kept. -/
theorem advance (kept : Bool) :
    Reads tokens (advance kept) (token :: rest) depth () rest
      (if kept then depth else parenDepth depth token) := by
  refine make fun cursor same located open_ => ⟨cursor.past kept token, ⟨trivial, ?_⟩, ?_, same,
    located.next, ?_⟩
  · have notEnd := located.not_end
    exact ⟨Nat.le_succ _, show cursor.pos + 1 ≤ cursor.tokens.length by omega⟩
  · have read : (cursor.tokens[cursor.pos]?).getD [] = token :=
      congrArg (·.getD []) located.get?_cons
    simp [Cursor.handle, Cursor.past, read]
  · cases kept with
    | true => exact open_
    | false => rw [Cursor.depth_past_skipped, open_]; rfl

theorem keep : Reads tokens (CursorProgram.advance true) (token :: rest) depth () rest depth :=
  advance true

theorem skip : Reads tokens (CursorProgram.advance false) (token :: rest) depth () rest
    (parenDepth depth token) := advance false

/-- Taking a token passes it and keeps it. -/
theorem take : Reads tokens take (token :: rest) depth token rest depth :=
  token_cons.bind (keep.bind (pure token))

/-- A cursor at a position, with so many parentheses open. -/
theorem exists_cursor {pos : Nat} (located : At tokens pos rest) (depth : Nat) :
    ∃ cursor : Cursor, cursor.tokens = tokens ∧ cursor.Located rest ∧ cursor.depth = depth := by
  refine ⟨{ tokens, pos, skipped := List.replicate depth ['('] }, rfl, located, ?_⟩
  change unclosed (List.replicate depth ['(']) = depth
  induction depth with
  | zero => rfl
  | succ depth ih =>
    rw [List.replicate_succ', unclosed, List.foldl_append, ← unclosed, ih]
    rfl

/-- A program reads the same thing in one way. -/
theorem unique {program : CursorProgram Result} {value value' : Result} {pos : Nat}
    (located : At tokens pos rest) (first : Reads tokens program rest depth value after depth')
    (second : Reads tokens program rest depth value' later depth'') :
    value = value' ∧ after = later ∧ depth' = depth'' := by
  obtain ⟨cursor, same, at_, open_⟩ := exists_cursor located depth
  obtain ⟨last, checked, -, ⟨-, stop⟩, depths⟩ := first cursor same at_ open_
  obtain ⟨last', checked', -, ⟨-, stop'⟩, depths'⟩ := second cursor same at_ open_
  rw [checked] at checked'
  obtain ⟨rfl, rfl⟩ := Prod.mk.inj (Option.some.inj checked')
  exact ⟨rfl, stop.symm.trans stop', depths.symm.trans depths'⟩

/-! ### Tests and skips -/

/-- Comparing the next token does not pass it. -/
theorem nextIs (text : Token) :
    Reads tokens (nextIs text) (token :: rest) depth (decide (token = text)) (token :: rest) depth :=
  hasMore.bind (token_cons.bind (pure _))

theorem nextIs_nil (text : Token) : Reads tokens (CursorProgram.nextIs text) [] depth false [] depth :=
  hasMore_nil.bind (pure false)

/-- Comparing it the other way does not pass it either. -/
theorem nextIsNot (text : Token) :
    Reads tokens (nextIsNot text) (token :: rest) depth (decide (token ≠ text)) (token :: rest)
      depth :=
  hasMore.bind (token_cons.bind (pure _))

theorem nextIsNot_nil (text : Token) :
    Reads tokens (CursorProgram.nextIsNot text) [] depth false [] depth :=
  hasMore_nil.bind (pure false)

/-- A branch whose condition holds reads what its first program reads. -/
theorem ite_pos {condition : Prop} [Decidable condition] {first second : CursorProgram Result}
    {value : Result} (holds : condition) (reads : Reads tokens first rest depth value after depth') :
    Reads tokens (if condition then first else second) rest depth value after depth' := by
  rwa [if_pos holds]

/-- A branch whose condition fails reads what its second program reads. -/
theorem ite_neg {condition : Prop} [Decidable condition] {first second : CursorProgram Result}
    {value : Result} (fails : ¬ condition)
    (reads : Reads tokens second rest depth value after depth') :
    Reads tokens (if condition then first else second) rest depth value after depth' := by
  rwa [if_neg fails]

/-- A token that is expected is passed. -/
theorem skipIf {text : Token} (same : token = text) :
    Reads tokens (skipIf text) (token :: rest) depth () rest (parenDepth depth token) :=
  (nextIs text).bind (ite_pos (decide_eq_true same) skip)

/-- Another token is left. -/
theorem skipIf_not {text : Token} (different : rest.head? ≠ some text) :
    Reads tokens (CursorProgram.skipIf text) rest depth () rest depth := by
  cases rest with
  | nil => exact (nextIs_nil text).bind (ite_neg Bool.false_ne_true (pure ()))
  | cons token rest =>
    have other : ¬ token = text := by simpa using different
    exact (nextIs text).bind (ite_neg (by simpa using other) (pure ()))

/-- An optional closing parenthesis. -/
theorem skipClose :
    Reads tokens (CursorProgram.skipIf [')']) rest depth () (dropClose rest)
      (closeDepth rest depth) := by
  by_cases close : rest.head? = some [')']
  · obtain ⟨beyond, rfl⟩ := List.head?_eq_some_iff.mp close
    exact skipIf rfl
  · have stays : dropClose rest = rest := by
      cases rest with
      | nil => rfl
      | cons token rest => exact if_neg (by simpa using close)
    rw [stays, closeDepth, if_neg close]
    exact skipIf_not close

/-- No keyword is a parenthesis. -/
theorem skipWord {keyword word : Token} (isWord : word.length ≠ 1)
    (same : toUpper keyword = word) :
    Reads tokens (CursorProgram.advance false) (keyword :: rest) depth () rest depth := by
  have long : keyword.length ≠ 1 := by rwa [← same, toUpper, List.length_map] at isWord
  have skipped : Reads tokens (CursorProgram.advance false) (keyword :: rest) depth () rest
      (parenDepth depth keyword) := skip
  rwa [parenDepth_other (fun open_ => long (by rw [open_]; rfl))
    (fun close => long (by rw [close]; rfl))] at skipped

/-- A keyword is passed in either case of letters, if it is there. -/
theorem skipKeyword {keyword : Token} (isWord : keyword.length ≠ 1) :
    Reads tokens (skipKeyword keyword) (token :: rest) depth ()
      (dropIf (fun token => toUpper token = keyword) (token :: rest)) depth := by
  unfold CursorProgram.skipKeyword
  rw [dropIf]
  by_cases same : toUpper token = keyword
  · rw [if_pos (decide_eq_true same)]
    exact token_cons.bind (ite_pos same (skipWord isWord same))
  · rw [if_neg (by simpa using same)]
    exact token_cons.bind (ite_neg same (pure ()))

/-- A table name is one token. -/
theorem parseTableName :
    Reads tokens CursorProgram.parseTableName (token :: rest) depth token rest depth :=
  atEnd.bind (ite_neg Bool.false_ne_true take)

theorem parseTableName_nil : Reads tokens CursorProgram.parseTableName [] depth [] [] depth :=
  atEnd_nil.bind (ite_pos rfl (pure []))

/-! ### The lists -/

/-- The loop over columns reads them up to where they end; fuel beyond the number of
tokens is enough. -/
theorem columnLoop (fuel : Nat) :
    ∀ {rest : List Token} (columns : List Token), rest.length < fuel →
      Reads tokens (CursorProgram.columnLoop fuel columns) rest depth
        (columns ++ (columnsIn rest).1)
        (columnsIn rest).2 (columnsDepth rest depth) := by
  induction fuel with
  | zero =>
    intro rest columns enough
    omega
  | succ fuel ih =>
    intro rest columns enough
    rw [CursorProgram.columnLoop]
    cases rest with
    | nil =>
      refine hasMore_nil.bind (ite_neg Bool.false_ne_true ?_)
      simpa [columnsDepth, closeDepth] using pure columns
    | cons token rest =>
      have restFuel : rest.length < fuel := by simpa using enough
      refine hasMore.bind (ite_pos rfl (token_cons.bind ?_))
      by_cases close : token = [')']
      · subst close
        refine ite_pos rfl (skip.bind ?_)
        rw [columnsIn_close, columnsDepth_close, List.append_nil]
        exact pure columns
      refine ite_neg close ?_
      by_cases comma : token = [',']
      · subst comma
        refine ite_pos rfl (skip.bind ?_)
        rw [columnsIn_comma, columnsDepth_cons rfl]
        exact ih columns restFuel
      refine ite_neg comma ?_
      by_cases keyword : isClauseKeyword token = true
      · refine ite_pos keyword ?_
        rw [columnsIn_keyword keyword close, columnsDepth_keyword keyword close, List.append_nil]
        exact pure columns
      have notKeyword : isClauseKeyword token = false := by simpa using keyword
      have inside : endsColumns token = false := by simp [endsColumns, notKeyword, close]
      refine ite_neg keyword (keep.bind ?_)
      rw [columnsIn_name notKeyword close comma, columnsDepth_cons inside]
      dsimp only
      rw [List.append_cons columns token (columnsIn rest).1]
      cases rest with
      | nil =>
        refine (nextIs_nil _).bind (ite_neg Bool.false_ne_true ?_)
        exact (nextIs_nil _).bind (ite_neg Bool.false_ne_true (ih (columns ++ [token]) restFuel))
      | cons following beyond =>
        refine (nextIs _).bind ?_
        by_cases commaFollows : following = [',']
        · subst commaFollows
          have beyondFuel : beyond.length < fuel := by
            simp only [List.length_cons] at restFuel
            omega
          refine ite_pos (decide_eq_true rfl) (skip.bind ?_)
          rw [columnsIn_comma, columnsDepth_cons rfl]
          exact ih (columns ++ [token]) beyondFuel
        refine ite_neg (by simpa using commaFollows) ((nextIs _).bind ?_)
        by_cases closeFollows : following = [')']
        · subst closeFollows
          refine ite_pos (decide_eq_true rfl) (skip.bind ?_)
          rw [columnsIn_close, columnsDepth_close, List.append_nil]
          exact pure (columns ++ [token])
        · refine ite_neg (by simpa using closeFollows) ?_
          exact ih (columns ++ [token]) restFuel

/-- The loop over values reads them up to where they end. -/
theorem valueLoop (fuel : Nat) :
    ∀ {rest : List Token} (values : List Token), rest.length < fuel →
      Reads tokens (CursorProgram.valueLoop fuel values) rest depth
        (values ++ (valuesIn rest).1) (valuesIn rest).2 (valuesDepth rest depth) := by
  induction fuel with
  | zero =>
    intro rest values enough
    omega
  | succ fuel ih =>
    intro rest values enough
    rw [CursorProgram.valueLoop]
    cases rest with
    | nil =>
      refine hasMore_nil.bind (ite_neg Bool.false_ne_true ?_)
      simpa [valuesIn_nil, valuesDepth, closeDepth] using pure values
    | cons token rest =>
      have restFuel : rest.length < fuel := by simpa using enough
      refine hasMore.bind (ite_pos rfl (token_cons.bind ?_))
      by_cases close : token = [')']
      · subst close
        refine ite_pos rfl (skip.bind ?_)
        rw [valuesIn_close, valuesDepth_close, List.append_nil]
        exact pure values
      refine ite_neg close ?_
      rw [valuesDepth_cons close]
      by_cases comma : token = [',']
      · subst comma
        refine ite_pos rfl (skip.bind ?_)
        rw [valuesIn_comma]
        exact ih values restFuel
      · refine ite_neg comma (keep.bind ?_)
        rw [valuesIn_value close comma]
        dsimp only
        rw [List.append_cons values token (valuesIn rest).1]
        exact ih (values ++ [token]) restFuel

/-- A list of columns, with or without brackets. -/
theorem parseColumnList {fuel : Nat} (enough : rest.length < fuel) :
    Reads tokens (CursorProgram.parseColumnList fuel) rest depth (columnList rest).1
      (columnList rest).2 (columnListDepth rest depth) := by
  unfold CursorProgram.parseColumnList
  cases rest with
  | nil => exact atEnd_nil.bind (ite_pos rfl (pure []))
  | cons first rest =>
    refine atEnd.bind (ite_neg Bool.false_ne_true (token_cons.bind ?_))
    by_cases star : first = ['*']
    · refine ite_pos star ?_
      rw [columnList, columnListDepth, if_pos star, if_pos star]
      exact keep.bind (pure _)
    refine ite_neg star ?_
    rw [columnList, columnListDepth, if_neg star, if_neg star]
    by_cases opened : first = ['(']
    · rw [if_pos opened, if_pos opened]
      subst opened
      exact (skipIf rfl).bind (columnLoop fuel [] (Nat.lt_of_succ_lt enough))
    · rw [if_neg opened, if_neg opened]
      exact (skipIf_not (by simpa using opened)).bind (columnLoop fuel [] enough)

/-- A list of values, with or without brackets. -/
theorem parseValueList {fuel : Nat} (enough : rest.length < fuel) :
    Reads tokens (CursorProgram.parseValueList fuel) rest depth (valueList rest).1
      (valueList rest).2 (valueListDepth rest depth) := by
  unfold CursorProgram.parseValueList
  cases rest with
  | nil => exact atEnd_nil.bind (ite_pos rfl (pure []))
  | cons first rest =>
    have shorter := (dropIf_sublist (fun token => toUpper token = "VALUES".toList)
      (first :: rest)).length_le
    refine atEnd.bind (ite_neg Bool.false_ne_true ((skipKeyword (by decide)).bind ?_))
    rw [valueList, valueListDepth]
    generalize dropIf (fun token => toUpper token = "VALUES".toList) (first :: rest) = values
      at shorter ⊢
    by_cases opened : values.head? = some ['(']
    · obtain ⟨inner, rfl⟩ := List.head?_eq_some_iff.mp opened
      rw [if_pos opened]
      refine (skipIf rfl).bind (valueLoop fuel [] ?_)
      simp only [List.length_cons] at shorter enough
      omega
    · rw [if_neg opened]
      have same : dropIf (fun token => token = ['(']) values = values := by
        cases values with
        | nil => rfl
        | cons value values => simpa [dropIf] using opened
      rw [same]
      exact (skipIf_not opened).bind (valueLoop fuel [] (by omega))

/-- INSERT's list of columns in brackets. -/
theorem parseInsertColumns {fuel : Nat} (result : ParseResult)
    (enough : (['('] :: rest).length < fuel) :
    Reads tokens (CursorProgram.parseInsertColumns fuel result) (['('] :: rest) depth
      (result.set .columns (joinComma (columnsIn rest).1)) (columnsIn rest).2
      (columnsDepth rest (depth + 1)) := by
  refine (nextIs _).bind (ite_pos (decide_eq_true rfl) ?_)
  have list := @parseColumnList tokens (['('] :: rest) depth fuel enough
  rw [columnList, columnListDepth, if_neg (by decide), if_pos rfl, if_neg (by decide),
    if_pos rfl] at list
  exact list.bind (pure _)

/-- Without a bracket INSERT reads no list of columns. -/
theorem parseInsertColumns_not {fuel : Nat} (result : ParseResult)
    (unopened : rest.head? ≠ some ['(']) :
    Reads tokens (CursorProgram.parseInsertColumns fuel result) rest depth result rest depth := by
  cases rest with
  | nil => exact (nextIs_nil _).bind (ite_neg Bool.false_ne_true (pure result))
  | cons token rest =>
    have other : ¬ token = ['('] := by simpa using unopened
    exact (nextIs _).bind (ite_neg (by simpa using other) (pure result))

/-! ### Column definitions -/

/-- The loop passes over tokens up to a closing bracket and counts the opening ones. -/
theorem skipToClose (fuel : Nat) :
    ∀ {rest : List Token} {depth : Nat}, rest.length < fuel →
      Reads tokens (CursorProgram.skipToClose fuel) rest depth ()
        (rest.dropWhile fun token => token ≠ [')'])
        (depth + (rest.takeWhile fun token => token ≠ [')']).count ['(']) := by
  induction fuel with
  | zero =>
    intro rest depth enough
    omega
  | succ fuel ih =>
    intro rest depth enough
    rw [CursorProgram.skipToClose]
    cases rest with
    | nil => exact (nextIsNot_nil _).bind (ite_neg Bool.false_ne_true (pure ()))
    | cons token rest =>
      have restFuel : rest.length < fuel := by simpa using enough
      refine (nextIsNot _).bind ?_
      by_cases close : token = [')']
      · subst close
        exact ite_neg (by decide) (pure ())
      · refine ite_pos (by simpa using close) (skip.bind ?_)
        rw [List.dropWhile_cons_of_pos (by simpa using close),
          List.takeWhile_cons_of_pos (by simpa using close)]
        by_cases opened : token = ['(']
        · subst opened
          have counted : ∀ more : List Token,
              depth + (['('] :: more).count ['('] = depth + 1 + more.count ['('] := by
            intro more
            rw [List.count_cons_self]
            omega
          rw [counted]
          exact ih restFuel
        · rw [parenDepth_other opened close, List.count_cons_of_ne opened]
          exact ih restFuel

/-- The size of a type is passed over, brackets included. -/
theorem skipSize {inner : List Token} {fuel : Nat} (enough : inner.length < fuel) :
    Reads tokens (CursorProgram.skipSize fuel) (['('] :: inner) depth () (afterClose inner)
      (sizeDepth inner depth) := by
  refine (nextIs _).bind (ite_pos (decide_eq_true rfl) (skip.bind ((skipToClose fuel enough).bind ?_)))
  rw [afterClose, sizeDepth, parenDepth_open]
  have stops := List.head?_dropWhile_not (fun token => decide (token ≠ [')'])) inner
  generalize (inner.dropWhile fun token => token ≠ [')']) = stop at stops ⊢
  cases stop with
  | nil => exact skipIf_not (by simp)
  | cons token beyond =>
    obtain rfl : token = [')'] := by simpa using stops
    exact skipIf rfl

/-- A type without a size. -/
theorem skipSize_not {fuel : Nat} (unsized : rest.head? ≠ some ['(']) :
    Reads tokens (CursorProgram.skipSize fuel) rest depth () rest depth := by
  cases rest with
  | nil => exact (nextIs_nil _).bind (ite_neg Bool.false_ne_true (pure ()))
  | cons token rest =>
    have other : ¬ token = ['('] := by simpa using unsized
    exact (nextIs _).bind (ite_neg (by simpa using other) (pure ()))

section DefinitionLoop

variable {fuel : Nat} {before value : List Token}

/-- Column definitions end with the tokens. -/
theorem definitionLoop_nil :
    Reads tokens (CursorProgram.definitionLoop (fuel + 1) before) [] depth before [] depth :=
  (nextIsNot_nil _).bind (ite_neg Bool.false_ne_true (pure before))

/-- Column definitions end at a closing bracket. -/
theorem definitionLoop_close :
    Reads tokens (CursorProgram.definitionLoop (fuel + 1) before) ([')'] :: rest) depth before
      ([')'] :: rest) depth :=
  (nextIsNot _).bind (ite_neg (by decide) (pure before))

/-- A comma between column definitions is passed over. -/
theorem definitionLoop_comma
    (later : Reads tokens (CursorProgram.definitionLoop fuel before) rest depth value after depth') :
    Reads tokens (CursorProgram.definitionLoop (fuel + 1) before) ([','] :: rest) depth value after
      depth' :=
  (nextIsNot _).bind (ite_pos (by decide) (token_cons.bind (ite_pos rfl (skip.bind later))))

/-- The name of a column is kept. -/
theorem definitionLoop_name (notClose : token ≠ [')']) (notComma : token ≠ [','])
    (notKeyword : isTypeKeyword token = false)
    (later : Reads tokens (CursorProgram.definitionLoop fuel (before ++ [token])) rest depth value
      after depth') :
    Reads tokens (CursorProgram.definitionLoop (fuel + 1) before) (token :: rest) depth value after
      depth' := by
  refine (nextIsNot _).bind (ite_pos (by simpa using notClose) (token_cons.bind ?_))
  exact ite_neg notComma (ite_neg (by simp [notKeyword]) (keep.bind later))

/-- A type keyword, and what stands behind it. -/
theorem definitionLoop_type (isType : isTypeKeyword token = true) {sized : List Token}
    {depthSized : Nat}
    (size : Reads tokens (CursorProgram.skipSize fuel) rest depth () sized depthSized)
    (later : Reads tokens (CursorProgram.definitionLoop fuel before) sized depthSized value after
      depth') :
    Reads tokens (CursorProgram.definitionLoop (fuel + 1) before) (token :: rest) depth value after
      depth' := by
  obtain ⟨notClose, notComma⟩ := isTypeKeyword_ne_symbol isType
  have notOpen : token ≠ ['('] := by
    rintro rfl
    exact absurd isType (by decide)
  have skipped : Reads tokens (CursorProgram.advance false) (token :: rest) depth () rest
      (parenDepth depth token) := skip
  rw [parenDepth_other notOpen notClose] at skipped
  refine (nextIsNot _).bind (ite_pos (by simpa using notClose) (token_cons.bind ?_))
  exact ite_neg notComma (ite_pos isType (skipped.bind (size.bind later)))

end DefinitionLoop

end Reads

/-- Column definitions whose parentheses are all closed, with the names they hold. -/
inductive ClosedDefinitions : List Token → List Token → Prop where
  | close (rest : List Token) : ClosedDefinitions ([')'] :: rest) []
  | comma {rest names : List Token} (later : ClosedDefinitions rest names) :
      ClosedDefinitions ([','] :: rest) names
  | sized {type : Token} {size rest names : List Token} (isType : isTypeKeyword type = true)
      (plain : ∀ token ∈ size, token ≠ ['('] ∧ token ≠ [')'])
      (later : ClosedDefinitions rest names) :
      ClosedDefinitions (type :: ['('] :: (size ++ [')'] :: rest)) names
  | type {type : Token} {rest names : List Token} (isType : isTypeKeyword type = true)
      (unsized : rest.head? ≠ some ['(']) (later : ClosedDefinitions rest names) :
      ClosedDefinitions (type :: rest) names
  | name {name : Token} {rest names : List Token} (notClose : name ≠ [')'])
      (notComma : name ≠ [',']) (notType : isTypeKeyword name = false)
      (later : ClosedDefinitions rest names) : ClosedDefinitions (name :: rest) (name :: names)

/-- The size of a type closes no bracket that was open before it. -/
theorem le_sizeDepth (inner : List Token) (depth : Nat) : depth ≤ sizeDepth inner depth := by
  rw [sizeDepth, closeDepth]
  split
  · omega
  · omega

/-- A size that leaves no parenthesis open ends at its first parenthesis, a closing one. -/
theorem closed_of_sizeDepth {inner : List Token} {depth : Nat}
    (closed : sizeDepth inner depth = depth) :
    ∃ size, inner = size ++ [')'] :: afterClose inner ∧
      ∀ token ∈ size, token ≠ ['('] ∧ token ≠ [')'] := by
  rw [sizeDepth, closeDepth] at closed
  split at closed
  · next ends =>
    obtain ⟨beyond, stop⟩ := List.head?_eq_some_iff.mp ends
    have noOpen : (inner.takeWhile fun token => token ≠ [')']).count ['('] = 0 := by omega
    refine ⟨inner.takeWhile fun token => token ≠ [')'], ?_, fun token member => ⟨?_, ?_⟩⟩
    · rw [afterClose, stop, List.tail_cons, ← stop, List.takeWhile_append_dropWhile]
    · rintro rfl
      exact List.count_eq_zero.mp noOpen member
    · simpa using List.all_eq_true.mp List.all_takeWhile token member
  · omega

/-- A size without brackets of its own leaves the depth. -/
theorem sizeDepth_closed {size rest : List Token} (depth : Nat)
    (plain : ∀ token ∈ size, token ≠ ['('] ∧ token ≠ [')']) :
    sizeDepth (size ++ [')'] :: rest) depth = depth ∧ afterClose (size ++ [')'] :: rest) = rest := by
  have passed : ∀ token ∈ size, decide (token ≠ [')']) = true :=
    fun token member => decide_eq_true (plain token member).2
  have noOpen : size.count ['('] = 0 :=
    List.count_eq_zero.mpr fun member => (plain _ member).1 rfl
  have stop : (size ++ [')'] :: rest).dropWhile (fun token => decide (token ≠ [')'])) =
      [')'] :: rest := by
    rw [List.dropWhile_append_of_pos passed]
    rfl
  have start : (size ++ [')'] :: rest).takeWhile (fun token => decide (token ≠ [')'])) = size := by
    rw [List.takeWhile_append_of_pos passed]
    exact List.append_nil size
  refine ⟨?_, ?_⟩
  · rw [sizeDepth, stop, start, noOpen]
    rfl
  · rw [afterClose, stop]
    rfl

namespace Reads

variable {tokens rest columns stop names : List Token}

/-- The loop of `ParseCreateTable` collects the names; it closes no parenthesis that was
open before, and if it opens none for good and stops at a closing one then the
definitions are closed. -/
theorem definitionLoop (definitions : Definitions rest columns stop) :
    ∀ {fuel depth : Nat} (before : List Token), rest.length < fuel →
      ∃ depth', Reads tokens (CursorProgram.definitionLoop fuel before) rest depth
          (before ++ columns) stop depth' ∧ depth ≤ depth' ∧
        (depth' = depth → stop.head? = some [')'] → ClosedDefinitions rest columns) := by
  induction definitions with
  | atEnd =>
    intro fuel depth before enough
    obtain ⟨fuel, rfl⟩ := Nat.exists_eq_succ_of_ne_zero (by omega : fuel ≠ 0)
    rw [List.append_nil]
    exact ⟨depth, definitionLoop_nil, Nat.le_refl _, fun _ ends => by cases ends⟩
  | close rest =>
    intro fuel depth before enough
    obtain ⟨fuel, rfl⟩ := Nat.exists_eq_succ_of_ne_zero (by omega : fuel ≠ 0)
    rw [List.append_nil]
    exact ⟨depth, definitionLoop_close, Nat.le_refl _, fun _ _ => .close rest⟩
  | comma _ ih =>
    intro fuel depth before enough
    obtain ⟨fuel, rfl⟩ := Nat.exists_eq_succ_of_ne_zero (by omega : fuel ≠ 0)
    obtain ⟨depth', reads, grows, closed⟩ := @ih fuel depth before (by simpa using enough)
    exact ⟨depth', definitionLoop_comma reads, grows, fun same ends => .comma (closed same ends)⟩
  | @sized type inner columns stop isType _ ih =>
    intro fuel depth before enough
    obtain ⟨fuel, rfl⟩ := Nat.exists_eq_succ_of_ne_zero (by omega : fuel ≠ 0)
    have bound := length_afterClose_le inner
    simp only [List.length_cons] at enough
    obtain ⟨depth', reads, grows, closed⟩ := @ih fuel (sizeDepth inner depth) before (by omega)
    have opened := le_sizeDepth inner depth
    refine ⟨depth', definitionLoop_type isType (skipSize (by omega)) reads, by omega, ?_⟩
    intro same ends
    have sizeClosed : sizeDepth inner depth = depth := by omega
    obtain ⟨size, shape, plain⟩ := closed_of_sizeDepth sizeClosed
    rw [shape]
    exact .sized isType plain (closed (by omega) ends)
  | keyword isType unsized _ ih =>
    intro fuel depth before enough
    obtain ⟨fuel, rfl⟩ := Nat.exists_eq_succ_of_ne_zero (by omega : fuel ≠ 0)
    obtain ⟨depth', reads, grows, closed⟩ := @ih fuel depth before (by simpa using enough)
    exact ⟨depth', definitionLoop_type isType (skipSize_not unsized) reads, grows,
      fun same ends => .type isType unsized (closed same ends)⟩
  | @name token rest columns stop notClose notComma notKeyword _ ih =>
    intro fuel depth before enough
    obtain ⟨fuel, rfl⟩ := Nat.exists_eq_succ_of_ne_zero (by omega : fuel ≠ 0)
    obtain ⟨depth', reads, grows, closed⟩ :=
      @ih fuel depth (before ++ [token]) (by simpa using enough)
    rw [← List.append_cons] at reads
    exact ⟨depth', definitionLoop_name notClose notComma notKeyword reads, grows,
      fun same ends => .name notClose notComma notKeyword (closed same ends)⟩

/-- On closed definitions the loop stops at the closing parenthesis, with no other one
open. -/
theorem definitionLoop_closed {depth : Nat} (definitions : ClosedDefinitions rest names) :
    ∀ {fuel : Nat} (before : List Token), rest.length < fuel →
      ∃ beyond, Reads tokens (CursorProgram.definitionLoop fuel before) rest depth (before ++ names)
        ([')'] :: beyond) depth := by
  induction definitions with
  | close rest =>
    intro fuel before enough
    obtain ⟨fuel, rfl⟩ := Nat.exists_eq_succ_of_ne_zero (by omega : fuel ≠ 0)
    rw [List.append_nil]
    exact ⟨rest, definitionLoop_close⟩
  | comma _ ih =>
    intro fuel before enough
    obtain ⟨fuel, rfl⟩ := Nat.exists_eq_succ_of_ne_zero (by omega : fuel ≠ 0)
    obtain ⟨beyond, reads⟩ := ih before (by simpa using enough)
    exact ⟨beyond, definitionLoop_comma reads⟩
  | @sized type size rest names isType plain _ ih =>
    intro fuel before enough
    obtain ⟨fuel, rfl⟩ := Nat.exists_eq_succ_of_ne_zero (by omega : fuel ≠ 0)
    simp only [List.length_cons, List.length_append] at enough
    obtain ⟨beyond, reads⟩ := @ih fuel before (by omega)
    obtain ⟨sameDepth, after⟩ := @sizeDepth_closed size rest depth plain
    have skipped : Reads tokens (CursorProgram.skipSize fuel)
        (['('] :: (size ++ [')'] :: rest)) depth () (afterClose (size ++ [')'] :: rest))
        (sizeDepth (size ++ [')'] :: rest) depth) :=
      skipSize (by simp only [List.length_cons, List.length_append]; omega)
    rw [sameDepth, after] at skipped
    exact ⟨beyond, definitionLoop_type isType skipped reads⟩
  | type isType unsized _ ih =>
    intro fuel before enough
    obtain ⟨fuel, rfl⟩ := Nat.exists_eq_succ_of_ne_zero (by omega : fuel ≠ 0)
    obtain ⟨beyond, reads⟩ := ih before (by simpa using enough)
    exact ⟨beyond, definitionLoop_type isType (skipSize_not unsized) reads⟩
  | @name name rest names notClose notComma notType _ ih =>
    intro fuel before enough
    obtain ⟨fuel, rfl⟩ := Nat.exists_eq_succ_of_ne_zero (by omega : fuel ≠ 0)
    obtain ⟨beyond, reads⟩ := ih (before ++ [name]) (by simpa using enough)
    rw [← List.append_cons] at reads
    exact ⟨beyond, definitionLoop_name notClose notComma notType reads⟩

end Reads

end MiniDB.Parser
