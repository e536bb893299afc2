import MiniDB.Parser.SQLParser

/-!
# What the list parsers read

`At` names the tokens from a position on. For each list parser there is a
description of the list it collects and of the tokens it leaves, in terms of the
tokens in front of it: a column list runs to the first `)` or clause keyword, a
value list to the first `)`. The parsers are shown to compute just that, without
reading past the end and without running out of fuel.
-/

namespace MiniDB.Parser

/-- `rest` is what the tokens hold from position `pos` on. -/
def At (tokens : List Token) (pos : Nat) (rest : List Token) : Prop :=
  pos ≤ tokens.length ∧ tokens.drop pos = rest

namespace At

variable {tokens rest : List Token} {pos : Nat} {token : Token}

/-- The cursor is at the first token. -/
theorem start (tokens : List Token) : At tokens 0 tokens := ⟨Nat.zero_le _, rfl⟩

theorem get? (located : At tokens pos rest) : tokens[pos]? = rest.head? := by
  rw [← located.2, List.head?_drop]

/-- The token at the cursor. -/
theorem get?_cons (located : At tokens pos (token :: rest)) : tokens[pos]? = some token :=
  located.get?

theorem length_eq (located : At tokens pos rest) : tokens.length = pos + rest.length := by
  have lengths := congrArg List.length located.2
  rw [List.length_drop] at lengths
  have bounded := located.1
  omega

/-- The cursor goes on by one token. -/
theorem next (located : At tokens pos (token :: rest)) : At tokens (pos + 1) rest := by
  have length := located.length_eq
  refine ⟨by simp at length; omega, ?_⟩
  rw [← List.tail_drop, located.2, List.tail_cons]

/-- With a token left the cursor is not at the end. -/
theorem not_end (located : At tokens pos (token :: rest)) : ¬ tokens.length ≤ pos := by
  have length := located.length_eq
  simp at length
  omega

/-- Without a token left it is. -/
theorem at_end (located : At tokens pos []) : tokens.length ≤ pos := by
  have length := located.length_eq
  simp at length
  omega

end At

/-! ## Column lists -/

/-- The tokens that end a column list. -/
def endsColumns (token : Token) : Bool := token = [')'] || isClauseKeyword token

/-- Drop a closing parenthesis in front, if there is one. -/
def dropClose : List Token → List Token
  | [] => []
  | token :: rest => if token = [')'] then rest else token :: rest

/-- The tokens in front of which are not commas. -/
def withoutCommas (tokens : List Token) : List Token := tokens.filter fun token => token ≠ [',']

/-- The columns a column list collects, and the tokens after it. -/
def columnsIn (rest : List Token) : List Token × List Token :=
  (withoutCommas (rest.takeWhile fun token => !endsColumns token),
    dropClose (rest.dropWhile fun token => !endsColumns token))

/-- A column list as `ParseColumnList` reads it: `*` alone, or columns with an
optional opening parenthesis. -/
def columnList : List Token → List Token × List Token
  | [] => ([], [])
  | first :: rest =>
    if first = ['*'] then ([['*']], rest)
    else if first = ['('] then columnsIn rest
    else columnsIn (first :: rest)

@[simp] theorem columnsIn_nil : columnsIn [] = ([], []) := rfl

theorem columnsIn_close (rest : List Token) : columnsIn ([')'] :: rest) = ([], rest) := by
  simp [columnsIn, endsColumns, withoutCommas, dropClose]

theorem columnsIn_comma (rest : List Token) : columnsIn ([','] :: rest) = columnsIn rest := by
  have notEnd : endsColumns [','] = false := by decide
  simp [columnsIn, notEnd, withoutCommas]

/-- A keyword ends the list and is left. -/
theorem columnsIn_keyword {token : Token} (keyword : isClauseKeyword token = true)
    (notClose : token ≠ [')']) (rest : List Token) :
    columnsIn (token :: rest) = ([], token :: rest) := by
  simp [columnsIn, endsColumns, keyword, withoutCommas, dropClose, notClose]

/-- A name is taken. -/
theorem columnsIn_name {token : Token} (notKeyword : isClauseKeyword token = false)
    (notClose : token ≠ [')']) (notComma : token ≠ [',']) (rest : List Token) :
    columnsIn (token :: rest) = (token :: (columnsIn rest).1, (columnsIn rest).2) := by
  have notEnd : endsColumns token = false := by simp [endsColumns, notKeyword, notClose]
  simp [columnsIn, notEnd, withoutCommas, notComma]

/-- The loop of `ParseColumnList` collects the columns in front of it. -/
theorem columnLoop_eq {tokens : List Token} (fuel : Nat) :
    ∀ {pos : Nat} {rest : List Token} (columns : List Token), At tokens pos rest →
      rest.length < fuel →
      ∃ after, columnLoop tokens fuel pos columns = some (columns ++ (columnsIn rest).1, after) ∧
        At tokens after (columnsIn rest).2 := by
  induction fuel with
  | zero =>
    intro pos rest columns _ enough
    omega
  | succ fuel ih =>
    intro pos rest columns located enough
    unfold columnLoop
    cases rest with
    | nil =>
      have atEnd := located.at_end
      rw [if_neg (by omega)]
      exact ⟨pos, by simp, located⟩
    | cons token rest =>
      have notEnd := located.not_end
      have restFuel : rest.length < fuel := by simpa using enough
      rw [if_pos (by omega)]
      simp only [located.get?_cons, Option.bind_eq_bind, Option.bind_some, Option.pure_def]
      by_cases close : token = [')']
      · subst close
        rw [if_pos rfl, columnsIn_close]
        exact ⟨pos + 1, by simp, located.next⟩
      rw [if_neg close]
      by_cases comma : token = [',']
      · subst comma
        rw [if_pos rfl, columnsIn_comma]
        exact ih columns located.next restFuel
      rw [if_neg comma]
      by_cases keyword : isClauseKeyword token = true
      · rw [if_pos keyword, columnsIn_keyword keyword close]
        exact ⟨pos, by simp, located⟩
      have notKeyword : isClauseKeyword token = false := by simpa using keyword
      rw [if_neg keyword, columnsIn_name notKeyword close comma, located.next.get?]
      cases rest with
      | nil =>
        obtain ⟨after, returned, locatedAfter⟩ := ih (columns ++ [token]) located.next restFuel
        exact ⟨after, by simpa using returned, locatedAfter⟩
      | cons following beyond =>
        simp only [List.head?_cons, Option.some.injEq]
        by_cases commaFollows : following = [',']
        · subst commaFollows
          rw [if_pos rfl, columnsIn_comma]
          have beyondFuel : beyond.length < fuel := by
            simp only [List.length_cons] at restFuel
            omega
          obtain ⟨after, returned, locatedAfter⟩ :=
            ih (columns ++ [token]) located.next.next beyondFuel
          exact ⟨after, by simpa using returned, locatedAfter⟩
        rw [if_neg commaFollows]
        by_cases closeFollows : following = [')']
        · subst closeFollows
          rw [if_pos rfl, columnsIn_close]
          exact ⟨pos + 2, by simp, located.next.next⟩
        rw [if_neg closeFollows]
        obtain ⟨after, returned, locatedAfter⟩ :=
          ih (columns ++ [token]) located.next restFuel
        exact ⟨after, by simpa using returned, locatedAfter⟩

/-- `ParseColumnList` returns the column list in front of it. -/
theorem parseColumnList_eq {tokens rest : List Token} {pos : Nat} (located : At tokens pos rest) :
    ∃ after, parseColumnList tokens pos = some ((columnList rest).1, after) ∧
      At tokens after (columnList rest).2 := by
  unfold parseColumnList
  cases rest with
  | nil =>
    rw [if_pos located.at_end]
    exact ⟨pos, rfl, located⟩
  | cons first rest =>
    have length := located.length_eq
    simp only [List.length_cons] at length
    rw [if_neg located.not_end]
    simp only [located.get?_cons, Option.bind_eq_bind, Option.bind_some, Option.pure_def,
      Option.some.injEq, columnList]
    by_cases star : first = ['*']
    · rw [if_pos star, if_pos star]
      exact ⟨pos + 1, rfl, located.next⟩
    rw [if_neg star, if_neg star]
    by_cases opened : first = ['(']
    · rw [if_pos opened, if_pos opened]
      exact columnLoop_eq _ [] located.next (by omega)
    · rw [if_neg opened, if_neg opened]
      exact columnLoop_eq _ [] located (by simp only [List.length_cons]; omega)

/-! ## Value lists -/

/-- The values in front of a closing parenthesis or the end, and the tokens after it. -/
def valuesIn (rest : List Token) : List Token × List Token :=
  (withoutCommas (rest.takeWhile fun token => token ≠ [')']),
    dropClose (rest.dropWhile fun token => token ≠ [')']))

/-- Drop the first token if it satisfies the test. -/
def dropIf (test : Token → Bool) : List Token → List Token
  | [] => []
  | token :: rest => if test token then rest else token :: rest

/-- At most one token is left out. -/
theorem dropIf_sublist (test : Token → Bool) (rest : List Token) :
    (dropIf test rest).Sublist rest := by
  cases rest with
  | nil => exact List.Sublist.refl _
  | cons token rest =>
    rw [dropIf]
    split
    · exact List.sublist_cons_self token rest
    · exact List.Sublist.refl _

/-- What a column list leaves is the end of what it was read from. -/
theorem columnsIn_after_sublist (rest : List Token) : (columnsIn rest).2.Sublist rest := by
  have closed : ∀ tokens : List Token, (dropClose tokens).Sublist tokens := by
    intro tokens
    cases tokens with
    | nil => exact List.Sublist.refl _
    | cons token tokens =>
      rw [dropClose]
      split
      · exact List.sublist_cons_self token tokens
      · exact List.Sublist.refl _
  exact (closed _).trans (List.dropWhile_sublist _)

/-- A value list as `ParseValueList` reads it: `VALUES` and the opening
parenthesis are both optional. -/
def valueList (rest : List Token) : List Token × List Token :=
  valuesIn (dropIf (fun token => token = ['(']) (dropIf (fun token => toUpper token = "VALUES".toList)
    rest))

theorem valuesIn_nil : valuesIn [] = ([], []) := rfl

theorem valuesIn_close (rest : List Token) : valuesIn ([')'] :: rest) = ([], rest) := by
  simp [valuesIn, withoutCommas, dropClose]

theorem valuesIn_comma (rest : List Token) : valuesIn ([','] :: rest) = valuesIn rest := by
  simp [valuesIn, withoutCommas]

/-- A value is taken. -/
theorem valuesIn_value {token : Token} (notClose : token ≠ [')']) (notComma : token ≠ [','])
    (rest : List Token) :
    valuesIn (token :: rest) = (token :: (valuesIn rest).1, (valuesIn rest).2) := by
  simp [valuesIn, withoutCommas, notClose, notComma]

/-- The loop takes the values up to where they end, if its fuel is beyond the number of
tokens. -/
theorem valueLoop_eq {tokens : List Token} (fuel : Nat) :
    ∀ {pos : Nat} {rest : List Token} (values : List Token), At tokens pos rest →
      rest.length < fuel →
      ∃ after, valueLoop tokens fuel pos values = some (values ++ (valuesIn rest).1, after) ∧
        At tokens after (valuesIn rest).2 := by
  induction fuel with
  | zero =>
    intro pos rest values _ enough
    omega
  | succ fuel ih =>
    intro pos rest values located enough
    unfold valueLoop
    cases rest with
    | nil =>
      have atEnd := located.at_end
      rw [if_neg (by omega)]
      exact ⟨pos, by simp [valuesIn_nil], located⟩
    | cons token rest =>
      have notEnd := located.not_end
      have restFuel : rest.length < fuel := by simpa using enough
      rw [if_pos (by omega)]
      simp only [located.get?_cons, Option.bind_eq_bind, Option.bind_some, Option.pure_def]
      by_cases close : token = [')']
      · subst close
        rw [if_pos rfl, valuesIn_close]
        exact ⟨pos + 1, by simp, located.next⟩
      rw [if_neg close]
      by_cases comma : token = [',']
      · subst comma
        rw [if_pos rfl, valuesIn_comma]
        exact ih values located.next restFuel
      rw [if_neg comma, valuesIn_value close comma]
      obtain ⟨after, returned, locatedAfter⟩ := ih (values ++ [token]) located.next restFuel
      exact ⟨after, by simpa using returned, locatedAfter⟩

/-- Skipping an optional token moves the position past it. -/
theorem At.dropIf {tokens rest : List Token} {pos : Nat} (located : At tokens pos rest)
    (test : Token → Bool) :
    At tokens (if rest.head?.any test then pos + 1 else pos) (dropIf test rest) := by
  cases rest with
  | nil => simpa [Parser.dropIf] using located
  | cons token rest =>
    by_cases passes : test token = true
    · simpa [Parser.dropIf, passes] using located.next
    · simpa [Parser.dropIf, passes] using located

/-- `ParseValueList` returns the value list in front of it. -/
theorem parseValueList_eq {tokens rest : List Token} {pos : Nat} (located : At tokens pos rest) :
    ∃ after, parseValueList tokens pos = some ((valueList rest).1, after) ∧
      At tokens after (valueList rest).2 := by
  unfold parseValueList
  cases rest with
  | nil =>
    rw [if_pos located.at_end]
    exact ⟨pos, rfl, located⟩
  | cons first rest =>
    rw [if_neg located.not_end]
    simp only [located.get?_cons, Option.bind_eq_bind, Option.bind_some]
    have afterValues := located.dropIf fun token => toUpper token = "VALUES".toList
    have afterOpen := afterValues.dropIf fun token => token = ['(']
    have positions : (if toUpper first = "VALUES".toList then pos + 1 else pos) =
        if (first :: rest).head?.any fun token => toUpper token = "VALUES".toList then pos + 1
          else pos := by simp only [List.head?_cons, Option.any_some, decide_eq_true_eq]
    rw [positions]
    have opened : ∀ {at_ : Nat} {remaining : List Token}, At tokens at_ remaining →
        (tokens[at_]? = some ['('] ↔ (remaining.head?.any fun token => token = ['(']) = true) := by
      intro at_ remaining here
      rw [here.get?]
      cases remaining <;> simp
    simp only [opened afterValues]
    refine valueLoop_eq _ [] afterOpen ?_
    rw [afterOpen.length_eq, Nat.add_sub_cancel_left]
    exact Nat.lt_succ_self _

/-! ## Column definitions -/

/-- What follows the first closing parenthesis. -/
def afterClose (rest : List Token) : List Token :=
  (rest.dropWhile fun token => token ≠ [')']).tail

/-- The loop goes to the token behind the closing bracket. -/
theorem skipToClose_eq {tokens : List Token} (fuel : Nat) :
    ∀ {pos : Nat} {rest : List Token}, At tokens pos rest → rest.length < fuel →
      ∃ after, skipToClose tokens fuel pos = some after ∧ At tokens after (afterClose rest) := by
  induction fuel with
  | zero =>
    intro pos rest _ enough
    omega
  | succ fuel ih =>
    intro pos rest located enough
    unfold skipToClose
    cases rest with
    | nil =>
      have atEnd := located.at_end
      rw [if_neg (by omega)]
      exact ⟨pos, rfl, located⟩
    | cons token rest =>
      have notEnd := located.not_end
      rw [if_pos (by omega)]
      simp only [located.get?_cons, Option.bind_eq_bind, Option.bind_some, Option.pure_def]
      by_cases close : token = [')']
      · rw [if_pos close]
        exact ⟨pos + 1, rfl, by simpa [afterClose, close] using located.next⟩
      · rw [if_neg close]
        obtain ⟨after, returned, locatedAfter⟩ := ih located.next (by simpa using enough)
        exact ⟨after, returned, by simpa [afterClose, close] using locatedAfter⟩

/-- `Definitions rest columns after`: reading column definitions from `rest` up to
the closing parenthesis that ends them collects `columns` and stops at `after`. -/
inductive Definitions : List Token → List Token → List Token → Prop where
  | atEnd : Definitions [] [] []
  | close (rest : List Token) : Definitions ([')'] :: rest) [] ([')'] :: rest)
  | comma {rest columns after : List Token} (later : Definitions rest columns after) :
      Definitions ([','] :: rest) columns after
  | sized {token : Token} {rest columns after : List Token} (keyword : isTypeKeyword token = true)
      (later : Definitions (afterClose rest) columns after) :
      Definitions (token :: ['('] :: rest) columns after
  | keyword {token : Token} {rest columns after : List Token}
      (keyword : isTypeKeyword token = true) (unsized : rest.head? ≠ some ['('])
      (later : Definitions rest columns after) : Definitions (token :: rest) columns after
  | name {token : Token} {rest columns after : List Token} (notClose : token ≠ [')'])
      (notComma : token ≠ [',']) (notKeyword : isTypeKeyword token = false)
      (later : Definitions rest columns after) :
      Definitions (token :: rest) (token :: columns) after

/-- Nothing is added by that. -/
theorem length_afterClose_le (rest : List Token) : (afterClose rest).length ≤ rest.length := by
  have dropped : (rest.dropWhile fun token => token ≠ [')']).length ≤ rest.length :=
    (List.dropWhile_sublist _).length_le
  simp only [afterClose, List.length_tail]
  omega

/-- Every token list can be read as definitions. -/
theorem definitions_total (rest : List Token) : ∃ columns after, Definitions rest columns after := by
  induction length : rest.length using Nat.strongRecOn generalizing rest with
  | _ size ih =>
    cases rest with
    | nil => exact ⟨[], [], .atEnd⟩
    | cons token rest =>
      have shorter : rest.length < size := by simp at length; omega
      by_cases close : token = [')']
      · subst close
        exact ⟨[], _, .close rest⟩
      obtain ⟨columns, after, later⟩ := ih rest.length shorter rest rfl
      by_cases comma : token = [',']
      · subst comma
        exact ⟨columns, after, .comma later⟩
      by_cases keyword : isTypeKeyword token = true
      · by_cases sized : rest.head? = some ['(']
        · obtain ⟨inner, rfl⟩ := List.head?_eq_some_iff.mp sized
          have innerShorter : (afterClose inner).length < size := by
            have bound := length_afterClose_le inner
            simp at shorter
            omega
          obtain ⟨columns, after, later⟩ := ih _ innerShorter (afterClose inner) rfl
          exact ⟨columns, after, .sized keyword later⟩
        · exact ⟨columns, after, .keyword keyword sized later⟩
      · exact ⟨token :: columns, after, .name close comma (by simpa using keyword) later⟩

/-- No type keyword is one of the symbols the loop of `ParseCreateTable` asks for. -/
theorem isTypeKeyword_ne_symbol {token : Token} (keyword : isTypeKeyword token = true) :
    token ≠ [')'] ∧ token ≠ [','] := by
  constructor <;>
  · rintro rfl
    revert keyword
    decide

/-- One round of the loop of `ParseCreateTable`. -/
theorem definitionLoop_cons {tokens rest : List Token} {pos : Nat} {token : Token}
    (located : At tokens pos (token :: rest)) (fuel : Nat) (before : List Token) :
    definitionLoop tokens (fuel + 1) pos before =
      if token = [')'] then some (before, pos)
      else if token = [','] then definitionLoop tokens fuel (pos + 1) before
      else if isTypeKeyword token then
        if rest.head? = some ['('] then
          (skipToClose tokens (tokens.length - (pos + 2) + 1) (pos + 2)).bind fun stop =>
            definitionLoop tokens fuel stop before
        else definitionLoop tokens fuel (pos + 1) before
      else definitionLoop tokens fuel (pos + 1) (before ++ [token]) := by
  have notEnd := located.not_end
  rw [definitionLoop, if_pos (by omega), located.get?_cons, located.next.get?]
  rfl

/-- The loop of `ParseCreateTable` reads the definitions in front of it. -/
theorem definitionLoop_eq {tokens rest columns after : List Token}
    (definitions : Definitions rest columns after) :
    ∀ {fuel pos : Nat} (before : List Token), At tokens pos rest → rest.length < fuel →
      ∃ stop, definitionLoop tokens fuel pos before = some (before ++ columns, stop) ∧
        At tokens stop after := by
  induction definitions with
  | atEnd =>
    intro fuel pos before located enough
    obtain ⟨fuel, rfl⟩ := Nat.exists_eq_succ_of_ne_zero (by omega : fuel ≠ 0)
    have atEnd := located.at_end
    unfold definitionLoop
    rw [if_neg (by omega)]
    exact ⟨pos, by simp, located⟩
  | close rest =>
    intro fuel pos before located enough
    obtain ⟨fuel, rfl⟩ := Nat.exists_eq_succ_of_ne_zero (by omega : fuel ≠ 0)
    rw [definitionLoop_cons located, if_pos rfl]
    exact ⟨pos, by simp, located⟩
  | @comma rest columns after later ih =>
    intro fuel pos before located enough
    obtain ⟨fuel, rfl⟩ := Nat.exists_eq_succ_of_ne_zero (by omega : fuel ≠ 0)
    rw [definitionLoop_cons located, if_neg (by decide), if_pos rfl]
    exact ih before located.next (by simpa using enough)
  | @sized token rest columns after keyword later ih =>
    intro fuel pos before located enough
    obtain ⟨fuel, rfl⟩ := Nat.exists_eq_succ_of_ne_zero (by omega : fuel ≠ 0)
    have length := located.next.next.length_eq
    have bound := length_afterClose_le rest
    simp only [List.length_cons] at enough
    obtain ⟨notClose, notComma⟩ := isTypeKeyword_ne_symbol keyword
    obtain ⟨stop, skipped, locatedStop⟩ :=
      skipToClose_eq (tokens.length - (pos + 2) + 1) located.next.next (by omega)
    rw [show pos + 1 + 1 = pos + 2 from rfl] at skipped
    rw [definitionLoop_cons located, if_neg notClose, if_neg notComma, if_pos keyword,
      if_pos (List.head?_cons ..), skipped]
    exact ih before locatedStop (by omega)
  | @keyword token rest columns after keyword unsized later ih =>
    intro fuel pos before located enough
    obtain ⟨fuel, rfl⟩ := Nat.exists_eq_succ_of_ne_zero (by omega : fuel ≠ 0)
    obtain ⟨notClose, notComma⟩ := isTypeKeyword_ne_symbol keyword
    rw [definitionLoop_cons located, if_neg notClose, if_neg notComma, if_pos keyword,
      if_neg unsized]
    exact ih before located.next (by simpa using enough)
  | @name token rest columns after notClose notComma notKeyword later ih =>
    intro fuel pos before located enough
    obtain ⟨fuel, rfl⟩ := Nat.exists_eq_succ_of_ne_zero (by omega : fuel ≠ 0)
    rw [definitionLoop_cons located, if_neg notClose, if_neg notComma, if_neg (by simp [notKeyword])]
    obtain ⟨stop, returned, locatedStop⟩ :=
      ih (before ++ [token]) located.next (by simpa using enough)
    exact ⟨stop, by simpa using returned, locatedStop⟩

/-! ## The `WHERE` clause and the table name -/

/-- A table name is the next token. -/
theorem parseTableName_cons {tokens rest : List Token} {pos : Nat} {token : Token}
    (located : At tokens pos (token :: rest)) :
    parseTableName tokens pos = some (token, pos + 1) := by
  unfold parseTableName
  rw [if_neg located.not_end, located.get?_cons]
  rfl

/-- Without a token it is empty. -/
theorem parseTableName_nil {tokens : List Token} {pos : Nat} (located : At tokens pos []) :
    parseTableName tokens pos = some ([], pos) := by
  unfold parseTableName
  rw [if_pos located.at_end]

/-- Without `WHERE` in front, the optional clause reads nothing. -/
theorem parseOptionalWhere_none {tokens rest : List Token} {pos : Nat} {result : ParseResult}
    (located : At tokens pos rest)
    (noWhere : ∀ token ∈ rest.head?, toUpper token ≠ "WHERE".toList) :
    parseOptionalWhere tokens pos result = some (result, pos) := by
  unfold parseOptionalWhere parseWhereClause
  cases rest with
  | nil =>
    have atEnd := located.at_end
    rw [if_neg (by omega)]
  | cons token rest =>
    have notEnd := located.not_end
    rw [if_pos (by omega), if_neg located.not_end, located.get?_cons]
    simp only [Option.bind_eq_bind, Option.bind_some]
    rw [if_pos (noWhere token rfl)]
    rfl

/-- With `WHERE` and a comparison in front, the optional clause reads both. -/
theorem parseOptionalWhere_some {tokens rest : List Token} {pos : Nat} {result : ParseResult}
    {keyword column op value : Token}
    (located : At tokens pos (keyword :: column :: op :: value :: rest))
    (isWhere : toUpper keyword = "WHERE".toList) :
    parseOptionalWhere tokens pos result =
      some (((result.set .whereColumn column).set .whereOperator op).set .whereValue value,
        pos + 4) := by
  have notEnd := located.not_end
  unfold parseOptionalWhere parseWhereClause
  rw [if_pos (by omega), if_neg located.not_end, located.get?_cons]
  simp only [Option.bind_eq_bind, Option.bind_some]
  rw [if_neg (by simpa using isWhere), if_neg located.next.not_end, located.next.get?_cons]
  simp only [Option.bind_some]
  rw [if_neg located.next.next.not_end, located.next.next.get?_cons]
  simp only [Option.bind_some]
  rw [if_neg located.next.next.next.not_end, located.next.next.next.get?_cons]
  rfl

end MiniDB.Parser
