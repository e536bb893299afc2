import Mathlib
import MiniDB.Parser.Statements
import MiniDB.Parser.TokenStream

/-!
# Upper and lower case

The parsers compare a token either after `ToUpper` or with a text that has no
letters. So every one of them does the same on a statement and on the statement
in upper case, up to the case of what it gives out.
-/

namespace MiniDB.Parser

/-! ## Characters without case -/

section Caseless

variable {c d : Char} (caseless : d.isAlpha = false)
include caseless

/-- A character without case is the upper case of itself only. -/
theorem toUpper_eq_iff_of_caseless : c.toUpper = d ↔ c = d := by
  have same : c.isAlpha = false → c.toUpper = c := by
    intro notAlpha
    apply Char.toUpper_eq_of_not_isLower
    intro lower
    rw [Char.isAlpha, lower, Bool.or_true] at notAlpha
    cases notAlpha
  constructor
  · intro upper
    rw [← upper, Char.isAlpha_toUpper_eq_isAlpha] at caseless
    rw [← upper, same caseless]
  · rintro rfl
    exact same caseless

theorem toUpper_beq_of_caseless : (c.toUpper == d) = (c == d) := by
  rw [Bool.eq_iff_iff, beq_iff_eq, beq_iff_eq, toUpper_eq_iff_of_caseless caseless]

/-- A token of one character without case is the same in upper case. -/
theorem toUpper_eq_singleton_iff {token : Token} : toUpper token = [d] ↔ token = [d] := by
  simp only [toUpper, List.map_eq_singleton_iff, toUpper_eq_iff_of_caseless caseless]
  constructor
  · rintro ⟨c, rfl, rfl⟩
    rfl
  · rintro rfl
    exact ⟨d, rfl, rfl⟩

/-- A token is a caseless character in upper case exactly if it is that character. -/
theorem map_toUpper_eq_some_iff {token : Option Token} :
    token.map toUpper = some [d] ↔ token = some [d] := by
  rw [Option.map_eq_some_iff]
  simp only [toUpper_eq_singleton_iff caseless, exists_eq_right]

end Caseless

/-- Text in upper case stays as it is. -/
@[simp] theorem toUpper_toUpper (token : Token) : toUpper (toUpper token) = toUpper token := by
  simp only [toUpper, List.map_map]
  exact List.map_congr_left fun c _ => Char.toUpper_toUpper_eq_toUpper c

@[simp] theorem toUpper_eq_nil_iff {token : Token} : toUpper token = [] ↔ token = [] :=
  List.map_eq_nil_iff

/-- White space is white space in either case. -/
theorem isSpace_toUpper (c : Char) : isSpace c.toUpper = isSpace c := by
  simp (disch := decide) only [isSpace, toUpper_beq_of_caseless]

/-- The upper case of no other character is a quote. -/
theorem isQuote_toUpper (c : Char) : isQuote c.toUpper = isQuote c := by
  simp (disch := decide) only [isQuote, toUpper_beq_of_caseless]

/-- The symbols have no case. -/
theorem isSymbol_toUpper (c : Char) : isSymbol c.toUpper = isSymbol c := by
  simp (disch := decide) only [isSymbol, toUpper_beq_of_caseless]

/-- The characters of operators have no case. -/
theorem startsOperator_toUpper (c : Char) : startsOperator c.toUpper = startsOperator c := by
  simp (disch := decide) only [startsOperator, toUpper_beq_of_caseless]

/-! ## The tokenizer -/

theorem toUpper_nil : toUpper [] = [] := rfl

theorem toUpper_cons (c : Char) (token : Token) :
    toUpper (c :: token) = c.toUpper :: toUpper token := rfl

theorem toUpper_singleton (c : Char) : toUpper [c] = [c.toUpper] := rfl

theorem toUpper_append (first second : Token) :
    toUpper (first ++ second) = toUpper first ++ toUpper second := List.map_append

/-- The token that is pushed is put in upper case with the others. -/
theorem pushCurrent_upper (current : Token) (later : List Token) :
    pushCurrent (toUpper current) (later.map toUpper) = (pushCurrent current later).map toUpper := by
  simp only [pushCurrent, toUpper_eq_nil_iff]
  split <;> rfl

theorem toUpper_of_isQuote {c : Char} (quote : isQuote c = true) : c.toUpper = c := by
  simp only [isQuote, Bool.or_eq_true, beq_iff_eq] at quote
  rcases quote with rfl | rfl <;> rfl

/-- No other character becomes the quote that is open. -/
theorem toUpper_ne_of_isQuote {c open_ : Char} (quote : isQuote open_ = true)
    (different : c ≠ open_) : c.toUpper ≠ open_ := by
  have caseless : open_.isAlpha = false := by
    simp only [isQuote, Bool.or_eq_true, beq_iff_eq] at quote
    rcases quote with rfl | rfl <;> rfl
  exact fun same => different ((toUpper_eq_iff_of_caseless caseless).mp same)

/-- The tokens of a text in upper case are those of the text, put in upper case. -/
theorem lex_upper (sql : List Char) (current : Token) (quote : Option Char)
    (opened : ∀ open_ ∈ quote, isQuote open_ = true) :
    lex (toUpper sql) (toUpper current) quote = (lex sql current quote).map toUpper := by
  fun_induction lex sql current quote with
  | case1 current quote => exact pushCurrent_upper current []
  | case2 c rest current isQuote ih =>
    have step := ih (by simpa using isQuote)
    rw [toUpper_singleton, toUpper_of_isQuote isQuote] at step
    rw [toUpper_cons, toUpper_of_isQuote isQuote, lex_quote isQuote, step, pushCurrent_upper]
  | case3 current open_ beyond isQuote ih =>
    have step := ih opened
    rw [toUpper_append, toUpper_cons, toUpper_singleton, toUpper_of_isQuote isQuote] at step
    rw [toUpper_cons, toUpper_cons, toUpper_of_isQuote isQuote, lex_doubled isQuote, step]
  | case4 current open_ next beyond different isQuote ih =>
    have ended : (toUpper (next :: beyond)).head? ≠ some open_ := by
      simpa [toUpper] using toUpper_ne_of_isQuote isQuote different
    have step := ih (by simp)
    rw [toUpper_nil] at step
    rw [toUpper_cons, toUpper_of_isQuote isQuote, lex_closes isQuote ended, step, List.map_cons,
      toUpper_append, toUpper_singleton, toUpper_of_isQuote isQuote]
  | case5 current open_ isQuote ih =>
    have finished : lex [] [] none = [] := rfl
    rw [toUpper_cons, toUpper_of_isQuote isQuote, toUpper_nil, lex_closes isQuote (by simp)]
    simp [finished, toUpper_append, toUpper_singleton, toUpper_of_isQuote isQuote]
  | case6 c rest current isQuote open_ different ih =>
    have other := toUpper_ne_of_isQuote (opened open_ rfl) different
    have step := ih opened
    rw [toUpper_append, toUpper_singleton] at step
    rw [toUpper_cons, lex_kept other, step]
  | case7 c rest current quote notQuote inside ih =>
    have step := ih opened
    rw [toUpper_append, toUpper_singleton] at step
    rw [toUpper_cons, lex_cons]
    simp [isQuote_toUpper, notQuote, inside, step]
  | case8 c rest current quote notQuote outside space ih =>
    obtain rfl := Option.not_isSome_iff_eq_none.mp outside
    have step := ih opened
    rw [toUpper_nil] at step
    rw [toUpper_cons, lex_space (by rw [isSpace_toUpper, space]), step, pushCurrent_upper]
  | case9 c current quote notQuote outside notSpace symbol next beyond operator ih =>
    obtain rfl := Option.not_isSome_iff_eq_none.mp outside
    obtain ⟨starts, rfl⟩ : startsOperator c = true ∧ next = '=' := by simpa using operator
    have step := ih opened
    rw [toUpper_nil] at step
    rw [toUpper_cons, toUpper_cons, show '='.toUpper = '=' from rfl,
      lex_operator (by rw [startsOperator_toUpper, starts]), step, ← pushCurrent_upper]
    rfl
  | case10 c current quote notQuote outside notSpace symbol next beyond single ih =>
    obtain rfl := Option.not_isSome_iff_eq_none.mp outside
    have step := ih opened
    rw [toUpper_nil] at step
    have singleToo : ∀ other ∈ (toUpper (next :: beyond)).head?,
        (startsOperator c.toUpper && other == '=') = false := by
      intro other head
      obtain rfl : next.toUpper = other := Option.some.inj head
      rw [startsOperator_toUpper, toUpper_beq_of_caseless (by decide)]
      exact Bool.eq_false_iff.mpr single
    rw [toUpper_cons, lex_symbol (by rw [isSymbol_toUpper, symbol]) singleToo, step,
      ← pushCurrent_upper]
    rfl
  | case11 c current quote notQuote outside notSpace symbol ih =>
    obtain rfl := Option.not_isSome_iff_eq_none.mp outside
    rw [toUpper_cons, lex_symbol (by rw [isSymbol_toUpper, symbol]) (by simp [toUpper]),
      ← pushCurrent_upper]
    rfl
  | case12 c rest current quote notQuote outside notSpace notSymbol ih =>
    obtain rfl := Option.not_isSome_iff_eq_none.mp outside
    have plain : isPlain c.toUpper = true := by
      simp [isPlain, isQuote_toUpper, isSpace_toUpper, isSymbol_toUpper, notQuote, notSpace, notSymbol]
    have step := ih opened
    rw [toUpper_append, toUpper_singleton] at step
    rw [toUpper_cons, lex_plain plain, step]

/-- The tokens of a statement in upper case. -/
theorem tokenize_upper (sql : List Char) :
    tokenize (toUpper sql) = (tokenize sql).map toUpper := by
  rw [tokenize_eq_lex, tokenize_eq_lex, ← lex_upper sql [] none (by simp), toUpper_nil]

/-! ## The lists -/

/-- What a list parser gives out, in upper case. -/
def upperList : List Token × Nat → List Token × Nat := Prod.map (List.map toUpper) id

theorem upperList_mk (list : List Token) (pos : Nat) :
    upperList (list, pos) = (list.map toUpper, pos) := rfl

/-- What `ParseTableName` gives out, in upper case. -/
def upperName : Token × Nat → Token × Nat := Prod.map toUpper id

theorem upperName_mk (name : Token) (pos : Nat) : upperName (name, pos) = (toUpper name, pos) := rfl

section Lists

variable (tokens : List Token)

theorem getElem?_upper (pos : Nat) : (tokens.map toUpper)[pos]? = tokens[pos]?.map toUpper :=
  List.getElem?_map

/-- A symbol is at its place in upper case too. -/
theorem getElem?_upper_eq_iff {d : Char} (caseless : d.isAlpha = false) (pos : Nat) :
    (tokens.map toUpper)[pos]? = some [d] ↔ tokens[pos]? = some [d] := by
  rw [getElem?_upper, map_toUpper_eq_some_iff caseless]

/-- Which words end a list is asked of their upper case. -/
theorem isClauseKeyword_upper (token : Token) :
    isClauseKeyword (toUpper token) = isClauseKeyword token := by
  simp only [isClauseKeyword, toUpper_toUpper]

/-- Which words are types is asked of their upper case. -/
theorem isTypeKeyword_upper (token : Token) :
    isTypeKeyword (toUpper token) = isTypeKeyword token := by
  simp only [isTypeKeyword, toUpper_toUpper]

/-- A table name in upper case is read in upper case, and as far. -/
theorem parseTableName_upper (pos : Nat) :
    parseTableName (tokens.map toUpper) pos = (parseTableName tokens pos).map upperName := by
  simp only [parseTableName, List.length_map, getElem?_upper]
  split
  · rfl
  · cases tokens[pos]? <;> rfl

/-- The loop over columns stops in the same place and keeps the same tokens in upper case. -/
theorem columnLoop_upper (fuel pos : Nat) (columns : List Token) :
    columnLoop (tokens.map toUpper) fuel pos (columns.map toUpper) =
      (columnLoop tokens fuel pos columns).map upperList := by
  induction fuel generalizing pos columns with
  | zero => rfl
  | succ fuel ih =>
    simp (disch := decide) only [columnLoop, List.length_map, getElem?_upper_eq_iff]
    rw [getElem?_upper]
    split
    · cases tokens[pos]? with
      | none => rfl
      | some token =>
        simp (disch := decide) only [Option.map_some, Option.bind_eq_bind, Option.bind_some,
          toUpper_eq_singleton_iff, isClauseKeyword_upper, apply_ite (Option.map upperList), ← ih,
          Option.pure_def, upperList_mk, List.map_append, List.map_singleton]
    · rfl

/-- The list of columns is read as far, in upper case. -/
theorem parseColumnList_upper (pos : Nat) :
    parseColumnList (tokens.map toUpper) pos = (parseColumnList tokens pos).map upperList := by
  simp (disch := decide) only [parseColumnList, List.length_map, getElem?_upper_eq_iff]
  rw [getElem?_upper]
  split
  · rfl
  · cases tokens[pos]? with
    | none => rfl
    | some token =>
      simp (disch := decide) only [Option.map_some, Option.bind_eq_bind, Option.bind_some,
        toUpper_eq_singleton_iff, apply_ite (Option.map upperList), ← columnLoop_upper,
        Option.pure_def, upperList_mk]
      rfl

/-- The loop over values stops in the same place and keeps the same tokens in upper case. -/
theorem valueLoop_upper (fuel pos : Nat) (values : List Token) :
    valueLoop (tokens.map toUpper) fuel pos (values.map toUpper) =
      (valueLoop tokens fuel pos values).map upperList := by
  induction fuel generalizing pos values with
  | zero => rfl
  | succ fuel ih =>
    simp only [valueLoop, List.length_map]
    rw [getElem?_upper]
    split
    · cases tokens[pos]? with
      | none => rfl
      | some token =>
        simp (disch := decide) only [Option.map_some, Option.bind_eq_bind, Option.bind_some,
          toUpper_eq_singleton_iff, apply_ite (Option.map upperList), ← ih, Option.pure_def,
          upperList_mk, List.map_append, List.map_singleton]
    · rfl

/-- The list of values is read as far, in upper case. -/
theorem parseValueList_upper (pos : Nat) :
    parseValueList (tokens.map toUpper) pos = (parseValueList tokens pos).map upperList := by
  simp (disch := decide) only [parseValueList, List.length_map, getElem?_upper_eq_iff]
  rw [getElem?_upper]
  split
  · rfl
  · cases tokens[pos]? with
    | none => rfl
    | some token =>
      simp only [Option.map_some, Option.bind_eq_bind, Option.bind_some, toUpper_toUpper,
        ← valueLoop_upper]
      rfl

/-- The search for a closing bracket does not look at case. -/
theorem skipToClose_upper (fuel pos : Nat) :
    skipToClose (tokens.map toUpper) fuel pos = skipToClose tokens fuel pos := by
  induction fuel generalizing pos with
  | zero => rfl
  | succ fuel ih =>
    simp only [skipToClose, List.length_map, ih]
    rw [getElem?_upper]
    cases tokens[pos]? with
    | none => rfl
    | some token =>
      simp (disch := decide) only [Option.map_some, Option.bind_eq_bind, Option.bind_some,
        toUpper_eq_singleton_iff]

/-- The loop over column definitions keeps the same names in upper case. -/
theorem definitionLoop_upper (fuel pos : Nat) (columns : List Token) :
    definitionLoop (tokens.map toUpper) fuel pos (columns.map toUpper) =
      (definitionLoop tokens fuel pos columns).map upperList := by
  induction fuel generalizing pos columns with
  | zero => rfl
  | succ fuel ih =>
    simp (disch := decide) only [definitionLoop, List.length_map, getElem?_upper_eq_iff]
    rw [getElem?_upper]
    split
    · cases tokens[pos]? with
      | none => rfl
      | some token =>
        simp (disch := decide) only [Option.map_some, Option.bind_eq_bind, Option.bind_some,
          toUpper_eq_singleton_iff, isTypeKeyword_upper, skipToClose_upper,
          apply_ite (Option.map upperList), Option.map_bind, Function.comp_def, ← ih,
          Option.pure_def, upperList_mk, List.map_append, List.map_singleton]
    · rfl

end Lists

/-! ## The statements -/

/-- A result in upper case. -/
def ParseResult.upper (result : ParseResult) : ParseResult :=
  { result with
    attributes := fun key => (result.attributes key).map toUpper
    tokens := result.tokens.map toUpper
    errorMessage := toUpper result.errorMessage }

/-- What a statement parser gives out, in upper case. -/
def upperOutcome : ParseResult × Nat → ParseResult × Nat := Prod.map ParseResult.upper id

theorem upperOutcome_mk (result : ParseResult) (pos : Nat) :
    upperOutcome (result, pos) = (result.upper, pos) := rfl

/-- Setting an attribute commutes with upper case. -/
theorem ParseResult.upper_set (result : ParseResult) (key : Attribute) (value : Token) :
    (result.set key value).upper = result.upper.set key (toUpper value) := by
  simp only [upper, set, mk.injEq, and_true, true_and]
  ext1 other
  split <;> rfl

/-- A failure puts its message in upper case too. -/
theorem ParseResult.upper_fail (result : ParseResult) (message : String) :
    (result.fail message).upper =
      { result.upper with success := false, errorMessage := toUpper message.toList } := rfl

/-- Joining with commas commutes with upper case. -/
theorem toUpper_joinComma (list : List Token) :
    toUpper (joinComma list) = joinComma (list.map toUpper) := by
  induction list with
  | nil => rfl
  | cons token list ih =>
    cases list with
    | nil => simp only [joinComma, List.map_singleton, List.intercalate_singleton]
    | cons next rest =>
      simp only [joinComma, List.map_cons, List.intercalate_cons_cons, toUpper_append] at ih ⊢
      rw [ih]
      rfl

/-- Two outcomes that are the same up to case. -/
def SameOutcome (left right : Option (ParseResult × Nat)) : Prop :=
  left.map upperOutcome = right.map upperOutcome

section Rules

variable {left right : ParseResult} {first second other another : Option (ParseResult × Nat)}

/-- Two results that are the same in upper case, at one position. -/
theorem sameOutcome_some (same : left.upper = right.upper) (pos : Nat) :
    SameOutcome (some (left, pos)) (some (right, pos)) := by
  rw [SameOutcome, Option.map_some, Option.map_some, upperOutcome_mk, upperOutcome_mk, same]

/-- Two failures with one message, at one position. -/
theorem sameOutcome_fail (same : left.upper = right.upper) (message : String) (pos : Nat) :
    SameOutcome (some (left.fail message, pos)) (some (right.fail message, pos)) :=
  sameOutcome_some (by rw [ParseResult.upper_fail, ParseResult.upper_fail, same]) pos

/-- A branch on the same question. -/
theorem SameOutcome.ite {p q : Prop} [Decidable p] [Decidable q] (test : p ↔ q)
    (yes : SameOutcome first second) (no : SameOutcome other another) :
    SameOutcome (if p then first else other) (if q then second else another) := by
  by_cases holds : p
  · rwa [if_pos holds, if_pos (test.mp holds)]
  · rwa [if_neg holds, if_neg (fun here => holds (test.mpr here))]

/-- What follows a step that commutes with upper case. -/
theorem sameOutcome_bind {A B : Type} {value : Option A} {change : A → B}
    {first : B → Option (ParseResult × Nat)} {second : A → Option (ParseResult × Nat)}
    (each : ∀ a, SameOutcome (first (change a)) (second a)) :
    SameOutcome ((value.map change).bind first) (value.bind second) := by
  cases value with
  | none => rfl
  | some a => exact each a

/-- A result is computed and worked on. -/
theorem SameOutcome.bind {continueFirst continueSecond : ParseResult × Nat → Option (ParseResult × Nat)}
    (same : SameOutcome first second)
    (each : ∀ {left right : ParseResult} (pos : Nat), left.upper = right.upper →
      SameOutcome (continueFirst (left, pos)) (continueSecond (right, pos))) :
    SameOutcome (first.bind continueFirst) (second.bind continueSecond) := by
  rw [SameOutcome] at same
  rcases first with _ | ⟨left, pos⟩
  · rcases second with _ | ⟨right, stop⟩
    · rfl
    · cases same
  · rcases second with _ | ⟨right, stop⟩
    · cases same
    · simp only [Option.map_some, upperOutcome_mk, Option.some.injEq, Prod.mk.injEq] at same
      obtain ⟨sameResult, rfl⟩ := same
      exact each pos sameResult

theorem ParseResult.upper_set_upper (same : left.upper = right.upper) (key : Attribute)
    (value : Token) : (left.set key (toUpper value)).upper = (right.set key value).upper := by
  rw [upper_set, upper_set, toUpper_toUpper, same]

/-- The same for a list joined with commas. -/
theorem ParseResult.upper_set_joinComma (same : left.upper = right.upper) (key : Attribute)
    (list : List Token) :
    (left.set key (joinComma (list.map toUpper))).upper =
      (right.set key (joinComma list)).upper := by
  rw [← toUpper_joinComma, upper_set_upper same]

end Rules

section Statements

variable (tokens : List Token) {left right : ParseResult}

/-- A WHERE clause is read the same in upper case. -/
theorem parseWhereClause_upper (same : left.upper = right.upper) (pos : Nat) :
    SameOutcome (parseWhereClause (tokens.map toUpper) pos left)
      (parseWhereClause tokens pos right) := by
  simp only [parseWhereClause, List.length_map, getElem?_upper, Option.bind_eq_bind,
    Option.pure_def]
  refine .ite Iff.rfl (sameOutcome_some same pos) (sameOutcome_bind fun keyword => ?_)
  refine .ite (by rw [toUpper_toUpper]) (sameOutcome_some same pos) ?_
  refine .ite Iff.rfl (sameOutcome_fail same _ _) (sameOutcome_bind fun column => ?_)
  have withColumn := ParseResult.upper_set_upper same .whereColumn column
  refine .ite Iff.rfl (sameOutcome_fail withColumn _ _) (sameOutcome_bind fun op => ?_)
  have withOperator := ParseResult.upper_set_upper withColumn .whereOperator op
  refine .ite Iff.rfl (sameOutcome_fail withOperator _ _) (sameOutcome_bind fun value => ?_)
  exact sameOutcome_some (ParseResult.upper_set_upper withOperator .whereValue value) _

/-- So it is when it may be missing. -/
theorem parseOptionalWhere_upper (same : left.upper = right.upper) (pos : Nat) :
    SameOutcome (parseOptionalWhere (tokens.map toUpper) pos left)
      (parseOptionalWhere tokens pos right) := by
  simp only [parseOptionalWhere, List.length_map]
  exact .ite Iff.rfl (parseWhereClause_upper tokens same pos) (sameOutcome_some same pos)

/-- SELECT is read the same in upper case. -/
theorem parseSelect_upper (pos : Nat) :
    SameOutcome (parseSelect (tokens.map toUpper) pos) (parseSelect tokens pos) := by
  simp only [parseSelect, List.length_map, getElem?_upper, parseColumnList_upper,
    parseTableName_upper, Option.bind_eq_bind, Option.pure_def]
  refine sameOutcome_bind fun (columns, next) => ?_
  simp only [upperList_mk]
  refine .ite List.map_eq_nil_iff (sameOutcome_fail rfl _ _) ?_
  have withColumns :=
    @ParseResult.upper_set_joinComma (.start .select) (.start .select) rfl .columns columns
  refine .ite Iff.rfl (sameOutcome_fail withColumns _ _) (sameOutcome_bind fun keyword => ?_)
  refine .ite (by rw [toUpper_toUpper]) (sameOutcome_fail withColumns _ _)
    (sameOutcome_bind fun (tableName, next) => ?_)
  simp only [upperName_mk]
  refine .ite toUpper_eq_nil_iff (sameOutcome_fail withColumns _ _) ?_
  exact parseOptionalWhere_upper tokens
    (ParseResult.upper_set_upper withColumns .table tableName) next

/-- INSERT is read the same in upper case. -/
theorem parseInsert_upper (pos : Nat) :
    SameOutcome (parseInsert (tokens.map toUpper) pos) (parseInsert tokens pos) := by
  simp only [parseInsert, List.length_map, getElem?_upper, parseTableName_upper,
    parseColumnList_upper, parseValueList_upper, Option.bind_eq_bind, Option.pure_def]
  refine .ite Iff.rfl (sameOutcome_fail rfl _ _) (sameOutcome_bind fun keyword => ?_)
  refine .ite (by rw [toUpper_toUpper]) (sameOutcome_fail rfl _ _)
    (sameOutcome_bind fun (tableName, next) => ?_)
  simp only [upperName_mk]
  refine .ite toUpper_eq_nil_iff (sameOutcome_fail rfl _ _) ?_
  have withTable :=
    @ParseResult.upper_set_upper (.start .insert) (.start .insert) rfl .table tableName
  -- the columns are optional; what follows is the same with and without them
  refine .ite (map_toUpper_eq_some_iff (by decide))
    (sameOutcome_bind fun (columns, stop) => .bind
      (sameOutcome_some (ParseResult.upper_set_joinComma withTable .columns columns) stop) ?_)
    (.bind (sameOutcome_some withTable next) ?_)
  all_goals
    intro left right stop same
    refine .ite Iff.rfl (sameOutcome_fail same _ _) (sameOutcome_bind fun (values, last) => ?_)
    simp only [upperList_mk]
    refine .ite List.map_eq_nil_iff (sameOutcome_fail same _ _) ?_
    exact sameOutcome_some (ParseResult.upper_set_joinComma same .values values) last

/-- UPDATE is read the same in upper case. -/
theorem parseUpdate_upper (pos : Nat) :
    SameOutcome (parseUpdate (tokens.map toUpper) pos) (parseUpdate tokens pos) := by
  simp only [parseUpdate, List.length_map, getElem?_upper, parseTableName_upper,
    Option.bind_eq_bind, Option.pure_def]
  refine sameOutcome_bind fun (tableName, next) => ?_
  simp only [upperName_mk]
  refine .ite toUpper_eq_nil_iff (sameOutcome_fail rfl _ _) ?_
  have withTable :=
    @ParseResult.upper_set_upper (.start .update) (.start .update) rfl .table tableName
  refine .ite Iff.rfl (sameOutcome_fail withTable _ _) (sameOutcome_bind fun keyword => ?_)
  refine .ite (by rw [toUpper_toUpper]) (sameOutcome_fail withTable _ _) ?_
  refine .ite Iff.rfl (sameOutcome_fail withTable _ _) (sameOutcome_bind fun column => ?_)
  have withColumn := ParseResult.upper_set_upper withTable .setColumn column
  refine .ite (not_congr (map_toUpper_eq_some_iff (by decide)))
    (sameOutcome_fail withColumn _ _) ?_
  refine .ite Iff.rfl (sameOutcome_fail withColumn _ _) (sameOutcome_bind fun value => ?_)
  exact parseOptionalWhere_upper tokens
    (ParseResult.upper_set_upper withColumn .setValue value) _

/-- DELETE is read the same in upper case. -/
theorem parseDelete_upper (pos : Nat) :
    SameOutcome (parseDelete (tokens.map toUpper) pos) (parseDelete tokens pos) := by
  simp only [parseDelete, List.length_map, getElem?_upper, parseTableName_upper,
    Option.bind_eq_bind, Option.pure_def]
  refine .ite Iff.rfl (sameOutcome_fail rfl _ _) (sameOutcome_bind fun keyword => ?_)
  rw [toUpper_toUpper]
  refine sameOutcome_bind fun (tableName, next) => ?_
  simp only [upperName_mk]
  refine .ite toUpper_eq_nil_iff (sameOutcome_fail rfl _ _) ?_
  exact parseOptionalWhere_upper tokens (ParseResult.upper_set_upper rfl .table tableName) next

/-- CREATE TABLE is read the same in upper case. -/
theorem parseCreateTable_upper (pos : Nat) :
    SameOutcome (parseCreateTable (tokens.map toUpper) pos) (parseCreateTable tokens pos) := by
  have definitions : ∀ fuel pos, definitionLoop (tokens.map toUpper) fuel pos [] =
      (definitionLoop tokens fuel pos []).map upperList := fun fuel pos =>
    definitionLoop_upper tokens fuel pos []
  simp only [parseCreateTable, List.length_map, getElem?_upper, parseTableName_upper, definitions,
    Option.bind_eq_bind, Option.pure_def]
  refine .ite Iff.rfl (sameOutcome_fail rfl _ _) (sameOutcome_bind fun keyword => ?_)
  refine .ite (by rw [toUpper_toUpper]) (sameOutcome_fail rfl _ _)
    (sameOutcome_bind fun (tableName, next) => ?_)
  simp only [upperName_mk]
  refine .ite toUpper_eq_nil_iff (sameOutcome_fail rfl _ _) ?_
  have withTable :=
    @ParseResult.upper_set_upper (.start .createTable) (.start .createTable) rfl .table tableName
  refine .ite (not_congr (map_toUpper_eq_some_iff (by decide))) (sameOutcome_fail withTable _ _)
    (sameOutcome_bind fun (columns, stop) => ?_)
  have close : ')'.isAlpha = false := by decide
  simp only [upperList_mk, map_toUpper_eq_some_iff close]
  refine .ite List.map_eq_nil_iff (sameOutcome_fail withTable _ _) ?_
  exact sameOutcome_some (ParseResult.upper_set_joinComma withTable .columns columns) _

/-- The dispatch on the first token. -/
theorem parseStatement_upper :
    SameOutcome (parseStatement (tokens.map toUpper)) (parseStatement tokens) := by
  cases tokens with
  | nil => rfl
  | cons first rest =>
    have select := parseSelect_upper (first :: rest) 0
    have insert := parseInsert_upper (first :: rest) 0
    have update := parseUpdate_upper (first :: rest) 0
    have delete := parseDelete_upper (first :: rest) 0
    have create := parseCreateTable_upper (first :: rest) 0
    rw [List.map_cons] at select insert update delete create
    simp only [parseStatement, List.map_cons, toUpper_toUpper]
    refine .ite Iff.rfl select (.ite Iff.rfl insert (.ite Iff.rfl update (.ite Iff.rfl delete ?_)))
    refine .ite Iff.rfl (.ite ?_ create (sameOutcome_fail rfl _ _)) (sameOutcome_some ?_ 0)
    · simp only [List.getElem?_cons_succ, List.getElem?_map, Option.map_map, Function.comp_def,
        toUpper_toUpper]
    · simp only [ParseResult.upper, toUpper_append, toUpper_toUpper]

end Statements

/-! ## Whole queries -/

/-- Two results that differ in nothing but the case of their texts. -/
structure SameUpToCase (left right : ParseResult) : Prop where
  success : left.success = right.success
  type : left.type = right.type
  keys : ∀ key, (left.attributes key).isSome = (right.attributes key).isSome
  values : ∀ key, (left.attributes key).map toUpper = (right.attributes key).map toUpper
  tokens : left.tokens.map toUpper = right.tokens.map toUpper
  errorMessage : toUpper left.errorMessage = toUpper right.errorMessage

/-- Results with one upper case are the same up to case. -/
theorem sameUpToCase_of_upper {left right : ParseResult} (same : left.upper = right.upper) :
    SameUpToCase left right := by
  simp only [ParseResult.upper, ParseResult.mk.injEq] at same
  obtain ⟨type, attributes, tokens, success, errorMessage⟩ := same
  have values := congrFun attributes
  refine ⟨success, type, fun key => ?_, values, tokens, errorMessage⟩
  have sameKey := congrArg Option.isSome (values key)
  rwa [Option.isSome_map, Option.isSome_map] at sameKey

/-- Queries that are equal in upper case have results that are equal up to case. -/
theorem parseQuery_sameUpToCase (first second : List Char)
    (same : toUpper first = toUpper second) :
    ∃ left right, parseQuery first = some left ∧ parseQuery second = some right ∧
      SameUpToCase left right := by
  obtain ⟨⟨left, leftStop⟩, leftRead⟩ := exists_parseStatement (tokenize first)
  obtain ⟨⟨right, rightStop⟩, rightRead⟩ := exists_parseStatement (tokenize second)
  have sameTokens : (tokenize first).map toUpper = (tokenize second).map toUpper := by
    rw [← tokenize_upper, ← tokenize_upper, same]
  have outcomes : SameOutcome (some (left, leftStop)) (some (right, rightStop)) := by
    have fromFirst := parseStatement_upper (tokenize first)
    have fromSecond := parseStatement_upper (tokenize second)
    rw [leftRead] at fromFirst
    rw [rightRead, ← sameTokens] at fromSecond
    exact fromFirst.symm.trans fromSecond
  have sameResult : left.upper = right.upper := congrArg Prod.fst (Option.some.inj outcomes)
  refine ⟨{ left with tokens := tokenize first }, { right with tokens := tokenize second }, ?_, ?_,
    sameUpToCase_of_upper ?_⟩
  · rw [parseQuery, leftRead]
    rfl
  · rw [parseQuery, rightRead]
    rfl
  · calc
      _ = { left.upper with tokens := (tokenize first).map toUpper } := rfl
      _ = { right.upper with tokens := (tokenize second).map toUpper } := by
        rw [sameResult, sameTokens]
      _ = _ := rfl

theorem parseQuery_sameUpToCase_delete :
    ∃ left right, parseQuery "delete From t".toList = some left ∧
      parseQuery "DELETE from T".toList = some right ∧ SameUpToCase left right :=
  parseQuery_sameUpToCase _ _ (by decide +kernel)

end MiniDB.Parser
