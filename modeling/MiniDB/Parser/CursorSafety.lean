import MiniDB.Parser.CursorReads
import MiniDB.Parser.Statements

/-!
# The parser reads inside its tokens

`Agrees` compares a program over the tokens with the parser of the model: the program
makes safe requests only and returns what the parser returns, at the same position.
The two are compared statement by statement, failures included, so every request that
`ParseQuery` makes is safe for every statement.
-/

namespace MiniDB.Parser

open Foundation

/-- With `rest` in front of the position, the program makes safe requests only and
returns what the parser of the model returns, where that one stops. -/
def Agrees {Result : Type} (tokens : List Token) (program : CursorProgram Result)
    (rest : List Token) (depth : Nat) (model : Option (Result × Nat)) : Prop :=
  ∃ value stop after depth', Reads tokens program rest depth value after depth' ∧
    model = some (value, stop) ∧ At tokens stop after

namespace Agrees

variable {Result Next : Type} {tokens rest after : List Token} {depth depth' pos fuel : Nat}

/-- A program without an access reads nothing. -/
theorem pure (located : At tokens pos rest) (value : Result) :
    Agrees tokens (pure value) rest depth (some (value, pos)) :=
  ⟨value, pos, rest, depth, Reads.pure value, rfl, located⟩

/-- A part of the program that has no counterpart in the parser of the model. -/
theorem step {program : CursorProgram Result} {next : Result → CursorProgram Next} {value : Result}
    {model : Option (Next × Nat)} (reads : Reads tokens program rest depth value after depth')
    (later : Agrees tokens (next value) after depth' model) :
    Agrees tokens (program >>= next) rest depth model := by
  obtain ⟨final, stop, last, depth'', readsLater, same, located⟩ := later
  exact ⟨final, stop, last, depth'', reads.bind readsLater, same, located⟩

/-- One program after another agrees if both do. -/
theorem bind {program : CursorProgram Result} {next : Result → CursorProgram Next}
    {model : Option (Result × Nat)} {modelNext : Result × Nat → Option (Next × Nat)}
    (first : Agrees tokens program rest depth model)
    (later : ∀ value {stop : Nat} {after : List Token} {depth' : Nat}, At tokens stop after →
      Agrees tokens (next value) after depth' (modelNext (value, stop))) :
    Agrees tokens (program >>= next) rest depth (model >>= modelNext) := by
  obtain ⟨value, stop, after, depth', reads, rfl, located⟩ := first
  exact step reads (later value located)

/-- A branch on a question that asks for no token. -/
theorem ite {condition : Prop} [Decidable condition] {first second : CursorProgram Result}
    {model model' : Option (Result × Nat)}
    (holds : condition → Agrees tokens first rest depth model)
    (fails : ¬ condition → Agrees tokens second rest depth model') :
    Agrees tokens (if condition then first else second) rest depth
      (if condition then model else model') := by
  by_cases decided : condition
  · rw [if_pos decided, if_pos decided]
    exact holds decided
  · rw [if_neg decided, if_neg decided]
    exact fails decided

section Tests

variable {first second : CursorProgram Result} {model model' : Option (Result × Nat)}

/-- The same test for the end. -/
theorem atEnd (located : At tokens pos rest) (ended : Agrees tokens first rest depth model)
    (more : ∀ token beyond, rest = token :: beyond →
      Agrees tokens second (token :: beyond) depth model') :
    Agrees tokens (CursorProgram.atEnd >>= fun isEnd => if isEnd = true then first else second) rest
      depth (if tokens.length ≤ pos then model else model') := by
  cases rest with
  | nil =>
    rw [if_pos located.at_end]
    exact step Reads.atEnd_nil ended
  | cons token beyond =>
    rw [if_neg located.not_end]
    exact step Reads.atEnd (more token beyond rfl)

/-- The same test for one more token. -/
theorem hasMore (located : At tokens pos rest)
    (more : ∀ token beyond, rest = token :: beyond →
      Agrees tokens first (token :: beyond) depth model)
    (ended : Agrees tokens second rest depth model') :
    Agrees tokens (CursorProgram.hasMore >>= fun isMore => if isMore = true then first else second)
      rest depth (if pos < tokens.length then model else model') := by
  cases rest with
  | nil =>
    rw [if_neg (Nat.not_lt.mpr located.at_end)]
    exact step Reads.hasMore_nil ended
  | cons token beyond =>
    rw [if_pos (Nat.lt_of_not_le located.not_end)]
    exact step Reads.hasMore (more token beyond rfl)

/-- The same test of the next token. -/
theorem nextIs {text : Token} (located : At tokens pos rest)
    (same : ∀ beyond, rest = text :: beyond → Agrees tokens first (text :: beyond) depth model)
    (other : rest.head? ≠ some text → Agrees tokens second rest depth model') :
    Agrees tokens (CursorProgram.nextIs text >>= fun isNext => if isNext = true then first else second)
      rest depth (if tokens[pos]? = some text then model else model') := by
  rw [located.get?]
  cases rest with
  | nil => exact step (Reads.nextIs_nil text) (other (by simp))
  | cons token beyond =>
    by_cases equal : token = text
    · subst equal
      rw [List.head?_cons, if_pos rfl]
      refine step (Reads.nextIs token) ?_
      rw [if_pos (decide_eq_true rfl)]
      exact same beyond rfl
    · have different : (token :: beyond).head? ≠ some text := by simpa using equal
      rw [if_neg different]
      refine step (Reads.nextIs text) ?_
      rw [if_neg (by simpa using equal)]
      exact other different

/-- The same test that the next token is missing or another. -/
theorem nextIs_not {text : Token} (located : At tokens pos rest)
    (other : Agrees tokens first rest depth model)
    (same : ∀ beyond, rest = text :: beyond → Agrees tokens second (text :: beyond) depth model') :
    Agrees tokens
      (CursorProgram.nextIs text >>= fun isNext => if (!isNext) = true then first else second)
      rest depth (if tokens[pos]? ≠ some text then model else model') := by
  have swapped := nextIs located same fun _ => other
  have programs : (fun isNext : Bool => if (!isNext) = true then first else second) =
      fun isNext => if isNext = true then second else first := by
    funext isNext
    cases isNext <;> rfl
  rwa [programs, ite_not]

end Tests

/-- The same access. -/
theorem token {next : Token → CursorProgram Next} {modelNext : Token → Option (Next × Nat)}
    {read : Token} (located : At tokens pos (read :: rest))
    (later : Agrees tokens (next read) (read :: rest) depth (modelNext read)) :
    Agrees tokens (CursorProgram.token >>= next) (read :: rest) depth
      (tokens[pos]? >>= modelNext) := by
  rw [located.get?_cons]
  exact step Reads.token_cons later

/-- The same access, with `pos++` after it. -/
theorem take {next : Token → CursorProgram Next} {modelNext : Token → Option (Next × Nat)}
    {read : Token} (located : At tokens pos (read :: rest))
    (later : Agrees tokens (next read) rest depth (modelNext read)) :
    Agrees tokens (CursorProgram.take >>= next) (read :: rest) depth
      (tokens[pos]? >>= modelNext) := by
  rw [located.get?_cons]
  exact step Reads.take later

/-! ## The parts of a statement -/

/-- The program for a table name. -/
theorem parseTableName (located : At tokens pos rest) :
    Agrees tokens CursorProgram.parseTableName rest depth (Parser.parseTableName tokens pos) := by
  cases rest with
  | nil => exact ⟨[], pos, [], depth, Reads.parseTableName_nil, parseTableName_nil located, located⟩
  | cons table rest =>
    exact ⟨table, pos + 1, rest, depth, Reads.parseTableName, parseTableName_cons located,
      located.next⟩

/-- The program for a list of columns. -/
theorem parseColumnList (located : At tokens pos rest) (enough : tokens.length < fuel) :
    Agrees tokens (CursorProgram.parseColumnList fuel) rest depth
      (Parser.parseColumnList tokens pos) := by
  have length := located.length_eq
  obtain ⟨stop, read, locatedStop⟩ := parseColumnList_eq located
  exact ⟨_, stop, _, _, Reads.parseColumnList (by omega), read, locatedStop⟩

/-- The program for a list of values. -/
theorem parseValueList (located : At tokens pos rest) (enough : tokens.length < fuel) :
    Agrees tokens (CursorProgram.parseValueList fuel) rest depth
      (Parser.parseValueList tokens pos) := by
  have length := located.length_eq
  obtain ⟨stop, read, locatedStop⟩ := parseValueList_eq located
  exact ⟨_, stop, _, _, Reads.parseValueList (by omega), read, locatedStop⟩

/-- The program for a WHERE clause. -/
theorem parseWhereClause (located : At tokens pos rest) (result : ParseResult) :
    Agrees tokens (CursorProgram.parseWhereClause result) rest depth
      (Parser.parseWhereClause tokens pos result) := by
  refine atEnd located (pure located result) ?_
  rintro keyword rest rfl
  refine token located (ite (fun _ => pure located result) fun _ => step Reads.skip ?_)
  refine atEnd located.next (pure located.next _) ?_
  rintro column rest rfl
  have locatedOp := located.next.next
  refine take located.next (atEnd locatedOp (pure locatedOp _) ?_)
  rintro op rest rfl
  have locatedValue := locatedOp.next
  refine take locatedOp (atEnd locatedValue (pure locatedValue _) ?_)
  rintro value rest rfl
  exact take locatedValue (pure locatedValue.next _)

/-- The program for a WHERE clause that may be missing. -/
theorem parseOptionalWhere (located : At tokens pos rest) (result : ParseResult) :
    Agrees tokens (CursorProgram.parseOptionalWhere result) rest depth
      (Parser.parseOptionalWhere tokens pos result) := by
  refine hasMore located ?_ (pure located result)
  rintro token rest rfl
  exact parseWhereClause located result

/-! ## The statements -/

variable {keyword : Token}

/-- The program for SELECT. -/
theorem parseSelect (located : At tokens pos (keyword :: rest)) (enough : tokens.length < fuel) :
    Agrees tokens (CursorProgram.parseSelect fuel) (keyword :: rest) depth
      (Parser.parseSelect tokens pos) := by
  refine step Reads.skip (bind (parseColumnList located.next enough) ?_)
  intro columns pos rest depth located
  refine ite (fun _ => pure located _) fun _ => atEnd located (pure located _) ?_
  rintro source rest rfl
  refine token located (ite (fun _ => pure located _) fun _ => step Reads.skip ?_)
  refine bind (parseTableName located.next) ?_
  intro tableName pos rest depth located
  exact ite (fun _ => pure located _) fun _ => parseOptionalWhere located _

/-- The program for the values of INSERT. -/
theorem parseInsertValues (located : At tokens pos rest) (enough : tokens.length < fuel)
    (result : ParseResult) :
    Agrees tokens (CursorProgram.parseInsertValues fuel result) rest depth
      (if tokens.length ≤ pos then
        some (result.fail "INSERT statement missing VALUES clause", pos)
      else do
        let (values, pos) ← Parser.parseValueList tokens pos
        if values = [] then
          return (result.fail "INSERT statement missing values", pos)
        return (result.set .values (joinComma values), pos)) := by
  refine atEnd located (pure located _) ?_
  rintro first rest rfl
  refine bind (parseValueList located enough) fun values _ _ _ located => ?_
  exact ite (fun _ => pure located _) fun _ => pure located _

/-- The program for INSERT. -/
theorem parseInsert (located : At tokens pos (keyword :: rest)) (enough : tokens.length < fuel) :
    Agrees tokens (CursorProgram.parseInsert fuel) (keyword :: rest) depth
      (Parser.parseInsert tokens pos) := by
  refine step Reads.skip (atEnd located.next (pure located.next _) ?_)
  rintro into rest rfl
  refine token located.next (ite (fun _ => pure located.next _) fun _ => step Reads.skip ?_)
  refine bind (parseTableName located.next.next) ?_
  intro tableName pos rest depth located
  refine ite (fun _ => pure located _) fun _ => ?_
  have length := located.length_eq
  by_cases opened : rest.head? = some ['(']
  · obtain ⟨inner, rfl⟩ := List.head?_eq_some_iff.mp opened
    obtain ⟨stop, read, locatedStop⟩ := parseColumnList_eq located
    rw [columnList, if_neg (by decide), if_pos rfl] at read locatedStop
    refine step (Reads.parseInsertColumns _ (by omega)) ?_
    dsimp only
    rw [if_pos located.get?_cons, read]
    exact parseInsertValues locatedStop enough _
  · refine step (Reads.parseInsertColumns_not _ opened) ?_
    dsimp only
    rw [located.get?, if_neg opened]
    exact parseInsertValues located enough _

/-- The program for UPDATE. -/
theorem parseUpdate (located : At tokens pos (keyword :: rest)) :
    Agrees tokens CursorProgram.parseUpdate (keyword :: rest) depth
      (Parser.parseUpdate tokens pos) := by
  refine step Reads.skip (bind (parseTableName located.next) ?_)
  intro tableName pos rest depth located
  refine ite (fun _ => pure located _) fun _ => atEnd located (pure located _) ?_
  rintro set rest rfl
  refine token located (ite (fun _ => pure located _) fun _ => step Reads.skip ?_)
  refine atEnd located.next (pure located.next _) ?_
  rintro column rest rfl
  refine take located.next (nextIs_not located.next.next (pure located.next.next _) ?_)
  rintro rest rfl
  have locatedValue := located.next.next.next
  refine step Reads.skip (atEnd locatedValue (pure locatedValue _) ?_)
  rintro value rest rfl
  exact take locatedValue (parseOptionalWhere locatedValue.next _)

/-- The program for DELETE. -/
theorem parseDelete (located : At tokens pos (keyword :: rest)) :
    Agrees tokens CursorProgram.parseDelete (keyword :: rest) depth
      (Parser.parseDelete tokens pos) := by
  refine step Reads.skip (atEnd located.next (pure located.next _) ?_)
  rintro source rest rfl
  refine step (Reads.skipKeyword (by decide)) ?_
  rw [located.next.get?_cons]
  have moved := located.next.dropIf fun token => toUpper token = "FROM".toList
  have same : (if (source :: rest).head?.any fun token => toUpper token = "FROM".toList then
      pos + 1 + 1 else pos + 1) = if toUpper source = "FROM".toList then pos + 1 + 1 else pos + 1 :=
    by simp only [List.head?_cons, Option.any_some, decide_eq_true_eq]
  rw [same] at moved
  refine bind (parseTableName moved) ?_
  intro tableName pos rest depth located
  exact ite (fun _ => pure located _) fun _ => parseOptionalWhere located _

/-- The program for the column definitions. -/
theorem definitionLoop (located : At tokens pos rest) (enough : rest.length < fuel) :
    Agrees tokens (CursorProgram.definitionLoop fuel []) rest depth
      (Parser.definitionLoop tokens (tokens.length - pos + 1) pos []) := by
  have length := located.length_eq
  obtain ⟨columns, stop, definitions⟩ := definitions_total rest
  obtain ⟨depth', reads, -⟩ := @Reads.definitionLoop tokens _ _ _ definitions fuel depth [] enough
  obtain ⟨last, read, locatedLast⟩ := definitionLoop_eq definitions [] located
    (show rest.length < tokens.length - pos + 1 by omega)
  exact ⟨columns, last, stop, depth', reads, read, locatedLast⟩

/-- The program for CREATE TABLE. -/
theorem parseCreateTable (located : At tokens pos (keyword :: rest))
    (enough : tokens.length < fuel) :
    Agrees tokens (CursorProgram.parseCreateTable fuel) (keyword :: rest) depth
      (Parser.parseCreateTable tokens pos) := by
  refine step Reads.skip (atEnd located.next (pure located.next _) ?_)
  rintro kind rest rfl
  refine token located.next (ite (fun _ => pure located.next _) fun _ => step Reads.skip ?_)
  refine bind (parseTableName located.next.next) ?_
  intro tableName pos rest depth located
  refine ite (fun _ => pure located _) fun _ => nextIs_not located (pure located _) ?_
  rintro rest rfl
  have length := located.next.length_eq
  refine step Reads.skip (bind (definitionLoop located.next (by omega)) ?_)
  intro columns pos rest depth located
  refine step Reads.skipClose ?_
  have moved := located.dropClose
  exact ite (fun _ => pure moved _) fun _ => pure moved _

end Agrees

/-! ## The tokens of the result -/

/-- Whatever the requests return, the result carries no tokens. -/
def Bare (program : CursorProgram ParseResult) : Prop :=
  Client.Returns (fun result => result.tokens = []) program

namespace Bare

variable {Result : Type} {result : ParseResult}

/-- A result without tokens. -/
theorem pure (bare : result.tokens = []) : Bare (pure result) := bare

/-- What ends a program decides. -/
theorem seq {program : CursorProgram Result} {next : Result → CursorProgram ParseResult}
    (later : ∀ value, Bare (next value)) : Bare (program >>= next) :=
  Client.returns_bind.mpr (Client.returns_of_forall later program)

/-- A result that is handed on without tokens. -/
theorem bind {program : CursorProgram ParseResult}
    {next : ParseResult → CursorProgram ParseResult} (first : Bare program)
    (later : ∀ value, value.tokens = [] → Bare (next value)) : Bare (program >>= next) :=
  Client.returns_bind.mpr (first.imp later)

theorem ite {condition : Prop} [Decidable condition] {first second : CursorProgram ParseResult}
    (holds : Bare first) (fails : Bare second) : Bare (if condition then first else second) := by
  split
  · exact holds
  · exact fails

theorem parseWhereClause (bare : result.tokens = []) :
    Bare (CursorProgram.parseWhereClause result) :=
  seq fun _ => ite (pure bare) <| seq fun _ => ite (pure bare) <| seq fun _ => seq fun _ =>
    ite (pure bare) <| seq fun _ => seq fun _ => ite (pure bare) <| seq fun _ => seq fun _ =>
      ite (pure bare) <| seq fun _ => pure bare

theorem parseOptionalWhere (bare : result.tokens = []) :
    Bare (CursorProgram.parseOptionalWhere result) :=
  seq fun _ => ite (parseWhereClause bare) (pure bare)

theorem parseSelect (fuel : Nat) : Bare (CursorProgram.parseSelect fuel) :=
  seq fun _ => seq fun _ => ite (pure rfl) <| seq fun _ => ite (pure rfl) <| seq fun _ =>
    ite (pure rfl) <| seq fun _ => seq fun _ => ite (pure rfl) (parseOptionalWhere rfl)

theorem parseInsertColumns (fuel : Nat) (bare : result.tokens = []) :
    Bare (CursorProgram.parseInsertColumns fuel result) :=
  seq fun _ => ite (seq fun _ => pure bare) (pure bare)

theorem parseInsertValues (fuel : Nat) (bare : result.tokens = []) :
    Bare (CursorProgram.parseInsertValues fuel result) :=
  seq fun _ => ite (pure bare) <| seq fun _ => ite (pure bare) (pure bare)

theorem parseInsert (fuel : Nat) : Bare (CursorProgram.parseInsert fuel) :=
  seq fun _ => seq fun _ => ite (pure rfl) <| seq fun _ => ite (pure rfl) <| seq fun _ =>
    seq fun _ => ite (pure rfl) <| bind (parseInsertColumns fuel rfl) fun _ bare =>
      parseInsertValues fuel bare

theorem parseUpdate : Bare CursorProgram.parseUpdate :=
  seq fun _ => seq fun _ => ite (pure rfl) <| seq fun _ => ite (pure rfl) <| seq fun _ =>
    ite (pure rfl) <| seq fun _ => seq fun _ => ite (pure rfl) <| seq fun _ => seq fun _ =>
      ite (pure rfl) <| seq fun _ => seq fun _ => ite (pure rfl) <| seq fun _ =>
        parseOptionalWhere rfl

theorem parseDelete : Bare CursorProgram.parseDelete :=
  seq fun _ => seq fun _ => ite (pure rfl) <| seq fun _ => seq fun _ =>
    ite (pure rfl) (parseOptionalWhere rfl)

theorem parseCreateTable (fuel : Nat) : Bare (CursorProgram.parseCreateTable fuel) :=
  seq fun _ => seq fun _ => ite (pure rfl) <| seq fun _ => ite (pure rfl) <| seq fun _ =>
    seq fun _ => ite (pure rfl) <| seq fun _ => ite (pure rfl) <| seq fun _ => seq fun _ =>
      seq fun _ => ite (pure rfl) (pure rfl)

end Bare

/-! ## `ParseQuery` -/

/-- Asking for the number of tokens reads none. -/
theorem Reads.size {tokens rest : List Token} {depth : Nat} :
    Reads tokens CursorProgram.size rest depth tokens.length rest depth :=
  look fun cursor same _ => ⟨trivial, by rw [← same]; rfl⟩

/-- Looking at a token by its index does not move the cursor. -/
theorem Reads.tokenAt {tokens rest : List Token} {depth index : Nat} {token : Token}
    (inside : tokens[index]? = some token) :
    Reads tokens (CursorProgram.tokenAt index) rest depth token rest depth := by
  refine look fun cursor same _ => ⟨?_, ?_⟩
  · obtain ⟨bound, -⟩ := List.getElem?_eq_some_iff.mp inside
    rw [← same] at bound
    exact bound
  · exact congrArg (·, cursor) (by rw [same, inside]; rfl)

/-- The last step of `ParseQuery`: a result without tokens gets them back. -/
def restore (tokens : List Token) (result : ParseResult) : ParseResult :=
  if result.tokens = [] then { result with tokens := tokens } else result

/-- From the start of the statement, the program returns what the parser of the model
returns, once the tokens are put back. -/
def Restored (tokens : List Token) (program : CursorProgram ParseResult)
    (model : Option (ParseResult × Nat)) : Prop :=
  ∃ value value' stop after depth', Reads tokens program tokens 0 value after depth' ∧
    model = some (value', stop) ∧ restore tokens value = { value' with tokens := tokens }

namespace Restored

variable {tokens : List Token}

/-- A statement parser returns no tokens. -/
theorem of_agrees {program : CursorProgram ParseResult} {model : Option (ParseResult × Nat)}
    (agrees : Agrees tokens program tokens 0 model) (bare : Bare program) :
    Restored tokens program model := by
  obtain ⟨value, stop, after, depth', reads, same, -⟩ := agrees
  obtain ⟨cursor, checked, -⟩ := reads { tokens } rfl (At.start tokens) rfl
  obtain ⟨-, ran⟩ := Client.checked_eq_some_iff.mp checked
  have untouched := @Client.Returns.run _ _ _ _ Cursor.handle _ _ bare { tokens }
  rw [ran] at untouched
  exact ⟨value, value, stop, after, depth', reads, same, if_pos untouched⟩

/-- A statement that is not supported. -/
theorem unsupported (result : ParseResult) (stop : Nat) :
    Restored tokens (pure { result with tokens := tokens }) (some (result, stop)) := by
  refine ⟨_, result, stop, tokens, 0, Reads.pure _, rfl, ?_⟩
  rw [restore]
  split
  · rfl
  · rfl

/-- A step that leaves the cursor, and the rest of the program. -/
theorem step {Result : Type} {program : CursorProgram Result}
    {next : Result → CursorProgram ParseResult} {value : Result}
    {model : Option (ParseResult × Nat)} (reads : Reads tokens program tokens 0 value tokens 0)
    (later : Restored tokens (next value) model) : Restored tokens (program >>= next) model := by
  obtain ⟨final, final', stop, after, depth', readsLater, rest⟩ := later
  exact ⟨final, final', stop, after, depth', reads.bind readsLater, rest⟩

theorem ite {condition : Prop} [Decidable condition] {first second : CursorProgram ParseResult}
    {model model' : Option (ParseResult × Nat)}
    (holds : condition → Restored tokens first model)
    (fails : ¬ condition → Restored tokens second model') :
    Restored tokens (if condition then first else second)
      (if condition then model else model') := by
  by_cases decided : condition
  · rw [if_pos decided, if_pos decided]
    exact holds decided
  · rw [if_neg decided, if_neg decided]
    exact fails decided

/-- The first token says which statement is parsed; the tokens are put back into the result. -/
theorem parseStatement {first : Token} {beyond : List Token} {fuel : Nat}
    (enough : (first :: beyond).length < fuel) :
    Restored (first :: beyond)
      (CursorProgram.parseStatement fuel { tokens := first :: beyond })
      (Parser.parseStatement (first :: beyond)) := by
  have located := At.start (first :: beyond)
  refine step (Reads.tokenAt rfl) ?_
  refine ite (fun _ => of_agrees (Agrees.parseSelect located enough) (Bare.parseSelect fuel))
    fun _ => ?_
  refine ite (fun _ => of_agrees (Agrees.parseInsert located enough) (Bare.parseInsert fuel))
    fun _ => ?_
  refine ite (fun _ => of_agrees (Agrees.parseUpdate located) Bare.parseUpdate) fun _ => ?_
  refine ite (fun _ => of_agrees (Agrees.parseDelete located) Bare.parseDelete) fun _ => ?_
  refine ite (fun _ => step Reads.size ?_) fun _ =>
    step (Reads.tokenAt rfl)
      (unsupported { errorMessage := "Unsupported SQL statement type: ".toList ++ first } 0)
  have unsupportedKind := @unsupported (first :: beyond)
    (ParseResult.fail {} "Unsupported CREATE statement type") 0
  cases beyond with
  | nil =>
    rw [if_neg (by simp), if_neg (by simp)]
    exact unsupportedKind
  | cons kind beyond =>
    rw [if_pos (by simp)]
    refine step (Reads.tokenAt (by rfl)) ?_
    have second : ((first :: kind :: beyond)[1]?).map toUpper = some (toUpper kind) := rfl
    rw [second]
    by_cases isTable : toUpper kind = "TABLE".toList
    · rw [if_pos isTable, if_pos (congrArg some isTable)]
      exact of_agrees (Agrees.parseCreateTable located enough) (Bare.parseCreateTable fuel)
    · rw [if_neg isTable, if_neg (fun same => isTable (Option.some.inj same))]
      exact unsupportedKind

end Restored

/-- `ParseQuery` around the dispatch, for a statement that is not empty. -/
theorem Reads.parseQuery {sql : List Char} {value : ParseResult} {after : List Token} {depth : Nat}
    (nonempty : tokenize sql ≠ [])
    (reads : Reads (tokenize sql) (CursorProgram.parseStatement ((tokenize sql).length + 1)
      { tokens := tokenize sql }) (tokenize sql) 0 value after depth) :
    Reads (tokenize sql) (CursorProgram.parseQuery sql) (tokenize sql) 0
      (restore (tokenize sql) value) after depth := by
  refine size.bind (ite_neg (by simpa using nonempty) (reads.bind ?_))
  rw [restore]
  split
  · exact pure _
  · exact pure _

/-- `ParseQuery` makes safe requests only and returns what the model returns. -/
theorem reads_parseQuery (sql : List Char) :
    ∃ value after depth,
      Reads (tokenize sql) (CursorProgram.parseQuery sql) (tokenize sql) 0 value after depth ∧
        parseQuery sql = some value := by
  by_cases empty : tokenize sql = []
  · have noTokens : (tokenize sql).length = 0 := by rw [empty]; rfl
    refine ⟨_, _, _, Reads.size.bind (Reads.ite_pos noTokens (Reads.pure _)), ?_⟩
    rw [parseQuery, empty]
    rfl
  · have restored : Restored (tokenize sql) (CursorProgram.parseStatement
        ((tokenize sql).length + 1) { tokens := tokenize sql })
        (parseStatement (tokenize sql)) := by
      obtain ⟨first, beyond, shape⟩ := List.exists_cons_of_ne_nil empty
      rw [shape]
      exact Restored.parseStatement (Nat.lt_succ_self _)
    obtain ⟨value, value', stop, after, depth, reads, same, restoredEq⟩ := restored
    refine ⟨restore (tokenize sql) value, after, depth, reads.parseQuery empty, ?_⟩
    rw [parseQuery, same, restoredEq]
    rfl

/-- For every statement, `ParseQuery` and the functions that it calls read inside the
tokens, never move the position back or beyond their end and never run out of fuel; the
result is that of the model, and its tokens are those of the statement. -/
theorem parseQuery_safe (sql : List Char) :
    Client.Each Cursor.handle Cursor.Safe (CursorProgram.parseQuery sql) { tokens := tokenize sql } ∧
      (Client.run Cursor.handle (CursorProgram.parseQuery sql)
        { tokens := tokenize sql }).1.tokens = tokenize sql ∧
      parseQuery sql = some (Client.run Cursor.handle (CursorProgram.parseQuery sql)
        { tokens := tokenize sql }).1 := by
  obtain ⟨value, after, depth, reads, same⟩ := reads_parseQuery sql
  obtain ⟨cursor, checked, -⟩ := reads { tokens := tokenize sql } rfl (At.start _) rfl
  obtain ⟨safe, ran⟩ := Client.checked_eq_some_iff.mp checked
  rw [ran]
  refine ⟨safe, ?_, same⟩
  obtain ⟨out, -, rfl⟩ := Option.map_eq_some_iff.mp same
  rfl

end MiniDB.Parser
