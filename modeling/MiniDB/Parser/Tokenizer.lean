/-!
# The tokenizer

`SQLParser::Tokenize` walks over the bytes of the statement with the token under
construction and the open quote, if any. A `std::string` is a list of characters
and the tokens are given out in order. `isspace` and `toupper` are those of the
"C" locale.
-/

namespace MiniDB.Parser

/-- A `std::string` token. -/
abbrev Token := List Char

/-- `std::isspace`. -/
def isSpace (c : Char) : Bool :=
  c == ' ' || c == '\t' || c == '\n' || c == '\x0b' || c == '\x0c' || c == '\r'

/-- The two quote characters. -/
def isQuote (c : Char) : Bool := c == '\x27' || c == '\x22'

/-- The separators and operator characters. -/
def isSymbol (c : Char) : Bool :=
  c == ',' || c == ';' || c == '(' || c == ')' || c == '=' || c == '<' || c == '>' || c == '!'

/-- The characters that may start `<=`, `>=` or `!=`. -/
def startsOperator (c : Char) : Bool := c == '<' || c == '>' || c == '!'

/-- `SQLParser::ToUpper`. -/
def toUpper (token : Token) : Token := token.map Char.toUpper

/-- The token under construction, given out if it is not empty, before what follows. -/
def pushCurrent (current : Token) (later : List Token) : List Token :=
  if current = [] then later else current :: later

/-- The loop of `Tokenize` from one position on: the rest of the statement, the
token under construction, and the quote character while inside quotes. -/
def lex : List Char → Token → Option Char → List Token
  | [], current, _ => pushCurrent current []
  | c :: rest, current, quote =>
    if isQuote c then
      match quote with
      | none => pushCurrent current (lex rest [c] (some c))
      | some open_ =>
        if c = open_ then
          match rest with
          | next :: beyond =>
            -- a doubled quote stays inside the literal
            if next = open_ then lex beyond (current ++ [c, c]) (some open_)
            else (current ++ [c]) :: lex (next :: beyond) [] none
          | [] => (current ++ [c]) :: lex [] [] none
        else
          lex rest (current ++ [c]) (some open_)
    else if quote.isSome then
      lex rest (current ++ [c]) quote
    else if isSpace c then
      pushCurrent current (lex rest [] none)
    else if isSymbol c then
      match rest with
      | next :: beyond =>
        if startsOperator c && next == '=' then
          pushCurrent current ([c, '='] :: lex beyond [] none)
        else
          pushCurrent current ([c] :: lex (next :: beyond) [] none)
      | [] => pushCurrent current ([c] :: lex [] [] none)
    else
      lex rest (current ++ [c]) none
termination_by structural sql => sql

/-- `SQLParser::Tokenize`; the last step removes empty tokens. -/
def tokenize (sql : List Char) : List Token :=
  (lex sql [] none).filter fun token => token ≠ []

example : tokenize "SELECT a,b FROM t WHERE x>=\x27it\x27\x27s\x27;".toList =
    ["SELECT".toList, "a".toList, ",".toList, "b".toList, "FROM".toList, "t".toList,
      "WHERE".toList, "x".toList, ">=".toList, "\x27it\x27\x27s\x27".toList, ";".toList] := by
  decide +kernel

end MiniDB.Parser
