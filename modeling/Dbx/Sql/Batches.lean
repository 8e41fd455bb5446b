import Dbx.Sql.Executable
import Dbx.Sql.Lexer

/-!
# The batches of a SQL Server script

`split_sql_batches` cuts a script at its `GO` lines. A line separates batches unless it stands in
something that the generic scanner masks: a string, a quoted identifier or a comment.

The scanner sees the text before and behind its position; the text before is kept backwards.

## Main definitions

* `SqlScanner`, `SqlScanner.step`: the mask automaton of a profile
* `splitSqlBatches`: the batches of a script
* `startsWithSqlserverModuleDdl`: the batches that define a module
-/

namespace Dbx.Sql

open Text

variable (unicode : Unicode)

/-- `OracleQQuoteState`. -/
structure OracleQQuoteState where
  awaitingDelimiter : Bool := false
  closer : Option Char := none
  deriving DecidableEq, Repr

/-- `is_open`. -/
def OracleQQuoteState.isOpen (state : OracleQQuoteState) : Bool :=
  state.awaitingDelimiter || state.closer.isSome

/-- `consume`. -/
def OracleQQuoteState.consume (state : OracleQQuoteState) (c : Char) (previous : Option Char) :
    OracleQQuoteState :=
  if state.awaitingDelimiter then ⟨false, oracleQQuoteCloser c⟩
  else if state.closer.isSome && previous = state.closer && c = '\'' then
    { state with closer := none }
  else state

/-- `dollar_quote_tag_at_str`. -/
def dollarQuoteTagAtStr : Text → Option Text
  | [] => none
  | c :: rest =>
    if c = '$' then
      (splitOnce '$' rest).bind fun parts =>
        if parts.1.all fun d => d = '_' || d.isAlphanum then some ('$' :: parts.1 ++ ['$']) else
          none
    else none

/-- `SqlScanner`. -/
structure SqlScanner where
  profile : SqlDialectProfile
  inSingleQuote : Bool := false
  singleQuoteEscapeString : Bool := false
  inDoubleQuote : Bool := false
  inBacktick : Bool := false
  inLineComment : Bool := false
  blockCommentDepth : Nat := 0
  oracleQQuote : OracleQQuoteState := {}
  dollarQuoteTag : Option Text := none
  previous : Option Char := none
  deriving DecidableEq, Repr

namespace SqlScanner

/-- The part of `step` that toggles the quotes. -/
def toggleQuotes (s : SqlScanner) (behind : Text) (c : Char) : SqlScanner :=
  let singleQuoteBackslashEscapes :=
    if s.inSingleQuote then s.singleQuoteEscapeString else s.profile.supportsBackslashEscapedQuotes
  if c = '\'' && !(s.inDoubleQuote || s.inBacktick ||
      singleQuoteBackslashEscapes && s.previous = some '\\') then
    { s with
      inSingleQuote := !s.inSingleQuote
      singleQuoteEscapeString := !s.inSingleQuote && (s.profile.supportsBackslashEscapedQuotes ||
        s.profile.supportsPostgresEscapeStrings && endsWithEscapeStringPrefix unicode behind) }
  else if c = '"' && !(s.inSingleQuote || s.inBacktick ||
      s.profile.supportsBackslashEscapedQuotes && s.previous = some '\\') then
    { s with inDoubleQuote := !s.inDoubleQuote }
  else if c = '\x60' && s.profile.supportsBacktickIdentifiers && !s.inSingleQuote &&
      !s.inDoubleQuote then
    { s with inBacktick := !s.inBacktick }
  else s

/-- `step`, at the character `c` between the texts `behind` and `rest`. -/
def step (s : SqlScanner) (behind : Text) (c : Char) (rest : Text) : SqlScanner :=
  let next := rest.head?
  match s.dollarQuoteTag with
  | some tag =>
    { s with
      dollarQuoteTag := if tag.isPrefixOf (c :: rest) then none else some tag
      previous := some c }
  | none =>
    if s.inLineComment then { s with inLineComment := c != '\n', previous := some c }
    else if s.blockCommentDepth > 0 then
      if s.profile.supportsNestedBlockComments && s.previous = some '/' && c = '*' then
        -- a nested opener's asterisk must not pair with a following slash as a close
        { s with blockCommentDepth := s.blockCommentDepth + 1, previous := none }
      else if s.previous = some '*' && c = '/' then
        { s with blockCommentDepth := s.blockCommentDepth - 1, previous := some c }
      else { s with previous := some c }
    else if s.oracleQQuote.isOpen then
      { s with oracleQQuote := s.oracleQQuote.consume c s.previous, previous := some c }
    else if !s.inSingleQuote && !s.inDoubleQuote && !s.inBacktick then
      if s.profile.supportsOracleQQuotes && c = '\'' &&
        endsWithOracleQQuotePrefix unicode behind then
        { s with
          oracleQQuote := { s.oracleQQuote with awaitingDelimiter := true }, previous := some c }
      else if c = '-' && next = some '-' || s.profile.supportsHashLineComments && c = '#' then
        { toggleQuotes unicode { s with inLineComment := true } behind c with previous := some c }
      else if c = '/' && next = some '*' then
        -- the opener's own asterisk must not read as a nested opener
        { s with blockCommentDepth := 1, previous := none }
      else
        let tag :=
          if s.profile.supportsDollarQuotedStrings then dollarQuoteTagAtStr (c :: rest) else none
        { toggleQuotes unicode { s with dollarQuoteTag := tag } behind c with previous := some c }
    else { toggleQuotes unicode s behind c with previous := some c }

/-- `is_masked`. -/
def isMasked (s : SqlScanner) : Bool :=
  s.inSingleQuote || s.inDoubleQuote || s.inBacktick || s.inLineComment ||
    decide (s.blockCommentDepth > 0) || s.oracleQQuote.isOpen || s.dollarQuoteTag.isSome

/-- The steps over the characters of `line`, which stands between `behind` and `rest`. -/
def steps : SqlScanner → Text → Text → Text → SqlScanner
  | s, _, [], _ => s
  | s, behind, c :: line, rest =>
    steps (s.step unicode behind c (line ++ rest)) (c :: behind) line rest

end SqlScanner

/-- The line is a batch separator where nothing masks it. -/
def isGoLine (line : Text) : Bool :=
  let trimmed := trim line
  eqIgnoreAsciiCase trimmed "go".toList ||
    "go ".toList.isPrefixOf (toAsciiLowercase trimmed) && (trim (trimmed.drop 2)).isEmpty

/-- What follows a line in the text of which it is a line. -/
def tailText (lines : List Text) : Text := lines.flatMap fun line => '\n' :: line

/-- The text of the batch in `push_batch_range`, if it is pushed. -/
def pushBatchRange (text : Text) : List Text := ((executableSql {} text).filter (!·.isEmpty)).toList

/-- The loop of `split_sql_batch_ranges` over the lines, with the text since the last separator. -/
def splitSqlBatchLines : SqlScanner → Text → Text → List Text → List Text
  | _, _, current, [] => pushBatchRange current
  | scanner, behind, current, line :: lines =>
    let rest := tailText lines
    let newline := rest.take 1
    let separates := scanner.profile.supportsGoBatchSeparator && !scanner.isMasked && isGoLine line
    let scanned := if separates then scanner else scanner.steps unicode behind line rest
    let behind := line.reverse ++ behind
    let scanned := if rest.isEmpty then scanned else scanned.step unicode behind '\n' (rest.drop 1)
    if separates then
      pushBatchRange current ++ splitSqlBatchLines scanned (newline ++ behind) [] lines
    else splitSqlBatchLines scanned (newline ++ behind) (current ++ line ++ newline) lines

/-- `split_sql_batch_ranges`, as the texts of the ranges. -/
def splitSqlBatchRanges (profile : SqlDialectProfile) (sql : Text) : List Text :=
  splitSqlBatchLines unicode { profile } [] [] (splitOn (· = '\n') sql)

/-- `split_sql_batches`. -/
def splitSqlBatches (sql : Text) : List Text :=
  let ranges := splitSqlBatchRanges unicode .sqlServer sql
  if ranges.isEmpty then
    let trimmed := trim sql
    if trimmed.isEmpty then [] else [trimmed]
  else ranges

/-- Where `first_sql_tokens` reads: code, a line comment, or a block comment with the character
before. -/
inductive TokenMode
  | code
  | lineComment
  | blockComment (previous : Option Char)
  deriving DecidableEq, Repr

/-- `first_sql_tokens`, from a state of its loop: the skipped characters, the mode, the tokens and
the begun token. -/
def firstSqlTokensFrom (limit : Nat) : Nat → TokenMode → List Text → Text → Text → List Text
  | _, _, tokens, token, [] => if tokens.length < limit then closed tokens token else tokens
  | skip + 1, mode, tokens, token, _ :: rest => firstSqlTokensFrom limit skip mode tokens token rest
  | 0, .lineComment, tokens, token, c :: rest =>
    firstSqlTokensFrom limit 0 (if c = '\n' then .code else .lineComment) tokens token rest
  | 0, .blockComment previous, tokens, token, c :: rest =>
    let mode := if previous = some '*' && c = '/' then .code else .blockComment (some c)
    firstSqlTokensFrom limit 0 mode tokens token rest
  | 0, .code, tokens, token, c :: rest =>
    if tokens.length ≥ limit then tokens
    else if c = '-' && rest.head? = some '-' then
      firstSqlTokensFrom limit 1 .lineComment (closed tokens token) [] rest
    else if c = '/' && rest.head? = some '*' then
      firstSqlTokensFrom limit 1 (.blockComment none) (closed tokens token) [] rest
    else if c.isAlphanum || c = '_' then firstSqlTokensFrom limit 0 .code tokens (token ++ [c]) rest
    else firstSqlTokensFrom limit 0 .code (closed tokens token) [] rest
where
  /-- The tokens with the begun one, if it is not empty. -/
  closed (tokens : List Text) (token : Text) : List Text :=
    if token.isEmpty then tokens else tokens ++ [token]

/-- `first_sql_tokens`. -/
def firstSqlTokens (sql : Text) (limit : Nat) : List Text :=
  firstSqlTokensFrom limit 0 .code [] [] sql

/-- `is_sqlserver_module_keyword`. -/
def isSqlserverModuleKeyword (token : Text) : Bool :=
  ["FUNCTION", "PROC", "PROCEDURE", "TRIGGER", "VIEW"].any fun keyword =>
    eqIgnoreAsciiCase token keyword.toList

/-- `starts_with_sqlserver_module_ddl`. -/
def startsWithSqlserverModuleDdl (sql : Text) : Bool :=
  let is (token : Text) (word : String) := eqIgnoreAsciiCase token word.toList
  match firstSqlTokens sql 4 with
  | first :: second :: third :: fourth :: _ =>
    if is first "CREATE" && is second "OR" && is third "ALTER" then isSqlserverModuleKeyword fourth
    else (is first "CREATE" || is first "ALTER") && isSqlserverModuleKeyword second
  | first :: second :: _ =>
    (is first "CREATE" || is first "ALTER") && isSqlserverModuleKeyword second
  | _ => false

end Dbx.Sql
