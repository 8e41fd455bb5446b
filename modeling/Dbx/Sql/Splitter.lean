import Dbx.Sql.Batches

/-!
# The streaming statement splitter

`SqlStatementSplitter` cuts a script that arrives in chunks into statements. It reads a chunk from
left to right, keeps the statement that it is in, and looks ahead only as far as the chunk goes.

The recognisers of procedural blocks (MySQL routines, PL/SQL, HANA, Firebird and T-SQL blocks) are
parameters: the splitter asks them about the text it has kept, and nothing here depends on what they
answer. Offsets count characters.

## Main definitions

* `BlockRules`: the recognisers of blocks
* `SqlStatementSplitter`, `SqlStatementSplitter.scanner`: the splitter and its loop over a chunk
* `SqlStatementSplitter.pushChunkWithControl`, `SqlStatementSplitter.finishWithControl`
-/

namespace Dbx.Sql

open Text

/-- `SqlStatementWithControl`. -/
structure SqlStatementWithControl where
  sql : Text
  stopOnError : Bool
  deriving DecidableEq, Repr

/-- The recognisers of the blocks in which a semicolon does not end the statement. `τ` holds the
states of the PL/SQL tracker, which follows a statement from semicolon to semicolon. -/
structure BlockRules (τ : Type) where
  startsWithPostgresDollarQuotedRoutinePrefix : Text → Bool
  startsWithMysqlRoutineBlock : Text → Bool
  mysqlRoutineBlockIsComplete : Text → Bool
  freshTracker : τ
  keepsBlockTogether : τ → SqlDialectProfile → Text → Bool × τ
  isComplete : τ → Text → Bool × τ
  startsWithHanaScriptBlock : Text → Bool
  hanaScriptBlockIsComplete : Text → Bool
  startsWithFirebirdRoutineBlock : Text → Bool
  firebirdRoutineBlockIsComplete : Text → Bool
  keepsSqlserverControlFlowBatch : SqlDialectProfile → Text → Bool
  sqlserverControlFlowBatchIsComplete : Text → Bool
  sqlserverControlFlowBatchBoundary : Text → Option Nat

/-- Recognisers that find no blocks. -/
def BlockRules.none : BlockRules Unit where
  startsWithPostgresDollarQuotedRoutinePrefix _ := false
  startsWithMysqlRoutineBlock _ := false
  mysqlRoutineBlockIsComplete _ := false
  freshTracker := ()
  keepsBlockTogether _ _ _ := (false, ())
  isComplete _ _ := (false, ())
  startsWithHanaScriptBlock _ := false
  hanaScriptBlockIsComplete _ := false
  startsWithFirebirdRoutineBlock _ := false
  firebirdRoutineBlockIsComplete _ := false
  keepsSqlserverControlFlowBatch _ _ := false
  sqlserverControlFlowBatchIsComplete _ := false
  sqlserverControlFlowBatchBoundary _ := .none

/-- The pieces of a control-flow batch at its boundaries, and what is left behind them. -/
def BlockRules.sqlserverPieces {τ : Type} (rules : BlockRules τ) :
    Nat → Text → List Text × Text
  | 0, body => ([], body)
  | fuel + 1, body =>
    match rules.sqlserverControlFlowBatchBoundary body with
    | some boundary =>
      if boundary ≥ body.length then ([], body)
      else
        let (pieces, trailing) := rules.sqlserverPieces fuel (body.drop boundary)
        (body.take boundary :: pieces, trailing)
    | .none => ([], body)

/-- `has_odd_trailing_backslashes`. -/
def hasOddTrailingBackslashes (sql : Text) : Bool :=
  (sql.rtakeWhile (· = '\\')).length % 2 = 1

/-- `ends_with_xml_entity_reference`. -/
def endsWithXmlEntityReference (buffer : Text) : Bool :=
  let word := buffer.rtakeWhile Char.isAlphanum
  let before := buffer.rdropWhile Char.isAlphanum
  let (name, before) := match before.getLast? with
    | some '#' => ('#' :: word, before.dropLast)
    | _ => (word, before)
  before.getLast? = some '&' && match name with
    | '#' :: 'x' :: hex | '#' :: 'X' :: hex => !hex.isEmpty && hex.all isHexDigit
    | '#' :: digits => !digits.isEmpty && digits.all Char.isDigit
    | name => ["lt", "gt", "amp", "quot", "apos"].any fun entity => name = entity.toList

/-- The last line of a text, and the text before it. -/
def lastLine (text : Text) : Text := text.rtakeWhile (· ≠ '\n')

@[inherit_doc lastLine]
def beforeLastLine (text : Text) : Text := text.rdropWhile (· ≠ '\n')

/-- `parse_delimiter_command`. -/
def parseDelimiterCommand (line : Text) : Option Text :=
  let line := trim line
  if eqIgnoreAsciiCase line "delimiter;".toList then some [';']
  else
    let head := line.take 10
    if line.length > 10 && (eqIgnoreAsciiCase head "delimiter ".toList ||
        eqIgnoreAsciiCase head "delimiter\t".toList) then
      some (trim (line.drop 10)) |>.filter (!·.isEmpty)
    else none

/-- `PsqlControlCommand`. -/
inductive PsqlControlCommand
  | onErrorStop
  | clientDisplay
  deriving DecidableEq, Repr

/-- `parse_ignorable_psql_control_command`. -/
def parseIgnorablePsqlControlCommand (line : Text) : Option PsqlControlCommand :=
  let is (word : Text) (name : String) := eqIgnoreAsciiCase word name.toList
  match splitWhitespace line with
  | [] => none
  | command :: parts =>
    if is command "\\echo" then
      let arguments := (trimStart line).drop command.length
      if arguments.any fun c => c = '\\' || c = '\x60' then none else some .clientDisplay
    else if is command "\\timing" then
      match parts with
      | [] => some .clientDisplay
      | [value] => if is value "on" || is value "off" then some .clientDisplay else none
      | _ => none
    else if is command "\\set" then
      match parts with
      | [name, value] =>
        if is name "ON_ERROR_STOP" && (is value "on" || is value "true" || is value "1") then
          some .onErrorStop
        else if is name "VERBOSITY" && (is value "default" || is value "verbose" ||
            is value "terse" || is value "sqlstate") then some .clientDisplay
        else none
      | _ => none
    else none

/-- `dollar_quote_tag_at`. -/
def dollarQuoteTagAt : Text → Option Text
  | [] => none
  | c :: rest => if c = '$' then (dollarQuoteTag rest).map ('$' :: ·) else none

/-- `SqlStatementSplitter`. -/
structure SqlStatementSplitter (τ : Type) where
  profile : SqlDialectProfile
  buffer : Text := []
  inSingleQuote : Bool := false
  singleQuoteEscapeString : Bool := false
  inDoubleQuote : Bool := false
  inBacktick : Bool := false
  inLineComment : Bool := false
  blockCommentDepth : Nat := 0
  dollarQuoteTag : Option Text := none
  postgresDollarQuotedRoutine : Bool := false
  previous : Option Char := none
  pendingMysqlLineCommentDashes : Bool := false
  oracleQQuote : OracleQQuoteState := {}
  oracleBlock : τ
  customDelimiter : Option Text := none
  stopOnError : Bool := false
  pendingPsqlCommand : Option Text := none

namespace SqlStatementSplitter

variable {τ : Type} (unicode : Unicode) (rules : BlockRules τ)

variable (s : SqlStatementSplitter τ)

/-- The statement with a text, if it has anything to execute. -/
def statement (text : Text) : List SqlStatementWithControl :=
  if hasExecutableSql s.profile (trim text) then [⟨trim text, s.stopOnError⟩] else []

/-- The splitter behind the end of a statement. -/
def cleared : SqlStatementSplitter τ :=
  { s with
    buffer := []
    oracleBlock := rules.freshTracker
    postgresDollarQuotedRoutine := false
    previous := none }

/-- `push_current_statement`. -/
def pushCurrentStatement : SqlStatementSplitter τ × List SqlStatementWithControl :=
  ({ s.cleared rules with pendingMysqlLineCommentDashes := false }, s.statement s.buffer)

/-- `single_quote_backslash_escapes`. -/
def singleQuoteBackslashEscapes : Bool :=
  if s.inSingleQuote then s.singleQuoteEscapeString else s.profile.supportsBackslashEscapedQuotes

/-- `on_delimiter_line`. -/
def onDelimiterLine : Bool :=
  eqIgnoreAsciiCase ((trimStart (lastLine s.buffer)).take 9) "delimiter".toList &&
    !hasExecutableSql s.profile (trim (beforeLastLine s.buffer))

def keep (text : Text) : SqlStatementSplitter τ :=
  { s with buffer := s.buffer ++ text }

/-- The text is kept and its last character remembered. -/
def read (text : Text) : SqlStatementSplitter τ :=
  { s with buffer := s.buffer ++ text, previous := text.getLast? }

def unquoted : Bool :=
  !s.inSingleQuote && !s.inDoubleQuote && !s.inBacktick

/-- A step inside a dollar quote. -/
def dollarStep (tag : Text) (c : Char) (rest : Text) : SqlStatementSplitter τ × Nat :=
  if tag.isPrefixOf (c :: rest) then ({ s.read tag with dollarQuoteTag := none }, tag.length - 1)
  else (s.read [c], 0)

/-- A step inside a block comment. -/
def blockCommentStep (c : Char) : SqlStatementSplitter τ :=
  if s.profile.supportsNestedBlockComments && s.previous = some '/' && c = '*' then
    -- a nested opener's asterisk must not pair with a following slash as a close
    { s.keep [c] with blockCommentDepth := s.blockCommentDepth + 1, previous := none }
  else if s.previous = some '*' && c = '/' then
    { s.read [c] with blockCommentDepth := s.blockCommentDepth - 1 }
  else s.read [c]

/-- The step into a block comment. -/
def openBlockComment (c : Char) : SqlStatementSplitter τ :=
  -- the opener's own asterisk must not read as a nested opener
  { s.keep [c] with blockCommentDepth := 1, previous := none }

/-- A character in code that opens a q-quoted literal or a comment, with the next one. -/
def openMark (c : Char) (next : Option Char) : Option (SqlStatementSplitter τ) :=
  if s.profile.supportsOracleQQuotes && c = '\'' &&
      endsWithOracleQQuotePrefix unicode s.buffer.reverse then
    some { s.read [c] with oracleQQuote := { s.oracleQQuote with awaitingDelimiter := true } }
  else if s.previous = some '-' && c = '-' &&
      s.profile.requiresWhitespaceAfterLineCommentDashes && next.isNone then
    -- the next chunk tells whether the dashes open a comment
    some { s.read [c] with pendingMysqlLineCommentDashes := true }
  else if s.previous = some '-' && c = '-' && dashDashStartsLineComment s.profile next then
    some { s.read [c] with inLineComment := true }
  else if s.previous = some '/' && c = '*' then some (s.openBlockComment c)
  else if s.profile.supportsHashLineComments && c = '#' then
    some { s.read [c] with inLineComment := true }
  else if c = '/' && next = some '*' then some (s.openBlockComment c)
  else none

/-- A character in code that opens a dollar quote, with its tag. -/
def openDollarQuote (tag : Option Text) : Option (SqlStatementSplitter τ × Nat) :=
  match tag with
  | some tag =>
    if s.profile.supportsDollarQuotedStrings && s.customDelimiter.isNone && !s.onDelimiterLine then
      let routine := s.profile.supportsPostgresDollarQuotedRoutines &&
        rules.startsWithPostgresDollarQuotedRoutinePrefix s.buffer
      some ({ s.read tag with
        dollarQuoteTag := some tag
        postgresDollarQuotedRoutine := s.postgresDollarQuotedRoutine || routine },
        tag.length - 1)
    else none
  | none => none

/-- A step in code that opens a literal or a comment. -/
def openStep (c : Char) (rest : Text) : Option (SqlStatementSplitter τ × Nat) :=
  match s.openMark unicode c rest.head? with
  | some opened => some (opened, 0)
  | none => s.openDollarQuote rules (dollarQuoteTagAt (c :: rest))

/-- The end of a complete T-SQL control-flow batch, whose body is kept, at its semicolon. -/
def endControlFlowBatch : SqlStatementSplitter τ × List SqlStatementWithControl :=
  match rules.sqlserverPieces s.buffer.length s.buffer with
  | ([], _) => (s.keep [';']).pushCurrentStatement rules
  | (pieces, trailing) =>
    let statements := pieces.flatMap s.statement
    let rest := (s.pushCurrentStatement rules).1
    if (trim trailing).isEmpty then (rest, statements)
    else if rules.keepsSqlserverControlFlowBatch s.profile trailing then
      -- a batch that the rest opens keeps this semicolon
      let kept := rest.keep (trailing ++ [';'])
      if rules.sqlserverControlFlowBatchIsComplete trailing then
        ((kept.pushCurrentStatement rules).1, statements ++ (kept.pushCurrentStatement rules).2)
      else (kept, statements)
    else
      let kept := rest.keep trailing
      ((kept.pushCurrentStatement rules).1, statements ++ (kept.pushCurrentStatement rules).2)

/-- A semicolon stays in the statement, and ends it when the statement is complete with it. -/
def keepSemicolon (complete : Bool) : SqlStatementSplitter τ × List SqlStatementWithControl :=
  if complete then (s.keep [';']).pushCurrentStatement rules else (s.keep [';'], [])

/-- A semicolon in code. -/
def semicolonStep : SqlStatementSplitter τ × List SqlStatementWithControl :=
  let whole := s.buffer ++ [';']
  if endsWithXmlEntityReference s.buffer then (s.keep [';'], [])
  else if s.profile.supportsCustomDelimiterCommands && s.onDelimiterLine ||
      s.customDelimiter.isSome then (s.keep [';'], [])
  else if s.profile.supportsMysqlRoutineBlocks && rules.startsWithMysqlRoutineBlock s.buffer then
    -- the semicolon behind the routine is not sent
    if rules.mysqlRoutineBlockIsComplete whole then s.pushCurrentStatement rules
    else (s.keep [';'], [])
  else
    let (together, tracker) := if s.postgresDollarQuotedRoutine then (false, s.oracleBlock)
      else rules.keepsBlockTogether s.oracleBlock s.profile s.buffer
    let s := { s with oracleBlock := tracker }
    if together then
      let (complete, tracker) := rules.isComplete tracker whole
      { s with oracleBlock := tracker }.keepSemicolon rules complete
    else if s.profile.supportsHanaScriptBlocks && rules.startsWithHanaScriptBlock s.buffer then
      s.keepSemicolon rules (rules.hanaScriptBlockIsComplete whole)
    else if s.profile.supportsFirebirdRoutineBlocks &&
        rules.startsWithFirebirdRoutineBlock s.buffer then
      s.keepSemicolon rules (rules.firebirdRoutineBlockIsComplete whole)
    else if rules.keepsSqlserverControlFlowBatch s.profile s.buffer then
      if rules.sqlserverControlFlowBatchIsComplete whole then s.endControlFlowBatch rules
      else (s.keep [';'], [])
    else s.pushCurrentStatement rules

/-- The quotes that a character opens or closes; none for other characters. -/
def toggleQuote (c : Char) : Option (SqlStatementSplitter τ) :=
  if c = '\'' && !(s.inDoubleQuote || s.inBacktick ||
      s.singleQuoteBackslashEscapes && hasOddTrailingBackslashes s.buffer) then
    some { s with
      inSingleQuote := !s.inSingleQuote
      singleQuoteEscapeString := !s.inSingleQuote && (s.profile.supportsBackslashEscapedQuotes ||
        s.profile.supportsPostgresEscapeStrings &&
          endsWithEscapeStringPrefix unicode s.buffer.reverse) }
  else if c = '"' && !(s.inSingleQuote || s.inBacktick ||
      s.profile.supportsBackslashEscapedQuotes && hasOddTrailingBackslashes s.buffer) then
    some { s with inDoubleQuote := !s.inDoubleQuote }
  else if c = '\x60' && s.profile.supportsBacktickIdentifiers && !s.inSingleQuote &&
      !s.inDoubleQuote then
    some { s with inBacktick := !s.inBacktick }
  else none

/-- A character is kept, or ends the statement. -/
def keepStep (c : Char) : SqlStatementSplitter τ × List SqlStatementWithControl :=
  match s.toggleQuote unicode c with
  | some toggled => (toggled.keep [c], [])
  | none => if c = ';' && s.unquoted then s.semicolonStep rules else (s.keep [c], [])

/-- The end of a line in code that is a command to the splitter. -/
def lineStep : Option (SqlStatementSplitter τ × List SqlStatementWithControl) :=
  let text := s.buffer.dropLast
  let line := trim (lastLine text)
  let before := beforeLastLine text
  if s.profile.supportsSlashLineBlockDelimiter && line = ['/'] then
    some (s.cleared rules, s.statement before)
  else if s.profile.supportsCustomDelimiterCommands && !hasExecutableSql s.profile before then
    (parseDelimiterCommand line).map fun delimiter =>
      let active := if delimiter = [';'] then none else some delimiter
      ({ s.cleared rules with customDelimiter := active }, s.statement before)
  else none

/-- The statement ends when the text kept ends with the active delimiter. -/
def delimiterStep : SqlStatementSplitter τ × List SqlStatementWithControl :=
  match s.customDelimiter with
  | some delimiter =>
    if delimiter.isSuffixOf s.buffer && !s.onDelimiterLine then
      let before := s.buffer.take (s.buffer.length - delimiter.length)
      { s with buffer := before }.pushCurrentStatement rules
    else (s, [])
  | none => (s, [])

/-- A step at a character that opens nothing. -/
def plainStep (c : Char) : SqlStatementSplitter τ × List SqlStatementWithControl :=
  let kept := s.keepStep unicode rules c
  if kept.1.unquoted && kept.1.dollarQuoteTag.isNone then
    match if c = '\n' then kept.1.lineStep rules else none with
    | some ended => (ended.1, kept.2 ++ ended.2)
    | none =>
      let ended := kept.1.delimiterStep rules
      ({ ended.1 with previous := some c }, kept.2 ++ ended.2)
  else ({ kept.1 with previous := some c }, kept.2)

/-- A step of the loop over a chunk, outside of psql commands. -/
def scanStep (c : Char) (rest : Text) :
    SqlStatementSplitter τ × Nat × List SqlStatementWithControl :=
  match s.dollarQuoteTag with
  | some tag => ((s.dollarStep tag c rest).1, (s.dollarStep tag c rest).2, [])
  | none =>
    if s.inLineComment then ({ s.read [c] with inLineComment := c != '\n' }, 0, [])
    else if s.blockCommentDepth > 0 then (s.blockCommentStep c, 0, [])
    else if s.oracleQQuote.isOpen then
      ({ s.read [c] with oracleQQuote := s.oracleQQuote.consume c s.previous }, 0, [])
    else
      match if s.unquoted then s.openStep unicode rules c rest else none with
      | some opened => (opened.1, opened.2, [])
      | none => ((s.plainStep unicode rules c).1, 0, (s.plainStep unicode rules c).2)

def plainScanner : Stepper (SqlStatementSplitter τ) SqlStatementWithControl where
  step s c rest := s.scanStep unicode rules c rest

/-- The dashes at the end of the last chunk open a comment or not, with what follows them. -/
def resume (chunk : Text) : SqlStatementSplitter τ :=
  if s.pendingMysqlLineCommentDashes && !chunk.isEmpty then
    { s with
      inLineComment := dashDashStartsLineComment s.profile chunk.head?
      pendingMysqlLineCommentDashes := false }
  else s

/-- `finish_psql_command`. -/
def finishPsqlCommand (command : Text) : SqlStatementSplitter τ × List SqlStatementWithControl :=
  let s := { s with pendingPsqlCommand := none }
  match parseIgnorablePsqlControlCommand (trim command) with
  | some control =>
    ({ s with stopOnError := s.stopOnError || control = .onErrorStop }, [])
  | none =>
    -- other commands reach the server and fail there
    let s := { s with profile := { s.profile with supportsPsqlControlCommands := false } }
    let (s, statements) := (plainScanner unicode rules).run 0 (s.resume command) command
    ({ s with profile := { s.profile with supportsPsqlControlCommands := true } }, statements)

/-- A backslash here starts a psql command. -/
def startsPsqlCommand (c : Char) : Bool :=
  s.profile.supportsPsqlControlCommands && c = '\\' && s.unquoted && !s.inLineComment &&
    s.blockCommentDepth = 0 && s.dollarQuoteTag.isNone && (trim (lastLine s.buffer)).isEmpty

/-- A step of the loop over a chunk. -/
def chunkStep (c : Char) (rest : Text) :
    SqlStatementSplitter τ × Nat × List SqlStatementWithControl :=
  match s.pendingPsqlCommand with
  | some command =>
    if c = '\n' then
      let finished := s.finishPsqlCommand unicode rules (command ++ [c])
      (finished.1, 0, finished.2)
    else ({ s with pendingPsqlCommand := some (command ++ [c]) }, 0, [])
  | none =>
    if s.startsPsqlCommand c then ({ s with pendingPsqlCommand := some [c] }, 0, [])
    else s.scanStep unicode rules c rest

def scanner : Stepper (SqlStatementSplitter τ) SqlStatementWithControl where
  step s c rest := s.chunkStep unicode rules c rest

/-- `push_chunk_with_control`. -/
def pushChunkWithControl (chunk : Text) : SqlStatementSplitter τ × List SqlStatementWithControl :=
  (scanner unicode rules).run 0 (s.resume chunk) chunk

/-- The end of the script for the kept text: the text that is left to push, and what is pushed
before it. -/
def finishBuffer : Text × List SqlStatementWithControl :=
  let trimmed := trim s.buffer
  let line := trim (lastLine trimmed)
  let before := beforeLastLine trimmed
  if s.profile.supportsCustomDelimiterCommands && (parseDelimiterCommand line).isSome &&
      !hasExecutableSql s.profile (trim before) then
    ([], s.statement before)
  else if s.profile.supportsSlashLineBlockDelimiter && line = ['/'] then ([], s.statement before)
  else
    match s.customDelimiter with
    | some delimiter => ((stripSuffix delimiter s.buffer).getD s.buffer, [])
    | none => (s.buffer, [])

/-- `finish_with_control`. -/
def finishWithControl : List SqlStatementWithControl :=
  let (s, commands) := match s.pendingPsqlCommand with
    | some command => s.finishPsqlCommand unicode rules command
    | none => (s, [])
  let (buffer, statements) := s.finishBuffer
  commands ++ statements ++ s.statement buffer

/-- `with_options`. -/
def withOptions (profile : SqlDialectProfile) : SqlStatementSplitter τ :=
  { profile, oracleBlock := rules.freshTracker }

/-- `push_chunk_with_control` for one chunk after the other, and `finish_with_control`. -/
def pushChunks : SqlStatementSplitter τ → List Text → List SqlStatementWithControl
  | s, [] => s.finishWithControl unicode rules
  | s, chunk :: chunks =>
    (s.pushChunkWithControl unicode rules chunk).2 ++
      pushChunks (s.pushChunkWithControl unicode rules chunk).1 chunks

end SqlStatementSplitter

end Dbx.Sql
