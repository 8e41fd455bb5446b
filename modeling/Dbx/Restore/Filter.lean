import Dbx.Text.Basic

/-!
# The filter of a selected-table restore

A dump is restored for selected tables only. A first pass over its statements lists the tables and
views, the second keeps the statements of the selected tables and those of the session. A statement
is classified by its first tokens, of at most 16384 characters; an insert may be gigabytes long. A
cursor is what is left of the tokens. The tokenizer is the one of `sqlparser` for MySQL.

## Main definitions

* `Token`, `Tokenizer`: the tokens that the filter distinguishes, and what reads them
* `Cursor.eat`, `Cursor.table`: reading words and table names
* `TableRestoreFilter.classify`: what a statement is about
* `TableRestoreFilter.filter`, `TableRestoreFilter.inspect`: the two passes over a statement
* `scan`, `validateSelectedTables`: the first pass over a dump, and the check of a selection
-/

namespace Dbx.Restore

open Text

/-- `Token`, as far as the filter looks at it. -/
inductive Token
  | word (value : Text) (quoteStyle : Option Char)
  | period
  | comma
  | lParen
  | semiColon
  | whitespace
  | eof
  | other (text : Text)
  deriving DecidableEq, Repr

/-- The tokens up to the end or the first error, and whether there is none. -/
structure Tokenized where
  tokens : List Token
  ok : Bool
  deriving DecidableEq, Repr

/-- `tokenize_with_location_into_buf`. -/
abbrev Tokenizer := Text → Tokenized

def significant (tokens : List Token) : List Token :=
  tokens.filter fun token => token ≠ .whitespace && token ≠ .eof

/-- `SqlFileTable`. -/
structure SqlFileTable where
  database : Option Text
  name : Text
  deriving DecidableEq, Repr

/-- `word_is`. -/
def Token.wordIs (expected : Text) : Token → Bool
  | .word value none => eqIgnoreAsciiCase value expected
  | _ => false

abbrev Cursor := List Token

namespace Cursor

/-- `eat`, where it finds the word. -/
def eat (word : String) : Cursor → Option Cursor
  | token :: rest => if token.wordIs word.toList then some rest else none
  | [] => none

/-- `eat_token`, where it finds the token. -/
def eatToken (token : Token) : Cursor → Option Cursor
  | first :: rest => if first = token then some rest else none
  | [] => none

/-- `eat`, of a word that may be missing. -/
def skip (cursor : Cursor) (word : String) : Cursor := (cursor.eat word).getD cursor

/-- `eat_if_not_exists`. -/
def skipIfNotExists (cursor : Cursor) : Cursor :=
  match cursor.eat "IF" with
  | some rest => (rest.skip "NOT").skip "EXISTS"
  | none => cursor

/-- What `DROP TABLE` reads behind `IF`. -/
def skipIfExists (cursor : Cursor) : Cursor :=
  match cursor.eat "IF" with
  | some rest => rest.skip "EXISTS"
  | none => cursor

/-- `identifier`. -/
def identifier : Cursor → Option (Text × Cursor)
  | .word value _ :: rest => some (value, rest)
  | _ => none

/-- `table`. -/
def table (database : Option Text) (cursor : Cursor) : Option (SqlFileTable × Cursor) := do
  let (first, rest) ← cursor.identifier
  match rest.eatToken .period with
  | some rest => do
    let (name, rest) ← rest.identifier
    return (⟨some first, name⟩, rest)
  | none => return (⟨database, first⟩, rest)

/-- The tables of a list behind its first: each comes behind a comma. -/
def moreTables (database : Option Text) : Nat → Cursor → Option (List SqlFileTable × Cursor)
  | 0, cursor => some ([], cursor)
  | fuel + 1, cursor =>
    match cursor.eatToken .comma with
    | none => some ([], cursor)
    | some rest => do
      let (first, rest) ← rest.table database
      let (more, rest) ← moreTables database fuel rest
      return (first :: more, rest)

/-- The tables of a list. Every round reads a token, so that there is a round for each. -/
def tables (database : Option Text) (cursor : Cursor) : Option (List SqlFileTable × Cursor) := do
  let (first, rest) ← cursor.table database
  let (more, rest) ← moreTables database rest.length rest
  return (first :: more, rest)

end Cursor

/-- `Scope`. -/
inductive Scope
  | table (table : SqlFileTable)
  | dropTables (tables : List SqlFileTable) (ifExists : Bool)
  | session
  | databaseSession (database : Text)
  | skip
  deriving DecidableEq, Repr

/-- `TableRestoreFilter`. -/
structure TableRestoreFilter where
  database : Option Text
  tables : List SqlFileTable
  views : List SqlFileTable
  deriving DecidableEq, Repr

/-- `BTreeSet::insert`. -/
def insertTable (table : SqlFileTable) (tables : List SqlFileTable) : List SqlFileTable :=
  if table ∈ tables then tables else table :: tables

/-- `statement_summary`. -/
def statementSummary (statement : Text) : Text :=
  ([' '].intercalate (splitWhitespace statement)).take 120

/-- `unsupported`. -/
def unsupported (sql : Text) : Text :=
  "Cannot safely restore selected tables from this statement: ".toList ++ statementSummary sql

/-- The characters of which a statement is tokenized. -/
def headerLimit : Nat := 16384

def objectKinds : List String := ["VIEW", "PROCEDURE", "FUNCTION", "TRIGGER", "EVENT"]

namespace TableRestoreFilter

def default : TableRestoreFilter := ⟨none, [], []⟩

/-- `with_views`. -/
def withViews (views : List SqlFileTable) : TableRestoreFilter := ⟨none, [], views⟩

section Classify

variable (filter : TableRestoreFilter) (sql : Text) (tokens : List Token)

/-- The scope of the table that the cursor is at. -/
def tableScope (cursor : Cursor) : Except Text (Scope × TableRestoreFilter) :=
  match cursor.table filter.database with
  | some (table, _) => .ok (.table table, filter)
  | none => .error (unsupported sql)

/-- `classify`, of an insert. -/
def classifyInsert (rest : Cursor) : Except Text (Scope × TableRestoreFilter) :=
  filter.tableScope sql <| (["LOW_PRIORITY", "DELAYED", "HIGH_PRIORITY", "IGNORE"].foldl
    Cursor.skip rest).skip "INTO"

/-- `classify`, of the creation of a table or of an object with a body. Other statements are
classified later. -/
def classifyCreate (rest : Cursor) : Option (Except Text (Scope × TableRestoreFilter)) :=
  if (rest.eat "TEMPORARY").isSome then some (.error (unsupported sql))
  else
    match rest.eat "TABLE" with
    | some rest => some (filter.tableScope sql rest.skipIfNotExists)
    | none =>
      let header := tokens.takeWhile (· ≠ .lParen)
      match header.findIdx? fun token => objectKinds.any fun kind => token.wordIs kind.toList with
      | none => none
      | some index =>
        if (tokens[index]?).any (·.wordIs "VIEW".toList) then
          match Cursor.table filter.database (tokens.drop (index + 1)) with
          | some (view, _) =>
            some (.ok (.skip, { filter with views := insertTable view filter.views }))
          | none => some (.error (unsupported sql))
        else some (.ok (.skip, filter))

/-- `classify`, of `USE`. -/
def classifyUse (rest : Cursor) : Except Text (Scope × TableRestoreFilter) :=
  match rest.identifier with
  | some (database, _) =>
    .ok (.databaseSession database, { filter with database := some database })
  | none => .error (unsupported sql)

/-- `classify`, of `SET`. -/
def classifySet (rest : Cursor) : Except Text (Scope × TableRestoreFilter) :=
  if (rest.eat "STATEMENT").isSome then .error (unsupported sql)
  else if tokens.any fun token =>
      ["GLOBAL", "@@GLOBAL", "PERSIST", "PERSIST_ONLY"].any fun word =>
        token.wordIs word.toList then
    .ok (.skip, filter)
  else .ok (.session, filter)

/-- `classify`, of `BEGIN`. -/
def classifyBegin (rest : Cursor) : Except Text (Scope × TableRestoreFilter) :=
  let rest := rest.skip "WORK"
  if ((rest.eatToken .semiColon).getD rest).isEmpty then .ok (.session, filter)
  else .error (unsupported sql)

/-- `classify`, of the creation of a database or an index. -/
def classifyCreateOther (rest : Cursor) : Option (Except Text (Scope × TableRestoreFilter)) :=
  match (rest.eat "DATABASE").or (rest.eat "SCHEMA") with
  | some rest =>
    match ((rest.eat "IF").bind (·.eat "NOT")).bind (·.eat "EXISTS") with
    | some rest =>
      match rest.identifier with
      | some (database, _) => some (.ok (.databaseSession database, filter))
      | none => some (.error (unsupported sql))
    | none => some (.ok (.skip, filter))
  | none =>
    match (((rest.skip "UNIQUE").skip "FULLTEXT").skip "SPATIAL").eat "INDEX" with
    | some _ =>
      (tokens.findIdx? fun token => token.wordIs "ON".toList).map fun index =>
        filter.tableScope sql (tokens.drop (index + 1))
    | none => none

/-- `classify`, of `DROP`. -/
def classifyDrop (rest : Cursor) : Option (Except Text (Scope × TableRestoreFilter)) :=
  if (rest.eat "TEMPORARY").isSome then some (.error (unsupported sql))
  else
    match rest.eat "TABLE" with
    | some rest =>
      let ifExists := ((rest.eat "IF").bind (·.eat "EXISTS")).isSome
      match rest.skipIfExists.tables filter.database with
      | none => some (.error (unsupported sql))
      | some (tables, rest) =>
        let rest := (rest.skip "RESTRICT").skip "CASCADE"
        if ((rest.eatToken .semiColon).getD rest).isEmpty then
          some (.ok (.dropTables tables ifExists, filter))
        else some (.error (unsupported sql))
    | none =>
      if ("DATABASE" :: "SCHEMA" :: objectKinds).any fun kind => (rest.eat kind).isSome then
        some (.ok (.skip, filter))
      else none

/-- `classify`, of `ALTER TABLE`. -/
def classifyAlter (rest : Cursor) : Except Text (Scope × TableRestoreFilter) :=
  match rest.table filter.database with
  | none => .error (unsupported sql)
  | some (table, rest) =>
    if rest.any fun token => token.wordIs "RENAME".toList || token.wordIs "EXCHANGE".toList then
      .error (unsupported sql)
    else .ok (.table table, filter)

/-- The words at which the statement is about the session. -/
def isTransaction : Bool :=
  ((Cursor.eat "START" tokens).bind (·.eat "TRANSACTION")).isSome ||
    (Cursor.eat "COMMIT" tokens).isSome || (Cursor.eat "ROLLBACK" tokens).isSome

/-- `classify`, of a statement that is tokenized as a whole. -/
def classifyWhole : Except Text (Scope × TableRestoreFilter) :=
  match Cursor.eat "USE" tokens, Cursor.eat "SET" tokens, Cursor.eat "BEGIN" tokens with
  | some rest, _, _ => filter.classifyUse sql rest
  | none, some rest, _ => filter.classifySet sql tokens rest
  | none, none, some rest => filter.classifyBegin sql rest
  | none, none, none =>
    if isTransaction tokens then .ok (.session, filter)
    else if (Cursor.eat "LOCK" tokens).isSome || (Cursor.eat "UNLOCK" tokens).isSome then
      .ok (.skip, filter)
    else
      ((Cursor.eat "CREATE" tokens).bind (filter.classifyCreateOther sql tokens)).getD <|
      ((Cursor.eat "DROP" tokens).bind (filter.classifyDrop sql)).getD <|
      (((Cursor.eat "ALTER" tokens).bind (·.eat "TABLE")).map (filter.classifyAlter sql)).getD <|
      .error (unsupported sql)

end Classify

variable (tokenizer : Tokenizer)

/-- `classify`. -/
def classify (filter : TableRestoreFilter) (sql : Text) :
    Except Text (Scope × TableRestoreFilter) :=
  let tokenized := tokenizer (sql.take headerLimit)
  let tokens := significant tokenized.tokens
  let whole : Bool := sql.length ≤ headerLimit
  if tokens.isEmpty && tokenized.ok && whole then .ok (.skip, filter)
  else
    match (Cursor.eat "INSERT" tokens).or (Cursor.eat "REPLACE" tokens) with
    | some rest => filter.classifyInsert sql rest
    | none =>
      ((Cursor.eat "CREATE" tokens).bind (filter.classifyCreate sql tokens)).getD <|
        if !tokenized.ok || !whole then .error (unsupported sql)
        else filter.classifyWhole sql tokens

def quoteName (name : Text) : Text :=
  '\x60' :: replaceChar '\x60' ['\x60', '\x60'] name ++ ['\x60']

/-- `quoted_table`. -/
def quotedTable (table : SqlFileTable) : Text :=
  match table.database with
  | some database => quoteName database ++ '.' :: quoteName table.name
  | none => quoteName table.name

/-- The statement that drops tables. -/
def dropTables (ifExists : Bool) (tables : List SqlFileTable) : Text :=
  "DROP TABLE ".toList ++ (if ifExists then "IF EXISTS ".toList else []) ++
    (", ".toList).intercalate (tables.map quotedTable)

/-- A selected table that is no view. -/
def includes (filter : TableRestoreFilter) (selected : List SqlFileTable) (table : SqlFileTable) :
    Bool :=
  table ∉ filter.views && table ∈ selected

/-- `filter`. -/
def filter (filter : TableRestoreFilter) (selected : List SqlFileTable) (sql : Text) :
    Except Text (Option Text × TableRestoreFilter) := do
  let (scope, filter) ← filter.classify tokenizer sql
  match scope with
  | .table table =>
    return (if filter.includes selected table then some sql else none,
      { filter with tables := insertTable table filter.tables })
  | .dropTables tables ifExists =>
    let kept := tables.filter (filter.includes selected)
    return (if kept.isEmpty then none else some (dropTables ifExists kept),
      { filter with tables := tables.foldr insertTable filter.tables })
  | .session => return (some sql, filter)
  | .databaseSession database =>
    return (if selected.any (·.database = some database) then some sql else none, filter)
  | .skip => return (none, filter)

/-- `inspect`. -/
def inspect (filter : TableRestoreFilter) (sql : Text) : Except Text TableRestoreFilter := do
  let (scope, filter) ← filter.classify tokenizer sql
  match scope with
  | .table table => return { filter with tables := insertTable table filter.tables }
  | .dropTables tables _ => return { filter with tables := tables.foldr insertTable filter.tables }
  | _ => return filter

/-- `finish`: the tables that are no views, and the views. -/
def finish (filter : TableRestoreFilter) : List SqlFileTable × List SqlFileTable :=
  (filter.tables.filter (· ∉ filter.views), filter.views)

end TableRestoreFilter

/-- `scan_sql_file_tables`, of the statements of a file. -/
def scan (tokenizer : Tokenizer) (statements : List Text) :
    Except Text (List SqlFileTable × List SqlFileTable) :=
  (statements.foldlM (fun (filter : TableRestoreFilter) sql => filter.inspect tokenizer sql)
    TableRestoreFilter.default).map (·.finish)

/-- `validate_selected_tables`. -/
def validateSelectedTables (selected available : List SqlFileTable) : Except Text Unit :=
  if selected.any (· ∉ available) then
    .error "A selected table is no longer present in the backup; scan the file again".toList
  else .ok ()

end Dbx.Restore
