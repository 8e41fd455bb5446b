import Dbx.Grid.Columns
import Dbx.Table.Statements

/-!
# Saving a grid without a primary key

`prepare_data_grid_save` turns the edited and deleted rows of a grid into UPDATE and DELETE
statements. A row of a table without a primary key is addressed by a predicate: the physical
locator the grid has loaded with the row, or the equality of every column with the loaded value.
With the statements come guards, which count the rows a predicate selects and which the editor
evaluates before it runs the first statement.

Only tables without a primary key are modelled, of the types in `uses_keyless_row_predicate`, and
only the rows that exist: inserted rows get statements of their own behind the others. Values stand
for the literals that denote them, so two predicates have one text when they are equal.

## Main definitions

* `Predicate`, `Engine`, `Predicate.truth`: predicates and their three-valued meaning
* `buildPrimaryKeyPredicate`: the predicate of a loaded row
* `prepareDataGridSave`: the statements and guards of a save, or the reason against it
* `SaveStatement.onTable`, `matchedRows`: the execution of a statement, and of a guard's query
* `verifyKeylessGuards`: the check of the guards
-/

namespace Dbx.Grid

open Text

/-! ## Stored rows and predicates -/

/-- The locator of a stored PostgreSQL row: `tableoid`, the two parts of `ctid`, and `xmin`. -/
structure PostgresRowId where
  tableOid : Nat
  block : Nat
  offset : Nat
  xmin : Nat
  deriving DecidableEq, Repr

/-- A stored row: its cells by column name, and its locator. -/
structure StoredRow where
  cells : Text → Value
  rowId : PostgresRowId

/-- The WHERE clause of a statement: equality with a locator, `FALSE`, or the equality of columns
with values, where a column is compared to NULL by `IS NULL`. -/
inductive Predicate
  | rowId (id : PostgresRowId)
  | false
  | columns (parts : List (Text × Value))
  deriving DecidableEq, Repr

/-- What the database decides: which values of a column are equal, and what it makes of a row whose
cells an UPDATE has assigned, where it computes generated columns and writes a new row version. -/
structure Engine where
  equal : Text → Value → Value → Bool
  refresh : StoredRow → StoredRow

/-- The truth value of the comparison of one column with a value. -/
def columnTruth (engine : Engine) (row : StoredRow) (part : Text × Value) : Option Bool :=
  match part.2, row.cells part.1 with
  | .null, cell => some (cell = .null)
  | _, .null => none
  | value, cell => some (engine.equal part.1 cell value)

/-- The truth value of a predicate. -/
def Predicate.truth (engine : Engine) (row : StoredRow) : Predicate → Option Bool
  | .rowId id => some (row.rowId = id)
  | .false => some Bool.false
  | .columns parts => parts.foldr (fun part => Table.and3 (columnTruth engine row part)) (some true)

def Predicate.selects (engine : Engine) (predicate : Predicate) (row : StoredRow) : Bool :=
  predicate.truth engine row = some true

/-! ## Options -/

/-- `DataGridTableMeta` of a table without a primary key. -/
structure DataGridTableMeta where
  columns : Option (List DataGridColumnInfo)

/-- `DataGridSaveStatementOptions`, without the inserted rows and the names that only appear in the
texts of the statements. -/
structure DataGridSaveStatementOptions where
  databaseType : Option DatabaseType
  tableMeta : DataGridTableMeta
  columns : List Text
  sourceColumns : Option (List (Option Text))
  rows : List (List Value)
  dirtyRows : List (Nat × List (Nat × Value))
  deletedRows : List Nat

/-- The parts of the preparation that do not address rows: the resolution of Hive result labels,
and the checks of `validate_data_grid_save` before, between and after the two that do. -/
structure Checks where
  resolveHiveTargetColumn : DataGridTableMeta → Text → Text
  beforeLocator : DataGridSaveStatementOptions → Option Text
  lobPredicate : DataGridSaveStatementOptions → Option Text
  afterPredicate : DataGridSaveStatementOptions → Option Text

variable (checks : Checks) (options : DataGridSaveStatementOptions)

def DataGridSaveStatementOptions.columnInfo : List DataGridColumnInfo :=
  options.tableMeta.columns.getD []

/-- `effective_columns`. -/
def effectiveColumns : List (Option Text) :=
  let columns := match options.sourceColumns with
    | some sourceColumns =>
      if sourceColumns.length = options.columns.length then sourceColumns
      else options.columns.map some
    | none => options.columns.map some
  if options.databaseType = some .hive then
    columns.map (Option.map (checks.resolveHiveTargetColumn options.tableMeta))
  else columns

/-- `uses_keyless_row_predicate`. -/
def usesKeylessRowPredicate (databaseType : Option DatabaseType) : Bool :=
  [DatabaseType.mysql, .manticoreSearch, .postgres, .sqlite, .rqlite, .turso, .cloudflareD1,
    .duckDb, .sqlServer, .oracle, .doris, .starRocks, .redshift, .dameng, .gaussdb, .kwdb,
    .kingbase, .highgo, .uxdb, .gbase8c, .vastbase, .goldendb, .yashandb, .oscar, .databricks,
    .sapHana, .teradata, .vertica, .firebird, .exasol, .openGauss, .questdb, .oceanbaseOracle,
    .gbase, .gbase8s, .access, .h2, .snowflake, .db2, .informix, .bigquery, .sundb, .databend,
    .hive, .iris].any (some · = databaseType)

/-! ## Predicates of loaded rows -/

/-- A sequence of decimal digits that fits the given number of bits. -/
def parseUnsigned (bits : Nat) (text : Text) : Option Nat :=
  if text.isEmpty || !text.all Char.isDigit then none
  else
    let n := Nat.ofDigitChars 10 text 0
    if n < 2 ^ bits then some n else none

/-- `parse_postgres_ctid_row_id`. -/
def parsePostgresCtidRowId (value : Value) : Option PostgresRowId := do
  let text ← value.asStr
  let (tableOid, rest) ← splitOnce ':' text
  let tableOid ← parseUnsigned 32 tableOid
  let (ctid, xmin) ← splitOnce ':' rest
  let ctid ← (stripPrefix ['('] ctid).bind (stripSuffix [')'])
  let (block, offset) ← splitOnce ',' ctid
  let block ← parseUnsigned 32 block
  let offset ← parseUnsigned 16 offset
  let xmin ← parseUnsigned 32 xmin
  some ⟨tableOid, block, offset, xmin⟩

/-- `build_postgres_ctid_predicate`. -/
def buildPostgresCtidPredicate (value : Value) : Option Predicate :=
  (parsePostgresCtidRowId value).map Predicate.rowId

/-- `build_row_where`. -/
def buildRowWhere (row : List Value) : List (Text × Value) :=
  (effectiveColumns checks options).zipIdx.filterMap fun (column, index) =>
    column.bind fun column =>
      if isSyntheticRowId options.databaseType column then none
      else some (column, row.getD index .null)

/-- The position of the hidden locator in a grid of PostgreSQL rows. -/
def rowIdIndex : Option Nat :=
  if usesPostgresCtid options.databaseType then
    findColumnIndex options.databaseType (effectiveColumns checks options) dbxRowidColumn
  else none

/-- `build_primary_key_predicate`, for a table without a primary key. -/
def buildPrimaryKeyPredicate (row : List Value) : Predicate :=
  match rowIdIndex checks options with
  | some index => (buildPostgresCtidPredicate (row.getD index .null)).getD .false
  | none => .columns (buildRowWhere checks options row)

/-! ## Validation -/

/-- `POSTGRES_CTID_UNIDENTIFIABLE_ROW_ERROR`. -/
def postgresCtidUnidentifiableRowError : Text :=
  ("Cannot safely update or delete this PostgreSQL row because its hidden row identifier is " ++
    "missing or invalid. Refresh the table data before saving.").toList

/-- `KEYLESS_UNIDENTIFIABLE_ROW_ERROR`. -/
def keylessUnidentifiableRowError : Text :=
  ("Cannot safely update or delete this row: the table has no primary key and none of the " ++
    "result columns map to a table column, so there is no condition that can target a single " ++
    "row. Add a primary key, or edit the table directly, before saving.").toList

def touchedRows : List (List Value) :=
  (options.dirtyRows.map Prod.fst ++ options.deletedRows).filterMap (options.rows[·]?)

/-- `validate_postgres_ctid_row_identifier`. -/
def validatePostgresCtidRowIdentifier : Option Text :=
  (rowIdIndex checks options).bind fun index =>
    if (touchedRows options).any fun row => (row[index]?.bind parsePostgresCtidRowId).isNone then
      some postgresCtidUnidentifiableRowError
    else none

/-- `validate_keyless_row_predicate`. -/
def validateKeylessRowPredicate : Option Text :=
  if usesKeylessRowPredicate options.databaseType &&
      (touchedRows options).any fun row => (buildRowWhere checks options row).isEmpty then
    some keylessUnidentifiableRowError
  else none

/-- `validate_data_grid_save`. -/
def validateDataGridSave : Option Text :=
  checks.beforeLocator options <|> validatePostgresCtidRowIdentifier checks options <|>
    checks.lobPredicate options <|> validateKeylessRowPredicate checks options <|>
    checks.afterPredicate options

/-! ## Statements and guards -/

/-- What a statement does to the rows it selects. -/
inductive Change
  | update (sets : List (Text × Value))
  | delete
  deriving DecidableEq, Repr

/-- A statement of a save, with the position of the grid row it was built for. -/
structure SaveStatement where
  row : Nat
  change : Change
  predicate : Predicate
  deriving DecidableEq, Repr

/-- The row with its cells assigned. -/
def StoredRow.assign (row : StoredRow) (sets : List (Text × Value)) : StoredRow :=
  sets.foldl (fun row set => { row with cells := fun column =>
    if column = set.1 then set.2 else row.cells column }) row

/-- What the database makes of a row it changes. -/
def Change.apply (engine : Engine) : Change → StoredRow → Option StoredRow
  | .update sets, row => some (engine.refresh (row.assign sets))
  | .delete, _ => none

/-- The execution of a statement on a table. -/
def SaveStatement.onTable (ρ : Type) (engine : Engine) (statement : SaveStatement) :
    Table.Statement ρ StoredRow where
  selects := statement.predicate.selects engine
  edit _ := statement.change.apply engine

/-- The answer to the query of a guard: the number of rows a predicate selects. -/
def matchedRows {ρ : Type} (engine : Engine) (table : List (ρ × StoredRow))
    (predicate : Predicate) : Nat :=
  table.countP fun row => predicate.selects engine row.2

/-- `DataGridSaveGuard`; its query counts the rows that the predicate selects. -/
structure DataGridSaveGuard where
  predicate : Predicate
  maxMatchedRows : Nat
  minMatchedRows : Nat
  message : Text
  minMessage : Option Text

/-- `DataGridSavePreparation`. -/
structure DataGridSavePreparation where
  validationError : Option Text
  statements : List SaveStatement
  keylessGuards : List DataGridSaveGuard

/-- `is_grid_update_omitted_column`, for a table without a primary key that is not a ClickHouse
table. -/
def isGridUpdateOmittedColumn (column : Text) : Bool :=
  isSyntheticRowId options.databaseType column ||
    isNonIdentityGeneratedColumn (columnInfoFor options.columnInfo column)

/-- The assignments of an UPDATE for the changed cells of a row. -/
def updateSets (changes : List (Nat × Value)) : List (Text × Value) :=
  changes.filterMap fun (index, value) =>
    ((effectiveColumns checks options)[index]?.join).bind fun column =>
      if isGridUpdateOmittedColumn options column then none
      else if emptyStringSavesAsNull value (columnInfoFor options.columnInfo column) then
        some (column, .null)
      else some (column, value)

/-- The UPDATE of an edited row. -/
def updateStatement (dirty : Nat × List (Nat × Value)) : Option SaveStatement :=
  options.rows[dirty.1]?.bind fun row =>
    let sets := updateSets checks options dirty.2
    if sets.isEmpty then none
    else some ⟨dirty.1, .update sets, buildPrimaryKeyPredicate checks options row⟩

def deleteStatement (index : Nat) : Option SaveStatement :=
  options.rows[index]?.map fun row => ⟨index, .delete, buildPrimaryKeyPredicate checks options row⟩

/-- The statements of `build_data_grid_save_statements` for the rows that exist. -/
def buildDataGridSaveStatements : List SaveStatement :=
  options.dirtyRows.filterMap (updateStatement checks options) ++
    options.deletedRows.filterMap (deleteStatement checks options)

/-- `KEYLESS_AMBIGUOUS_ROW_ERROR`. -/
def keylessAmbiguousRowError : Text :=
  ("Cannot safely update or delete this row: the table has no primary key, so the row is " ++
    "identified by matching every column value, and more than one row in the table matches that " ++
    "condition. Add a primary key or unique index, or make the rows distinguishable, before " ++
    "editing.").toList

/-- `POSTGRES_CTID_STALE_ROW_ERROR`. -/
def postgresCtidStaleRowError : Text :=
  ("Cannot safely update or delete this PostgreSQL row: it no longer matches the physical row " ++
    "that was loaded. Another session may have changed or deleted it. Refresh the table data " ++
    "and try again.").toList

/-- `guard_predicate`: an empty predicate and one that is guarded already get no guard. -/
def guardPredicate (guarded : List Predicate) (predicate : Predicate) : List Predicate :=
  if predicate = .columns [] || guarded.contains predicate then guarded else guarded ++ [predicate]

/-- The guards of `build_data_grid_save_statements`. -/
def buildKeylessGuards : List DataGridSaveGuard :=
  let requiresMatch := (rowIdIndex checks options).isSome
  (((buildDataGridSaveStatements checks options).map (·.predicate)).foldl guardPredicate []).map
    fun predicate =>
      { predicate
        maxMatchedRows := 1
        minMatchedRows := if requiresMatch then 1 else 0
        message := keylessAmbiguousRowError
        minMessage := if requiresMatch then some postgresCtidStaleRowError else none }

/-- `prepare_data_grid_save`. -/
def prepareDataGridSave : DataGridSavePreparation :=
  match validateDataGridSave checks options with
  | some error => ⟨some error, [], []⟩
  | none => ⟨none, buildDataGridSaveStatements checks options, buildKeylessGuards checks options⟩

/-- `KEYLESS_GUARD_UNVERIFIED_ERROR`. -/
def keylessGuardUnverifiedError : Text :=
  ("Cannot safely update or delete this row: the table has no primary key, and DBX could not " ++
    "check on the server whether the row can be targeted uniquely. Add a primary key or unique " ++
    "index before editing.").toList

/-- The loop of `verifyKeylessGuards`; `none` is a count that is not a number. -/
def verifyEachGuard (count : Predicate → Option Nat) : List DataGridSaveGuard → Option Text
  | [] => none
  | guard :: guards =>
    match count guard.predicate with
    | none => some keylessGuardUnverifiedError
    | some matched =>
      if guard.maxMatchedRows < matched then some guard.message else verifyEachGuard count guards

/-- `verifyKeylessGuards`. -/
def verifyKeylessGuards (hasBackendSaveTarget : Bool) (count : Predicate → Option Nat)
    (guards : List DataGridSaveGuard) : Option Text :=
  if guards.isEmpty then none
  else if !hasBackendSaveTarget then some keylessGuardUnverifiedError
  else verifyEachGuard count guards

end Dbx.Grid
