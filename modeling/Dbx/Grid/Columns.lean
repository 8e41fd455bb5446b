import Dbx.Sql.Profile

/-!
# Grid cells and columns

The values a data grid holds, and what the grid knows about the columns of the table it shows.

## Main definitions

* `Value`: a cell
* `DataGridColumnInfo`, `columnInfoFor`: the metadata of a column, and its lookup by name
* `usesSyntheticRowId`, `isSyntheticRowId`: the column that carries a hidden row locator
* `findColumnIndex`: the position of a column in the grid
-/

namespace Dbx.Grid

open Text

/-- A cell of the grid: a JSON value, numbers and structured values by their text. -/
inductive Value
  | null
  | bool (b : Bool)
  | number (text : Text)
  | string (text : Text)
  | structured (text : Text)
  deriving DecidableEq, Repr

/-- `Value::as_str`. -/
def Value.asStr : Value → Option Text
  | .string text => some text
  | _ => none

/-- `DataGridColumnInfo`, with the fields that are read here. -/
structure DataGridColumnInfo where
  name : Text
  dataType : Text
  isNullable : Bool
  extra : Option Text
  deriving DecidableEq, Repr

/-- `normalize_column_name`. -/
def normalizeColumnName (name : Text) : Text := toAsciiUppercase name

/-- `column_info_for`. -/
def columnInfoFor (columns : List DataGridColumnInfo) (name : Text) : Option DataGridColumnInfo :=
  columns.find? fun column => normalizeColumnName column.name = normalizeColumnName name

/-- `is_non_identity_generated_column`. -/
def isNonIdentityGeneratedColumn (columnInfo : Option DataGridColumnInfo) : Bool :=
  let extra := toAsciiLowercase ((columnInfo.bind (·.extra)).getD [])
  (containsText extra "generated always as".toList ||
      containsText extra "virtual generated".toList ||
      containsText extra "stored generated".toList) &&
    !containsText extra "identity".toList

/-- The names `is_textual_column_type` lists. -/
def textualColumnTypes : List String :=
  ["char", "character", "varchar", "varchar2", "nvarchar", "nvarchar2", "nchar", "string", "text",
    "tinytext", "mediumtext", "longtext", "ntext", "clob", "nclob", "enum", "set"]

/-- The part of a type name before its first parenthesis, colon or blank. -/
def baseType (lower : Text) : Text := lower.takeWhile fun c => !(['(', ':', ' '].contains c)

/-- `is_textual_column_type`. -/
def isTextualColumnType (dataType : Text) : Bool :=
  let lower := toAsciiLowercase (trim dataType)
  let base := trim (baseType lower)
  textualColumnTypes.any (·.toList = base) || "character varying".toList.isPrefixOf lower ||
    "national character varying".toList.isPrefixOf lower

/-- `empty_string_saves_as_null`. -/
def emptyStringSavesAsNull (value : Value) (columnInfo : Option DataGridColumnInfo) : Bool :=
  value.asStr = some [] &&
    columnInfo.any fun column => column.isNullable && !isTextualColumnType column.dataType

/-! ## Row locators -/

/-- `DBX_ROWID_COLUMN`. -/
def dbxRowidColumn : Text := "__DBX_ROWID".toList

/-- `uses_oracle_row_id`. -/
def usesOracleRowId (databaseType : Option DatabaseType) : Bool :=
  databaseType = some .oracle || databaseType = some .oceanbaseOracle

/-- `uses_postgres_ctid`. -/
def usesPostgresCtid (databaseType : Option DatabaseType) : Bool := databaseType = some .postgres

/-- `uses_synthetic_row_id`. -/
def usesSyntheticRowId (databaseType : Option DatabaseType) : Bool :=
  usesOracleRowId databaseType || usesPostgresCtid databaseType || databaseType = some .xugu

/-- `is_synthetic_row_id`. -/
def isSyntheticRowId (databaseType : Option DatabaseType) (name : Text) : Bool :=
  usesSyntheticRowId databaseType && eqIgnoreAsciiCase name dbxRowidColumn

/-- The types whose result labels may differ from the stored names in letter case. -/
def foldsColumnCase (databaseType : Option DatabaseType) : Bool :=
  [DatabaseType.goldendb, .kingbase, .tdengine, .hive, .vastbase].any (some · = databaseType)

/-- `find_column_index`. -/
def findColumnIndex (databaseType : Option DatabaseType) (columns : List (Option Text))
    (target : Text) : Option Nat :=
  match columns.findIdx? (· = some target) with
  | some index => some index
  | none =>
    if !foldsColumnCase databaseType then none
    else
      let isMatch column := (column.map normalizeColumnName).getD [] = normalizeColumnName target
      if columns.countP (isMatch ·) = 1 then columns.findIdx? (isMatch ·) else none

end Dbx.Grid
