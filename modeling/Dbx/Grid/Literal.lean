import Dbx.Grid.Columns
import Mathlib.Algebra.Group.Int.Defs

/-!
# Literals for grid cells

`format_grid_sql_literal_with_identifier_quote` writes the value of a grid cell as an SQL literal.
It is modelled for string cells. Depending on the database type and the column, the text of the cell
is converted to a bit, binary, numeric, geometry or temporal literal, and otherwise it is quoted.

## Main definitions

* `bitLiteral`, `convertedLiteral`, `wrappedLiteral`: the conversions to literals, in the order in
  which they are tried
* `literalText`, `quoteLiteral`: the text that is quoted, and its quoting
* `formatGridSqlLiteral`: the literal of a string cell, `none` where the formatter panics
-/

namespace Dbx.Grid

open Text
open Char (isDigit)

/-- The parts of the formatter that depend on the machine or on another module: the offset of the
local time zone at a time, and the normalization of SQL Server temporal texts. -/
structure LiteralContext where
  localTimezoneOffsetSuffix : Text → Text
  normalizeSqlserverTemporalLiteral : Text → Option Text → Option Text

/-! ## Column types -/

/-- The lower-case type name of a column up to a first separator. -/
def typeBase (separators : List Char) (dataType : Text) : Text :=
  (toAsciiLowercase (trim dataType)).takeWhile fun c => !separators.contains c

/-- The base of the type name is one of the names. -/
def baseIsOneOf (dataType : Text) (names : List String) : Bool :=
  names.any (·.toList = trim (typeBase ['(', ':', ' '] dataType))

def typeTokens (dataType : Text) : List Text :=
  splitOn (fun c => !c.isAlphanum) (toAsciiLowercase dataType)

/-- `is_bit_column_type`. -/
def isBitColumnType (dataType : Text) : Bool :=
  (typeTokens dataType).any fun token => token = "bit".toList || token = "bitn".toList

/-- `is_sized_numeric_token`. -/
def isSizedNumericToken (token : Text) : Bool :=
  ["int", "uint", "float"].any fun name =>
    (stripPrefix name.toList token).any fun width => !width.isEmpty && width.all isDigit

/-- `is_numeric_type`. -/
def isNumericType (dataType : Text) : Bool :=
  (typeTokens dataType).any fun token =>
    ["int", "integer", "bigint", "smallint", "tinyint", "mediumint", "serial", "number", "numeric",
      "decimal", "float", "double", "real", "money"].any (·.toList = token) ||
    isSizedNumericToken token

/-- `is_boolean_type`, of a type that is not PostgreSQL's. -/
def isBooleanType (dataType : Text) : Bool :=
  (typeTokens dataType).any fun token =>
    ["bool", "boolean", "bit", "bitn"].any (·.toList = token)

/-- `is_geometry_column_type`. -/
def isGeometryColumnType (dataType : Text) : Bool :=
  let base := trim ((toAsciiLowercase dataType).takeWhile (· ≠ '('))
  ["geometry", "point", "linestring", "polygon", "multipoint", "multilinestring", "multipolygon",
    "geometrycollection"].any (·.toList = base)

/-- The kinds of `temporal_column_kind`. -/
inductive TemporalKind
  | date
  | time
  | datetime
  deriving DecidableEq, Repr

/-- `temporal_column_kind`. -/
def temporalColumnKind (dataType : Option Text) : Option TemporalKind :=
  let base := typeBase ['(', ':', ' '] (dataType.getD [])
  if base = "date".toList then some .date
  else if base = "time".toList then some .time
  else if base = "datetime".toList || base = "timestamp".toList then some .datetime
  else none

/-- `OracleTemporalKind`. -/
inductive OracleTemporalKind
  | date
  | timestamp
  | timestampWithTimeZone
  deriving DecidableEq, Repr

/-- `oracle_temporal_column_kind`. -/
def oracleTemporalColumnKind (dataType : Text) : Option OracleTemporalKind :=
  let lower := toAsciiLowercase (trim dataType)
  let base := typeBase ['(', ' '] dataType
  if base = "date".toList then some .date
  else if base = "timestamp".toList then
    if containsText lower "with time zone".toList ||
        containsText lower "with local time zone".toList then some .timestampWithTimeZone
    else some .timestamp
  else none

/-- `is_mysql_datetime_literal_database`, which lists the same types as
`is_mysql_geometry_literal_database`. -/
def isMysqlDatetimeLiteralDatabase (databaseType : Option DatabaseType) : Bool :=
  [DatabaseType.mysql, .doris, .starRocks, .goldendb, .sundb].any (some · = databaseType)

/-- `is_oracle_temporal_literal_database`. -/
def isOracleTemporalLiteralDatabase (databaseType : Option DatabaseType) : Bool :=
  [DatabaseType.oracle, .oceanbaseOracle].any (some · = databaseType)

/-! ## Bit literals -/

/-- The bits of a text such as `b'101'`. The slice behind the opening quote panics, which is `none`
here, where the opening quote is the closing one as well. -/
def prefixedBits (trimmed : Text) : Option (Option Text) :=
  if "b'".toList.isPrefixOf (toAsciiLowercase trimmed) && "'".toList.isSuffixOf trimmed then
    if trimmed.length < 3 then none
    else
      let bits := (trimmed.drop 2).dropLast
      if !bits.isEmpty && bits.all fun c => c = '0' || c = '1' then
        some (some ("b'".toList ++ bits ++ "'".toList))
      else some none
  else some none

/-- `format_mysql_bit_literal_text`. -/
def formatMysqlBitLiteralText (text : Text) : Option (Option Text) :=
  let trimmed := trim text
  if eqIgnoreAsciiCase trimmed "true".toList then some (some ['1'])
  else if eqIgnoreAsciiCase trimmed "false".toList then some (some ['0'])
  else if trimmed.all isDigit && !trimmed.isEmpty then
    if trimmed.length ≠ 1 && trimmed.all fun c => c = '0' || c = '1' then
      some (some ("b'".toList ++ trimmed ++ "'".toList))
    else some (some trimmed)
  else prefixedBits trimmed

/-- `format_kingbase_bit_literal_text`. -/
def formatKingbaseBitLiteralText (text : Text) : Option (Option Text) :=
  let trimmed := trim text
  if eqIgnoreAsciiCase trimmed "true".toList then some (some "b'1'".toList)
  else if eqIgnoreAsciiCase trimmed "false".toList then some (some "b'0'".toList)
  else if !trimmed.isEmpty && trimmed.all fun c => c = '0' || c = '1' then
    some (some ("b'".toList ++ trimmed ++ "'".toList))
  else prefixedBits trimmed

variable (context : LiteralContext) (databaseType : Option DatabaseType)
  (columnInfo : Option DataGridColumnInfo)

/-- A property of the type of the column; a column without metadata has none. -/
def columnTypeIs (p : Text → Bool) : Bool := columnInfo.any fun column => p column.dataType

/-- The bit literal of a text: first for a Kingbase column, and then for a MySQL one or one of a
Kingbase connection that quotes identifiers as MySQL does. -/
def bitLiteral (identifierQuote : Option Text) (text : Text) : Option (Option Text) :=
  let isBit := columnTypeIs columnInfo isBitColumnType
  let kingbase :=
    if databaseType = some .kingbase && isBit then formatKingbaseBitLiteralText text else some none
  kingbase.bind fun
    | some literal => some (some literal)
    | none =>
      if (isMysqlDatetimeLiteralDatabase databaseType ||
          databaseType = some .kingbase && identifierQuote = some ['\x60']) && isBit then
        formatMysqlBitLiteralText text
      else some none

/-! ## Binary and numeric literals -/

/-- What follows a prefix `0x`. -/
def stripHexPrefix (text : Text) : Option Text :=
  stripPrefix "0x".toList text <|> stripPrefix "0X".toList text

/-- The value of a hexadecimal digit. -/
def hexDigitValue (c : Char) : Nat :=
  if c.isDigit then c.toNat - '0'.toNat
  else if 'a' ≤ c then c.toNat - 'a'.toNat + 10
  else c.toNat - 'A'.toNat + 10

/-- The characters whose codes are the given pairs of digits. -/
def decodeHexPairs : Text → Text
  | a :: b :: rest => Char.ofNat (16 * hexDigitValue a + hexDigitValue b) :: decodeHexPairs rest
  | _ => []

/-- The characters of a UUID text, with its hyphens at their places. -/
def isUuidText (text : Text) : Bool :=
  text.zipIdx.all fun (c, index) =>
    if [8, 13, 18, 23].contains index then c = '-' else isHexDigit c

/-- The digits of a UUID with hyphens between its groups. -/
def groupUuid (digits : Text) : Text :=
  digits.take 8 ++ '-' :: (digits.drop 8).take 4 ++ '-' :: (digits.drop 12).take 4 ++
    '-' :: (digits.drop 16).take 4 ++ '-' :: digits.drop 20

/-- `format_hex_uuid_literal`. -/
def formatHexUuidLiteral (text : Text) : Option Text := do
  let hex ← stripHexPrefix (trim text)
  if hex.length = 72 && hex.all isHexDigit && isUuidText (decodeHexPairs hex) then
    some ('\'' :: decodeHexPairs hex ++ ['\''])
  else if hex.length = 32 && hex.all isHexDigit then
    some ('\'' :: groupUuid (toAsciiLowercase hex) ++ ['\''])
  else none

/-- `format_mysql_binary_literal_text`. -/
def formatMysqlBinaryLiteralText (text : Text) : Option Text := do
  let trimmed := trim text
  let hex ← stripPrefix "0x".toList trimmed
  if hex.all isHexDigit then some (if hex.isEmpty then "X''".toList else trimmed) else none

/-- `format_sqlserver_binary_literal_text`. -/
def formatSqlserverBinaryLiteralText (text : Text) : Option Text := do
  let hex ← stripHexPrefix (trim text)
  if hex.length % 2 = 0 && hex.all isHexDigit then some ("0x".toList ++ hex) else none

/-- `format_postgres_binary_literal_text`. -/
def formatPostgresBinaryLiteralText (text : Text) : Option Text := do
  let hex ← stripHexPrefix (trim text)
  if hex.length % 2 = 0 && hex.all isHexDigit then
    some ("decode('".toList ++ hex ++ "', 'hex')".toList)
  else none

/-- `format_oracle_raw_literal_text`. -/
def formatOracleRawLiteralText (text : Text) : Option Text := do
  let hex ← stripPrefix "0x".toList text
  if hex.length % 2 = 0 && hex.all isHexDigit then
    some ("HEXTORAW('".toList ++ hex ++ "')".toList)
  else none

/-- The text without a sign. -/
def dropSign : Text → Text
  | '+' :: rest | '-' :: rest => rest
  | text => text

/-- `parse::<i64>`. -/
def parseI64 (text : Text) : Option Int :=
  let digits := dropSign text
  if digits.isEmpty || !digits.all isDigit then none
  else
    let magnitude : Int := Nat.ofDigitChars 10 digits 0
    let value := if text.head? = some '-' then -magnitude else magnitude
    if -2 ^ 63 ≤ value ∧ value < 2 ^ 63 then some value else none

/-- `i64::to_string`. -/
def showI64 : Int → Text
  | .ofNat n => Nat.toDigits 10 n
  | .negSucc n => '-' :: Nat.toDigits 10 (n + 1)

/-- The parts of a decimal number without a sign: its digits before and behind the point, and the
text of its exponent, which is empty or starts with `e`. -/
structure DecimalParts where
  integer : Text
  fraction : Text
  exponent : Text

/-- The parts of a decimal text without a sign. -/
def decimalParts (text : Text) : DecimalParts :=
  let rest := text.dropWhile isDigit
  match rest with
  | '.' :: rest => ⟨text.takeWhile isDigit, rest.takeWhile isDigit,
      rest.dropWhile isDigit⟩
  | _ => ⟨text.takeWhile isDigit, [], rest⟩

/-- The exponent of a decimal text: none, or digits with a sign. -/
def isExponent : Text → Bool
  | [] => true
  | c :: rest => (c = 'e' || c = 'E') && !(dropSign rest).isEmpty &&
      (dropSign rest).all isDigit

/-- The value of an exponent. -/
def exponentValue (exponent : Text) : Int :=
  let magnitude : Int := Nat.ofDigitChars 10 (dropSign (exponent.drop 1)) 0
  if (exponent.drop 1).head? = some '-' then -magnitude else magnitude

/-- A decimal number that `f64` rounds to a finite one: its value is below the middle between the
largest finite number and the next power of two. -/
def isFiniteF64 (parts : DecimalParts) : Bool :=
  let mantissa := Nat.ofDigitChars 10 (parts.integer ++ parts.fraction) 0
  let scale := exponentValue parts.exponent - parts.fraction.length
  mantissa * 10 ^ scale.toNat < (2 ^ 1024 - 2 ^ 970) * 10 ^ (-scale).toNat

/-- `is_numeric_literal`: the decimal texts that `f64` parses as a finite number. The names `inf`
and `nan`, which it parses as well, have other letters than `e` and `E`. -/
def isNumericLiteral (text : Text) : Bool :=
  let parts := decimalParts (dropSign text)
  (!parts.integer.isEmpty || !parts.fraction.isEmpty) && isExponent parts.exponent &&
    isFiniteF64 parts

/-- `manticore_typed_attribute_value`, of a text that is not a numeric literal of a numeric column,
which has been formatted before. -/
def manticoreTypedAttributeValue (text : Text) : Option Bool :=
  if columnTypeIs columnInfo isBooleanType then
    if eqIgnoreAsciiCase text "true".toList then some true
    else if eqIgnoreAsciiCase text "false".toList then some false
    else none
  else none

/-- The literal of a boolean for a Manticore column. -/
def formatManticoreBool (b : Bool) : Text :=
  if columnTypeIs columnInfo isBitColumnType then if b then ['1'] else ['0']
  else if b then "TRUE".toList else "FALSE".toList

/-- `is_sqlserver_binary_literal_column`, of the type. -/
def isSqlserverBinaryType (dataType : Text) : Bool :=
  let normalized := toAsciiLowercase (trimMatches (· = '"') (trim dataType))
  let base := normalized.takeWhile fun c => !(['(', ' ', '\t', '\n'].contains c)
  ["binary", "varbinary", "timestamp", "rowversion"].any (·.toList = base)

/-- A conversion that applies to some columns only. -/
def convertWhen (applies : Bool) (convert : Text → Option Text) (text : Text) : Option Text :=
  if applies then convert text else none

/-- The conversions that come before the check for an empty text, in their order. -/
def convertedLiteral (text : Text) : Option Text :=
  let column p := columnTypeIs columnInfo p
  convertWhen (databaseType = some .iotdb && column fun dataType => eqIgnoreAsciiCase
        ((trim dataType).takeWhile fun c => !(['(', ' '].contains c)) "timestamp".toList)
    (fun text => (parseI64 text).map showI64) text <|>
  convertWhen (column (baseIsOneOf · ["uuid", "uniqueidentifier"])) formatHexUuidLiteral text <|>
  convertWhen (databaseType = some .mysql &&
      column (baseIsOneOf · ["binary", "varbinary", "blob", "tinyblob", "mediumblob", "longblob"]))
    formatMysqlBinaryLiteralText text <|>
  convertWhen (databaseType = some .sqlServer && column isSqlserverBinaryType)
    formatSqlserverBinaryLiteralText text <|>
  convertWhen (databaseType = some .postgres &&
      column fun dataType => eqIgnoreAsciiCase (trim dataType) "bytea".toList)
    formatPostgresBinaryLiteralText text <|>
  convertWhen (isOracleTemporalLiteralDatabase databaseType &&
      column fun dataType => eqIgnoreAsciiCase
        ((trim dataType).takeWhile fun c => !(['(', ':', ' '].contains c)) "raw".toList)
    formatOracleRawLiteralText text <|>
  convertWhen (column isNumericType && isNumericLiteral text) some text <|>
  convertWhen (databaseType = some .manticoreSearch)
    (fun text => (manticoreTypedAttributeValue columnInfo text).map
      (formatManticoreBool columnInfo))
    text

/-! ## Temporal texts -/

/-- `Rfc3339Parts`. -/
structure Rfc3339Parts where
  date : Text
  time : Text
  fraction : Option Text
  zone : Text
  deriving DecidableEq, Repr

/-- `is_timezone_offset`. -/
def isTimezoneOffset : Text → Bool
  | [sign, h₁, h₂, colon, m₁, m₂] =>
    (sign = '+' || sign = '-') && colon = ':' && [h₁, h₂, m₁, m₂].all isDigit
  | _ => false

/-- A text starts with a date and a time of day: the parts are cut by byte offsets, and only the
separators between them are checked. -/
def splitDateTime (text : Text) : Option (Text × Text × Text) := do
  if charAtByte 4 text ≠ some '-' || charAtByte 7 text ≠ some '-' then none
  else if charAtByte 10 text ≠ some 'T' && charAtByte 10 text ≠ some ' ' then none
  else if charAtByte 13 text ≠ some ':' || charAtByte 16 text ≠ some ':' then none
  else
    let (date, rest) ← splitAtByte 10 text
    let (time, rest) ← splitAtByte 8 (rest.drop 1)
    some (date, time, rest)

/-- The fraction of a second at the start of a text, with its point, and what follows it. -/
def splitFraction : Text → Option (Option Text × Text)
  | '.' :: rest =>
    let digits := rest.takeWhile isDigit
    if digits.length = 0 || 9 < digits.length then none
    else some (some ('.' :: digits), rest.dropWhile isDigit)
  | rest => some (none, rest)

/-- `regex_like_rfc3339`. -/
def regexLikeRfc3339 (text : Text) : Option Rfc3339Parts := do
  if byteLen text < 20 then none
  else
    let (date, time, rest) ← splitDateTime text
    let (fraction, zone) ← splitFraction rest
    if zone = ['Z'] || zone = ['z'] || isTimezoneOffset zone then some ⟨date, time, fraction, zone⟩
    else none

/-- `regex_like_local_datetime`. -/
def regexLikeLocalDatetime (text : Text) : Option Rfc3339Parts := do
  if byteLen text = 10 && charAtByte 4 text = some '-' && charAtByte 7 text = some '-' then
    some ⟨text, "00:00:00".toList, none, []⟩
  else if byteLen text < 19 then none
  else
    let (date, time, rest) ← splitDateTime text
    match rest with
    | '.' :: digits =>
      if digits.isEmpty || 9 < digits.length || !digits.all isDigit then none
      else some ⟨date, time, some ('.' :: digits), []⟩
    | [] => some ⟨date, time, none, []⟩
    | _ => none

def rsplitOnceBlank (text : Text) : Option (Text × Text) :=
  (splitOnce ' ' text.reverse).map fun parts => (parts.2.reverse, parts.1.reverse)

/-- The zone behind an Oracle temporal text, where the hour may have one digit. -/
def normalizedZone (zone : Text) : Option Text :=
  if isTimezoneOffset zone then some zone
  else
    match zone with
    | [sign, h, colon, m₁, m₂] =>
      if (sign = '+' || sign = '-') && colon = ':' && [h, m₁, m₂].all isDigit then
        some [sign, '0', h, ':', m₁, m₂]
      else none
    | _ => none

/-- `regex_like_oracle_temporal`. -/
def regexLikeOracleTemporal (text : Text) : Option Rfc3339Parts :=
  match regexLikeRfc3339 text with
  | some parts => some parts
  | none =>
    match (rsplitOnceBlank text).bind fun parts => (normalizedZone parts.2).map (parts.1, ·) with
    | some (datetime, zone) => (regexLikeLocalDatetime datetime).map ({ · with zone })
    | none => regexLikeLocalDatetime text

/-- `oracle_temporal_parts_are_midnight`. -/
def oracleTemporalPartsAreMidnight (parts : Rfc3339Parts) : Bool :=
  parts.time = "00:00:00".toList &&
    parts.fraction.all fun fraction => (fraction.dropWhile (· = '.')).all (· = '0')

/-- `oracle_timestamp_format_mask`. -/
def oracleTimestampFormatMask (hasFraction : Bool) : Text :=
  if hasFraction then "YYYY-MM-DD HH24:MI:SS.FF".toList else "YYYY-MM-DD HH24:MI:SS".toList

/-- `oracle_timezone_suffix`. -/
def oracleTimezoneSuffix (zone : Text) : Text :=
  if eqIgnoreAsciiCase zone ['z'] then "+00:00".toList else zone

/-- A call of a conversion function with a text and a format mask. -/
def oracleConversion (name text mask : Text) : Text :=
  name ++ "('".toList ++ text ++ "', '".toList ++ mask ++ "')".toList

/-- The literal of the parts of an Oracle temporal text. -/
def oracleTemporalLiteral (kind : OracleTemporalKind) (parts : Rfc3339Parts) : Text :=
  let datetime := parts.date ++ ' ' :: parts.time ++ parts.fraction.getD []
  let mask := oracleTimestampFormatMask (datetime.contains '.')
  match kind with
  | .date =>
    if oracleTemporalPartsAreMidnight parts then "DATE '".toList ++ parts.date ++ "'".toList
    else oracleConversion "TO_DATE".toList (parts.date ++ ' ' :: parts.time)
      "YYYY-MM-DD HH24:MI:SS".toList
  | .timestamp => oracleConversion "TO_TIMESTAMP".toList datetime mask
  | .timestampWithTimeZone =>
    if parts.zone.isEmpty then oracleConversion "TO_TIMESTAMP".toList datetime mask
    else oracleConversion "TO_TIMESTAMP_TZ".toList
      (datetime ++ ' ' :: oracleTimezoneSuffix parts.zone) (mask ++ " TZH:TZM".toList)

/-- `format_oracle_temporal_literal`. -/
def formatOracleTemporalLiteral (text : Text) (dataType : Option Text) : Option Text := do
  let kind ← dataType.bind oracleTemporalColumnKind
  let parts ← regexLikeOracleTemporal text
  some (oracleTemporalLiteral kind parts)

/-- `format_mysql_temporal_literal_text`. -/
def formatMysqlTemporalLiteralText (text : Text) (dataType : Option Text) : Text :=
  match regexLikeRfc3339 text with
  | none => text
  | some parts =>
    let fraction := (parts.fraction.getD []).take 7
    match temporalColumnKind dataType with
    | some .date => parts.date
    | some .time => parts.time ++ fraction
    | _ => parts.date ++ ' ' :: parts.time ++ fraction

/-- `parse_tdengine_timestamp`. -/
def parseTdengineTimestamp (text : Text) : Option (Text × Text × Option Text) := do
  if byteLen text < 19 || charAtByte 10 text ≠ some ' ' then none
  else
    let (date, time, rest) ← splitDateTime text
    match rest with
    | [] => some (date, time, none)
    | '.' :: fraction =>
      if fraction.isEmpty || 9 < byteLen fraction || !fraction.all isDigit then none
      else some (date, time, some ('.' :: fraction))
    | _ => none

/-- `normalize_fractional_seconds`. -/
def normalizeFractionalSeconds : Option Text → Text
  | some fraction => fraction.take 4 ++ List.replicate (4 - fraction.length) '0'
  | none => ".000".toList

/-- `format_tdengine_timestamp_literal_text`. -/
def formatTdengineTimestampLiteralText (text : Text) : Text :=
  match parseTdengineTimestamp text with
  | none => text
  | some (date, time, fraction) =>
    date ++ 'T' :: time ++ normalizeFractionalSeconds fraction ++
      context.localTimezoneOffsetSuffix text

/-! ## Quoting -/

/-- The conversions of a text that is not empty into a call: a geometry, or an Oracle temporal
literal. -/
def wrappedLiteral (text : Text) : Option Text :=
  convertWhen (isMysqlDatetimeLiteralDatabase databaseType &&
      columnTypeIs columnInfo isGeometryColumnType)
    (fun text => some ("ST_GeomFromText('".toList ++
      replaceChar '\'' "''".toList (replaceChar '\\' "\\\\".toList text) ++ "')".toList)) text <|>
  convertWhen (isOracleTemporalLiteralDatabase databaseType)
    (formatOracleTemporalLiteral · (columnInfo.map (·.dataType))) text

/-- The text that is quoted. -/
def literalText (text : Text) : Text :=
  let dataType := columnInfo.map (·.dataType)
  if databaseType = some .tdengine then formatTdengineTimestampLiteralText context text
  else if databaseType = some .sqlServer then
    (context.normalizeSqlserverTemporalLiteral text dataType).getD text
  else if isMysqlDatetimeLiteralDatabase databaseType &&
      columnInfo.all fun column => (temporalColumnKind (some column.dataType)).isSome then
    formatMysqlTemporalLiteralText text dataType
  else text

/-- The substitute character, which some consoles read as the end of a file. -/
def subControl : Char := Char.ofNat 0x1A

/-- `escape_grid_sub_control` with the escape of `grid_sub_control_escape`. -/
def escapeGridSubControl (text : Text) : Text :=
  let escape subEscape := replaceChar subControl subEscape
    (replaceChar (Char.ofNat 0) "\\0".toList text)
  match databaseType with
  | some .mysql | some .doris | some .starRocks | some .goldendb => escape "\\Z".toList
  | some .clickHouse | some .snowflake => escape "\\x1a".toList
  | _ => text

/-- `is_sqlite_literal_database`. -/
def isSqliteLiteralDatabase : Bool :=
  [DatabaseType.sqlite, .rqlite, .turso, .cloudflareD1].any (some · = databaseType)

/-- `keeps_literal_backslashes`. -/
def keepsLiteralBackslashes : Bool :=
  [DatabaseType.oracle, .oceanbaseOracle, .dameng, .yashandb, .oscar, .xugu, .gaussdb, .openGauss,
    .kingbase, .highgo, .uxdb, .vastbase, .gbase8c, .kwdb].any (some · = databaseType)

/-- The escaped text of a literal that is neither a PostgreSQL escape string nor an SQL Server
literal. -/
def escapeText (text : Text) : Text :=
  if databaseType = some .neo4j then
    replaceChar '\'' "\\'".toList (replaceChar '\\' "\\\\".toList text)
  else if isSqliteLiteralDatabase databaseType || keepsLiteralBackslashes databaseType then
    replaceChar '\'' "''".toList text
  else
    escapeGridSubControl databaseType
      (replaceChar '\'' "''".toList (replaceChar '\\' "\\\\".toList text))

/-- A part of an SQL Server literal: a line break by its code, or a text without one. -/
def sqlserverPart (part : Text) : Text :=
  match part with
  | ['\r'] => "NCHAR(13)".toList
  | ['\n'] => "NCHAR(10)".toList
  | segment => "N'".toList ++ replaceChar '\'' "''".toList segment ++ "'".toList

/-- The loop of `format_sqlserver_unicode_literal`: the segments of a text between its line breaks,
which are parts of their own; empty segments are left out. -/
def sqlserverParts (segment : Text) : Text → List Text
  | [] => if segment.isEmpty then [] else [segment]
  | c :: rest =>
    if c = '\r' || c = '\n' then
      (if segment.isEmpty then [] else [segment]) ++ [c] :: sqlserverParts [] rest
    else sqlserverParts (segment ++ [c]) rest

def utf16Len (text : Text) : Nat := (text.map fun c => if c.toNat < 0x10000 then 1 else 2).sum

/-- `format_sqlserver_unicode_literal`. -/
def formatSqlserverUnicodeLiteral (text : Text) : Text :=
  let parts := (sqlserverParts [] text).map sqlserverPart
  if parts.isEmpty then "N''".toList
  else
    let anchor := if 1 < parts.length && 4000 < utf16Len text then
      ["CAST(N'' AS NVARCHAR(MAX))".toList] else []
    List.intercalate " + ".toList (anchor ++ parts)

/-- The quoting of a text. -/
def quoteLiteral (text : Text) : Text :=
  if databaseType = some .postgres && (text.contains '\\' || text.contains subControl) then
    "E'".toList ++ replaceChar subControl "\\x1A".toList
      (replaceChar '\'' "''".toList (replaceChar '\\' "\\\\".toList text)) ++ "'".toList
  else if databaseType = some .sqlServer then formatSqlserverUnicodeLiteral text
  else '\'' :: escapeText databaseType text ++ ['\'']

/-- The literal of a text that is not a bit literal. -/
def formatText (text : Text) : Text :=
  match convertedLiteral databaseType columnInfo text with
  | some literal => literal
  | none =>
    if text.isEmpty then if databaseType = some .sqlServer then "N''".toList else "''".toList
    else
      match wrappedLiteral databaseType columnInfo text with
      | some literal => literal
      | none => quoteLiteral databaseType (literalText context databaseType columnInfo text)

/-- `format_grid_sql_literal_with_identifier_quote`, of a string cell. -/
def formatGridSqlLiteral (identifierQuote : Option Text) (text : Text) : Option Text :=
  (bitLiteral databaseType columnInfo identifierQuote text).map fun bit =>
    bit.getD (formatText context databaseType columnInfo text)

end Dbx.Grid
