import Dbx.Text.Basic

/-!
# SQL dialect profiles

What the SQL scanners know about the dialect of a database type: which comments, strings and
identifiers it has, and which statements keep their inner semicolons.

## Main definitions

* `DatabaseType`: the database types
* `SqlDialectProfile`: the features of a dialect
* `SqlDialectProfile.forDatabaseType`: the profile of a database type
* `Unicode`: the character properties that are not determined by ASCII
-/

namespace Dbx

/-- The database types of the connection descriptors under `plugins/connection-types`, in the order
of the descriptors. -/
inductive DatabaseType
  | mysql | postgres | sqlite | rqlite | turso | cloudflareD1 | redis | duckDb | clickHouse
  | sqlServer | mongoDb | dynamoDb | oracle | elasticsearch | easysearch | meilisearch | solr
  | couchDb | hbase | qdrant | chromaDb | milvus | weaviate | doris | starRocks
  | manticoreSearch | redshift | dameng | kingbase | highgo | uxdb | vastbase | goldendb
  | databend | gaussdb | kwdb | yashandb | databricks | sapHana | teradata | vertica | firebird
  | exasol | openGauss | questdb | oceanbaseOracle | gbase | gbase8s | gbase8c | access | h2
  | snowflake | trino | prestoSql | hive | argo | transwarp | kyuubi | impala | db2 | informix
  | neo4j | nebula | cassandra | bigquery | spanner | kylin | ignite | ignite3 | sundb | oscar
  | tdengine | xugu | etcd | zooKeeper | nacos | consul | messageQueue | mqtt | iotdb | iris
  | influxDb | influxDb3 | victoriaMetrics | jdbc | spark | plugin | salesforce
  deriving DecidableEq, Repr

namespace Sql

/-- `SqlDialectProfile`; the values given here are those of its `Default`. -/
structure SqlDialectProfile where
  supportsHashLineComments : Bool := false
  supportsBacktickIdentifiers : Bool := true
  supportsNestedBlockComments : Bool := false
  supportsBackslashEscapedQuotes : Bool := true
  supportsPostgresEscapeStrings : Bool := false
  supportsOracleQQuotes : Bool := false
  supportsOraclePlsqlBlocks : Bool := false
  supportsOracleStyleRoutineBodies : Bool := false
  supportsSlashLineBlockDelimiter : Bool := false
  supportsCustomDelimiterCommands : Bool := true
  supportsMysqlRoutineBlocks : Bool := false
  supportsDollarQuotedStrings : Bool := true
  supportsPostgresDollarQuotedRoutines : Bool := false
  supportsHanaScriptBlocks : Bool := false
  supportsFirebirdRoutineBlocks : Bool := false
  supportsGoBatchSeparator : Bool := false
  keepsSqlserverModuleBatchAtCursor : Bool := false
  keepsSqlserverControlFlowBatches : Bool := false
  preservesTdsqlLeadingDirectives : Bool := false
  requiresWhitespaceAfterLineCommentDashes : Bool := false
  supportsPsqlControlCommands : Bool := false
  deriving DecidableEq, Repr

namespace SqlDialectProfile

/-- `mysql_compatible`. -/
def mysqlCompatible : SqlDialectProfile where
  supportsHashLineComments := true
  supportsBackslashEscapedQuotes := true
  supportsMysqlRoutineBlocks := true
  requiresWhitespaceAfterLineCommentDashes := true

/-- `oracle_like`. -/
def oracleLike : SqlDialectProfile where
  supportsBackslashEscapedQuotes := false
  supportsOraclePlsqlBlocks := true
  supportsOracleQQuotes := true
  supportsSlashLineBlockDelimiter := true

/-- `postgres_family`. -/
def postgresFamily : SqlDialectProfile where
  supportsBackslashEscapedQuotes := false
  supportsNestedBlockComments := true
  supportsOracleStyleRoutineBodies := true
  supportsPostgresEscapeStrings := true
  supportsSlashLineBlockDelimiter := true
  supportsPsqlControlCommands := true

/-- `gaussdb`. -/
def gaussdb : SqlDialectProfile :=
  { oracleLike with
    supportsBackslashEscapedQuotes := false
    supportsNestedBlockComments := true
    supportsPostgresDollarQuotedRoutines := true
    supportsPostgresEscapeStrings := true
    supportsPsqlControlCommands := true }

/-- `sql_server`. -/
def sqlServer : SqlDialectProfile where
  supportsGoBatchSeparator := true
  keepsSqlserverModuleBatchAtCursor := true
  keepsSqlserverControlFlowBatches := true
  supportsNestedBlockComments := true

/-- `sap_hana`. -/
def sapHana : SqlDialectProfile where
  supportsHanaScriptBlocks := true

/-- `firebird`. -/
def firebird : SqlDialectProfile where
  supportsBackslashEscapedQuotes := false
  supportsFirebirdRoutineBlocks := true

/-- The profile of the types in `is_postgres_string_lexer_database`. -/
def postgresStringLexer : SqlDialectProfile where
  supportsBackslashEscapedQuotes := false
  supportsNestedBlockComments := true
  supportsPostgresEscapeStrings := true

/-- `for_database_type`. -/
def forDatabaseType : DatabaseType → SqlDialectProfile
  | .mysql => { mysqlCompatible with preservesTdsqlLeadingDirectives := true }
  | .gaussdb => gaussdb
  | .postgres | .openGauss => postgresFamily
  | .oceanbaseOracle =>
    { oracleLike with
      supportsBacktickIdentifiers := false
      supportsDollarQuotedStrings := false
      supportsCustomDelimiterCommands := false }
  | .oracle | .dameng | .yashandb | .oscar | .xugu | .argo | .transwarp => oracleLike
  | .sqlServer => sqlServer
  | .db2 | .clickHouse => { supportsNestedBlockComments := true }
  | .doris | .starRocks | .manticoreSearch | .goldendb => mysqlCompatible
  | .sapHana => sapHana
  | .firebird => firebird
  | .duckDb => { supportsBackslashEscapedQuotes := false, supportsPostgresEscapeStrings := true }
  | .vastbase | .kingbase | .highgo | .uxdb | .gbase8c | .kwdb => postgresStringLexer
  | .jdbc | .hive => { supportsOracleStyleRoutineBodies := true }
  | _ => {}

end SqlDialectProfile

/-- The Unicode properties of characters that the scanners read, which are known here for ASCII
only. -/
structure Unicode where
  isAlphanumeric : Char → Bool
  isAlphanumeric_ascii : ∀ c : Char, c.toNat < 128 → isAlphanumeric c = c.isAlphanum

/-- No character outside ASCII is alphanumeric. -/
def Unicode.ascii : Unicode where
  isAlphanumeric := Char.isAlphanum
  isAlphanumeric_ascii _ _ := rfl

/-- `is_identifier_continue_char`. -/
def Unicode.isIdentifierContinueChar (unicode : Unicode) (c : Char) : Bool :=
  unicode.isAlphanumeric c || c = '_' || c = '$'

end Sql

end Dbx
