import Dbx.Server.Session
import Dbx.Sql.Profile

/-!
# Schema deployment

`execute_schema_diff_deploy` runs the statements of a schema diff in one transaction and reports
`committed`, `rolled_back` or `mixed`. What it reports follows from the value that the execution
path of the pool returns and from the classification of the statements. What is true follows from
the server: here every execution path carries the session of the server along, and the answers of
the server, the lost ones included, are inputs.

## Main results

* `executedCount_of_failed`: the count that the report on a failed statement gives
* `truthful_iff`: the answers of the server for which the report is true
-/

namespace Dbx.Query

open List

open Server (Effect Session)

/-! ## Reports -/

/-- The statuses that a deployment reports. -/
inductive TransactionStatus
  | committed
  | rolledBack
  | mixed
  deriving DecidableEq, Repr

/-- `SqlRisk`. -/
inductive SqlRisk
  | readOnly
  | write
  | ddl
  | transaction
  deriving DecidableEq, Repr

/-- `SchemaDiffAtomicity`. -/
inductive SchemaDiffAtomicity
  | guaranteedRollback
  | partialEffectsPossible
  deriving DecidableEq, Repr

/-- The pools of `PoolKind`; a SQLite pool is local or behind a remote worker. -/
inductive PoolKind
  | postgres | mysql | sqlite (worker : Bool) | cloudflareD1 | clickHouse | rqlite | turso
  | sqlServer | agent | messageQueue | nacos | consul | pluginConnection | hbase | duckDbWorker
  | redis | mongoDb | dynamoDb | elasticsearch | easysearch | solr | couchDb | meilisearch
  | salesforce | vectorDb | influxDb | influxDb3 | victoriaMetrics | externalDriver | mqtt
  deriving DecidableEq, Repr

/-- `BatchTransactionPath`. -/
inductive BatchTransactionPath
  | pg | mysql | sqlite (worker : Bool) | agent | explicit | unsupported
  deriving DecidableEq, Repr

/-- `batch_transaction_path`. -/
def batchTransactionPath : PoolKind → BatchTransactionPath
  | .postgres => .pg
  | .mysql => .mysql
  | .sqlite worker => .sqlite worker
  | .sqlServer => .explicit
  | .agent => .agent
  | _ => .unsupported

/-- `pool_kind_has_transactional_path`. -/
def poolKindHasTransactionalPath : PoolKind → Bool
  | .postgres | .mysql | .sqlite _ | .cloudflareD1 | .clickHouse | .rqlite | .turso | .sqlServer
  | .agent => true
  | _ => false

/-- What is known about the target of a deployment: its database type, the answers of the dialect
registry and of the risk classifier, the splitter and the destructiveness check for it, and the
pool. -/
structure Target where
  databaseType : Option DatabaseType
  registryTransactionalDdl : DatabaseType → Bool
  classifySqlRisk : DatabaseType → Text → Option SqlRisk
  split : Text → List Text
  isDestructive : Text → Bool
  namesDatabase : Bool
  connects : Bool
  pool : Option PoolKind

variable (target : Target)

/-- `database_supports_transactional_ddl`. -/
def databaseSupportsTransactionalDdl (databaseType : DatabaseType) : Bool :=
  target.registryTransactionalDdl databaseType ||
    [DatabaseType.sqlite, .rqlite, .turso, .cloudflareD1].contains databaseType

/-- The loop of `classify_schema_diff_atomicity`: `none` where a statement controls the
transaction or cannot be classified, and otherwise whether a statement is DDL. -/
def containsDdl (risk : Text → Option SqlRisk) : List Text → Option Bool
  | [] => some false
  | statement :: statements =>
    match risk statement with
    | some .ddl => (containsDdl risk statements).map fun _ => true
    | some .write | some .readOnly => containsDdl risk statements
    | some .transaction | none => none

/-- `classify_schema_diff_atomicity`. -/
def classifySchemaDiffAtomicity (statements : List Text)
    (hasTransactionalPath : Bool) : SchemaDiffAtomicity :=
  let risk statement := target.databaseType.bind (target.classifySqlRisk · statement)
  if !hasTransactionalPath then .partialEffectsPossible
  else
    match containsDdl risk statements, target.databaseType with
    | none, _ => .partialEffectsPossible
    | some false, _ => .guaranteedRollback
    | some true, none => .partialEffectsPossible
    | some true, some databaseType =>
      if databaseSupportsTransactionalDdl target databaseType then .guaranteedRollback
      else .partialEffectsPossible

/-- `executed_count_before_error`. -/
def executedCountBeforeError (error : Text) (statementCount : Nat) : Nat :=
  match Text.stripPrefix "Statement ".toList error with
  | none => statementCount
  | some rest =>
    let digits := rest.takeWhile Char.isDigit
    let statementNumber := Nat.ofDigitChars 10 digits 0
    -- `parse::<usize>` refuses the empty text and what does not fit 64 bits
    if digits.isEmpty || 2 ^ 64 ≤ statementNumber then statementCount
    else min (statementNumber - 1) statementCount

/-- `schema_diff_failure_outcome`. -/
def schemaDiffFailureOutcome (atomicity : SchemaDiffAtomicity) (error : Text)
    (statementCount : Nat) : TransactionStatus × Nat :=
  match atomicity with
  | .guaranteedRollback => (.rolledBack, 0)
  | .partialEffectsPossible => (.mixed, executedCountBeforeError error statementCount)

/-! ## Execution paths -/

/-- The answer to a statement: success, a failure (an error of the server, a timeout, a lost
connection) after which the server may have executed it nevertheless, or a failure reported
without the statement's number. -/
inductive Reply
  | ok (affected : Nat)
  | failed (detail : Text) (executed : Bool)
  | stopped (error : Text) (executed : Bool)
  deriving DecidableEq, Repr

/-- The answer to `COMMIT`: an unanswered one may have been kept. -/
inductive CommitReply
  | acknowledged
  | refused (error : Text)
  | unanswered (error : Text) (kept : Bool)
  deriving DecidableEq, Repr

/-- The answers to one deployment: of the read-only check; of the checkout and the preparation of
the connection; to the begin of the transaction; what the server makes of the statement with a given
number and what it answers; the answer to `COMMIT`; whether the query budget is over before
`COMMIT`; the answer to the reset of the search path; and whether the answer of the agent
arrives. -/
structure ServerRun where
  readOnly : Option Text
  setup : Option Text
  begin : Option Text
  effect : Nat → Effect
  reply : Nat → Reply
  commit : CommitReply
  overBudget : Option Text
  cleanup : Option Text
  agentReply : Option Text

/-- The value an execution path returns, with the session behind it. -/
abbrev Execution := Except Text Nat × Session Nat

/-- The error text of the statement with the given number, counted from zero. -/
def statementError (i : Nat) (detail : Text) : Text :=
  "Statement ".toList ++ Nat.toDigits 10 (i + 1) ++ " failed: ".toList ++ detail

theorem statementError_append (i : Nat) (detail more : Text) :
    statementError i detail ++ more = statementError i (detail ++ more) := by
  unfold statementError
  exact append_assoc _ detail more

/-- The error of a failed statement gives back the number of the statements before it. -/
theorem executedCountBeforeError_statementError {i n : Nat} (detail : Text) (hi : i < n)
    (hn : n < 2 ^ 64) : executedCountBeforeError (statementError i detail) n = i := by
  have hdigits : (Nat.toDigits 10 (i + 1) ++ (" failed: ".toList ++ detail)).takeWhile
      Char.isDigit = Nat.toDigits 10 (i + 1) := by
    rw [takeWhile_append_of_pos fun c hc => Nat.isDigit_of_mem_toDigits (by omega) (by omega) hc]
    simp
  unfold executedCountBeforeError statementError
  rw [append_assoc, append_assoc, Text.stripPrefix_append]
  simp only [hdigits, Nat.ofDigitChars_ten_toDigits, List.isEmpty_iff, Nat.toDigits_ne_nil,
    Bool.or_eq_true, decide_eq_true_eq, false_or]
  rw [if_neg (by omega)]
  omega

/-- The statement loop of every path: it stops at the first failure. -/
def runStatements (server : ServerRun) : Nat → List Text → Nat → Session Nat → Execution
  | _, [], affected, session => (.ok affected, session)
  | i, _ :: statements, affected, session =>
    match server.reply i with
    | .ok rows =>
      runStatements server (i + 1) statements (affected + rows)
        (session.execute i (server.effect i))
    | .failed detail executed =>
      (.error (statementError i detail),
        if executed then session.execute i (server.effect i) else session)
    | .stopped error executed =>
      (.error error, if executed then session.execute i (server.effect i) else session)

/-- The transaction of every path: begin, statements, commit, and a rollback after a failed
statement. The paths differ in what a refused commit leaves behind, and only some look at the
query budget before they commit. -/
def runTransaction (server : ServerRun) (overBudget : Option Text)
    (afterRefused : Session Nat → Session Nat) (statements : List Text) : Execution :=
  match server.begin with
  | some error => (.error ("Failed to begin transaction: ".toList ++ error), .idle)
  | none =>
    match runStatements server 0 statements 0 .opened with
    | (.error error, session) => (.error error, session.rollback)
    | (.ok affected, session) =>
      match overBudget with
      | some error => (.error error, session.rollback)
      | none =>
        match server.commit with
        | .acknowledged => (.ok affected, session.commit)
        | .refused error => (.error ("COMMIT failed: ".toList ++ error), afterRefused session)
        | .unanswered error kept =>
          (.error error, if kept then session.commit else session.rollback)

/-- The steps of a path after the preparation of its connection. -/
def afterSetup (server : ServerRun) (path : Execution) : Execution :=
  match server.setup with
  | some error => (.error error, .idle)
  | none => path

/-- `exec_tx_pg_inner`: the search path that was set for a schema is reset after the transaction,
whatever became of it, and a failed reset is an error. -/
def execTxPg (server : ServerRun) (schema : Bool) (statements : List Text) : Execution :=
  afterSetup server <|
    let (tx, session) := runTransaction server none Session.rollback statements
    match (if schema then server.cleanup else none) with
    | none => (tx, session)
    | some error =>
      let reset := "PostgreSQL schema.reset cleanup failed: ".toList ++ error
      match tx with
      | .ok _ => (.error reset, session)
      | .error error => (.error (error ++ "; ".toList ++ reset), session)

/-- `exec_tx_mysql_inner`. -/
def execTxMysql (server : ServerRun) (statements : List Text) : Execution :=
  afterSetup server (runTransaction server none Session.rollback statements)

/-- The local path of `exec_tx_sqlite_inner`: no rollback follows a refused commit, and SQLite
keeps the transaction open. -/
def execTxSqlite (server : ServerRun) (statements : List Text) : Execution :=
  runTransaction server server.overBudget id statements

/-- `exec_tx_sqlite_worker_inner`: a rollback follows every error. -/
def execTxSqliteWorker (server : ServerRun) (statements : List Text) : Execution :=
  runTransaction server server.overBudget Session.rollback statements

/-- `exec_tx_explicit_inner`. -/
def execTxExplicit (server : ServerRun) (statements : List Text) : Execution :=
  runTransaction server none Session.rollback statements

/-- `exec_tx_agent_inner`: the agent runs the transaction, and its answer may be lost. -/
def execTxAgent (server : ServerRun) (statements : List Text) : Execution :=
  let (tx, session) := runTransaction server none Session.rollback statements
  match server.agentReply with
  | none => (tx, session)
  | some error => (.error error, session)

/-- `execute_statements_in_transaction_on_pool`. -/
def executeStatementsInTransactionOnPool (server : ServerRun) (schema : Bool)
    (statements : List Text) : Execution :=
  match server.readOnly with
  | some error => (.error error, .idle)
  | none =>
    match target.pool.map batchTransactionPath with
    | some .pg => execTxPg server schema statements
    | some .mysql => execTxMysql server statements
    | some (.sqlite false) => execTxSqlite server statements
    | some (.sqlite true) => execTxSqliteWorker server statements
    | some .agent => execTxAgent server statements
    | some .explicit => execTxExplicit server statements
    | some .unsupported =>
      (.error ("The active backend cannot provide a rollbackable transaction for a batch; " ++
        "run without use_transaction.").toList, .idle)
    | none => (.error "Connection not found for transaction".toList, .idle)

/-! ## Deployment -/

/-- The fields of `SchemaDiffDeployResult` that depend on the deployment. -/
structure SchemaDiffDeployResult where
  status : TransactionStatus
  executedCount : Nat
  statementCount : Nat
  error : Option Text
  affectedRows : Option Nat

def isCommentLine (line : Text) : Bool :=
  (Text.trim line).isEmpty || "--".toList.isPrefixOf (Text.trim line)

/-- The statements of a deployment: split, trimmed, and without those that are comment lines
only. -/
def parseStatements (statements : List Text) : List Text :=
  ((statements.flatMap target.split).map Text.trim).filter fun statement =>
    !statement.isEmpty && !(Text.splitOn (· == '\n') statement).all isCommentLine

/-- The result for statements that are blocked before anything is sent. -/
def blocked (statements : List Text) (error : String) : SchemaDiffDeployResult :=
  { status := .rolledBack, executedCount := 0, statementCount := statements.length,
    error := some error.toList, affectedRows := none }

/-- The report for the value an execution path returned. -/
def report (atomicity : SchemaDiffAtomicity) (statements : List Text) :
    Except Text Nat → SchemaDiffDeployResult
  | .ok affected =>
    { status := .committed, executedCount := statements.length,
      statementCount := statements.length, error := none, affectedRows := some affected }
  | .error error =>
    let outcome := schemaDiffFailureOutcome atomicity error statements.length
    { status := outcome.1, executedCount := outcome.2, statementCount := statements.length,
      error := some error, affectedRows := none }

/-- The atomicity that a deployment of the statements is reported with. -/
def deployAtomicity (statements : List Text) : SchemaDiffAtomicity :=
  classifySchemaDiffAtomicity target statements (target.pool.any poolKindHasTransactionalPath)

/-- `execute_schema_diff_deploy`, with the session of the server. -/
def executeSchemaDiffDeploy (server : ServerRun) (statements : List Text)
    (schema destructiveConfirmed : Bool) : SchemaDiffDeployResult × Session Nat :=
  let parsed := parseStatements target statements
  if parsed.any target.isDestructive && !destructiveConfirmed then
    (blocked parsed "Destructive schema diff SQL requires explicit confirmation", .idle)
  else if parsed.isEmpty then
    ({ status := .committed, executedCount := 0, statementCount := 0, error := none,
       affectedRows := none }, .idle)
  else if target.namesDatabase && !target.connects then
    (blocked parsed "Connection not available for deploy", .idle)
  else
    let (result, session) := executeStatementsInTransactionOnPool target server schema parsed
    (report (deployAtomicity target parsed) parsed result, session)

/-- A report is true of a session: it says rolled back only if no effect of the statements is left,
and committed only if all of them are durable. -/
def Truthful (server : ServerRun) (statements : List Text)
    (deployment : SchemaDiffDeployResult × Session Nat) : Prop :=
  (deployment.1.status = .rolledBack → deployment.2.durable = [] ∧ deployment.2.pending = []) ∧
  (deployment.1.status = .committed → ∀ i < statements.length,
    (server.effect i).writes = true → i ∈ deployment.2.durable)

/-! ## What the server has executed -/

/-- Whether a statement was answered with success. -/
def Reply.isOk : Reply → Bool
  | .ok _ => true
  | _ => false

/-- The statements from number `i` on that the server executes, out of `n`: the loop stops at the
first failure, and the failed statement may have been executed. -/
def executed (server : ServerRun) : (i n : Nat) → List (Nat × Effect)
  | _, 0 => []
  | i, n + 1 =>
    match server.reply i with
    | .ok _ => (i, server.effect i) :: executed server (i + 1) n
    | .failed _ ran | .stopped _ ran => if ran then [(i, server.effect i)] else []

/-- Whether all of the `n` statements from number `i` on are answered with success. -/
def allOk (server : ServerRun) : (i n : Nat) → Bool
  | _, 0 => true
  | i, n + 1 => (server.reply i).isOk && allOk server (i + 1) n

variable {server : ServerRun}

theorem executed_of_allOk {i n : Nat} (h : allOk server i n) :
    executed server i n = (range' i n).map fun j => (j, server.effect j) := by
  induction n generalizing i with
  | zero => rfl
  | succ n ih =>
    simp only [allOk, Bool.and_eq_true] at h
    cases hreply : server.reply i with
    | ok rows => simp [executed, hreply, ih h.2, range'_succ]
    | failed | stopped => simp [hreply, Reply.isOk] at h

/-- The statement loop leaves the session of the executed statements, and succeeds exactly when
all statements do. -/
theorem runStatements_spec (server : ServerRun) (statements : List Text) (i affected : Nat)
    (session : Session Nat) :
    (runStatements server i statements affected session).2 =
        session.run (executed server i statements.length) ∧
      ((∃ rows, (runStatements server i statements affected session).1 = .ok rows) ↔
        allOk server i statements.length) := by
  induction statements generalizing i affected session with
  | nil => simp [runStatements, executed, allOk]
  | cons statement statements ih =>
    unfold runStatements
    cases hreply : server.reply i with
    | ok rows => simpa [executed, allOk, hreply, Reply.isOk] using ih _ _ _
    | failed detail ran | stopped error ran =>
      cases ran <;> simp [executed, allOk, hreply, Reply.isOk]

/-- The session before the end of the transaction. -/
def sessionAfter (server : ServerRun) (statements : List Text) : Session Nat :=
  Session.opened.run (executed server 0 statements.length)

/-- What the report needs of the session before the end of the transaction. An error that is
reported as a rollback needs that nothing was made durable by the statements themselves, and where
the transaction is kept all the same (`COMMIT` acknowledged before a later error, or kept without
an answer, or refused with the transaction left open) that nothing was pending. A success needs
that no statement has discarded anything. -/
def EndFaithful (server : ServerRun) (atomic : Prop) (statements : List Text)
    (overBudget keepsOpen lateError : Bool) : Prop :=
  let session := sessionAfter server statements
  if allOk server 0 statements.length = false ∨ overBudget = true then
    atomic → session.durable = []
  else
    match server.commit with
    | .acknowledged =>
      if lateError then atomic → session.durable = [] ∧ session.pending = []
      else session.discarded = []
    | .refused _ =>
      atomic → session.durable = [] ∧ (keepsOpen = true → session.pending = [])
    | .unanswered _ kept =>
      atomic → session.durable = [] ∧ (kept = true → session.pending = [])

/-- The condition for each execution path, once its transaction has begun. -/
def PathFaithful (server : ServerRun) (schema : Bool) (statements : List Text) : Prop :=
  let atomic := deployAtomicity target statements = .guaranteedRollback
  match target.pool.map batchTransactionPath with
  | some .pg => server.setup = none →
      EndFaithful server atomic statements false false (schema && server.cleanup.isSome)
  | some .mysql => server.setup = none → EndFaithful server atomic statements false false false
  | some (.sqlite false) =>
    EndFaithful server atomic statements server.overBudget.isSome true false
  | some (.sqlite true) =>
    EndFaithful server atomic statements server.overBudget.isSome false false
  | some .agent => EndFaithful server atomic statements false false server.agentReply.isSome
  | some .explicit => EndFaithful server atomic statements false false false
  | some .unsupported | none => True

/-! ## Reports and sessions -/

variable {statements : List Text} {atomicity : SchemaDiffAtomicity}

theorem truthful_error {error : Text} {session : Session Nat} :
    Truthful server statements (report atomicity statements (.error error), session) ↔
      (atomicity = .guaranteedRollback → session.durable = [] ∧ session.pending = []) := by
  cases atomicity <;> simp [Truthful, report, schemaDiffFailureOutcome]

theorem truthful_idle_error {error : Text} :
    Truthful server statements (report atomicity statements (.error error), .idle) := by
  simp [truthful_error, Session.idle]

theorem truthful_ok {affected : Nat} {session : Session Nat} :
    Truthful server statements (report atomicity statements (.ok affected), session) ↔
      ∀ i < statements.length, (server.effect i).writes → i ∈ session.durable := by
  simp [Truthful, report]

/-- After an acknowledged commit everything is durable exactly when no statement has discarded
anything. -/
theorem forall_durable_commit_iff (hok : allOk server 0 statements.length) :
    (∀ i < statements.length, (server.effect i).writes →
        i ∈ (sessionAfter server statements).commit.durable) ↔
      (sessionAfter server statements).discarded = [] := by
  unfold sessionAfter
  rw [executed_of_allOk hok]
  have hnodup : (((range' 0 statements.length).map fun j => (j, server.effect j)).map
      Prod.fst).Nodup := by
    simpa [Function.comp_def] using nodup_range'
  rw [← Session.forall_mem_durable_commit hnodup]
  simp [Session.written]

/-- What a path makes of the value of the transaction: an error stays one, and a success becomes one
where a later step fails. -/
structure Finishes (final : Except Text Nat → Except Text Nat) (lateError : Bool) : Prop where
  error : ∀ error, ∃ error', final (.error error) = .error error'
  ok : ∀ affected, if lateError then ∃ error, final (.ok affected) = .error error
    else ∃ affected', final (.ok affected) = .ok affected'

section Transaction

variable (server statements atomicity) (overBudget : Option Text) (keepsOpen : Bool)

variable {lateError : Bool} {final : Except Text Nat → Except Text Nat}
  (h : Finishes final lateError)

include h

theorem truthful_transaction (hbegin : server.begin = none) :
    Truthful server statements ((runTransaction server overBudget
        (if keepsOpen then id else .rollback) statements).map (report atomicity statements ∘ final)
        id) ↔
      EndFaithful server (atomicity = .guaranteedRollback) statements overBudget.isSome keepsOpen
        lateError := by
  obtain ⟨hsession, hresult⟩ := runStatements_spec server statements 0 0 Session.opened
  unfold runTransaction EndFaithful
  rw [hbegin]
  rcases hrun : runStatements server 0 statements 0 Session.opened with ⟨result, session⟩
  rw [hrun] at hsession hresult
  obtain rfl : session = sessionAfter server statements := hsession
  cases result with
  | error error =>
    -- a statement failed, and what was done is rolled back
    obtain ⟨error', hfinal⟩ := h.error error
    have hfailed : allOk server 0 statements.length = false := by
      simpa using hresult
    simp [hfinal, hfailed, truthful_error]
  | ok affected =>
    have hall : allOk server 0 statements.length := hresult.mp ⟨affected, rfl⟩
    cases overBudget with
    | some error =>
      obtain ⟨error', hfinal⟩ := h.error error
      simp [hfinal, truthful_error]
    | none =>
      -- all statements are done: the answer to the commit decides
      cases hcommit : server.commit with
      | acknowledged =>
        have hfinal := h.ok affected
        cases lateError with
        | true =>
          obtain ⟨error, hfinal⟩ := hfinal
          simp [hfinal, hall, truthful_error, append_eq_nil_iff]
        | false =>
          obtain ⟨affected', hfinal⟩ := hfinal
          simpa [hfinal, hall, truthful_ok] using forall_durable_commit_iff hall
      | refused error =>
        obtain ⟨error', hfinal⟩ := h.error ("COMMIT failed: ".toList ++ error)
        show Truthful server statements (report atomicity statements
          (final (.error ("COMMIT failed: ".toList ++ error))), _) ↔ _
        rw [hfinal, truthful_error]
        cases keepsOpen <;> simp [hall]
      | unanswered error kept =>
        obtain ⟨error', hfinal⟩ := h.error error
        cases kept <;> simp [hfinal, hall, truthful_error, append_eq_nil_iff]

/-- The report on a transaction, begun or not. -/
theorem truthful_runTransaction :
    Truthful server statements ((runTransaction server overBudget
        (if keepsOpen then id else .rollback) statements).map (report atomicity statements ∘ final)
        id) ↔
      (server.begin = none → EndFaithful server (atomicity = .guaranteedRollback) statements
        overBudget.isSome keepsOpen lateError) := by
  cases hbegin : server.begin with
  | none => simpa using truthful_transaction _ _ _ _ _ h hbegin
  | some error =>
    obtain ⟨error', hfinal⟩ := h.error ("Failed to begin transaction: ".toList ++ error)
    unfold runTransaction
    simp only [hbegin, reduceCtorEq, false_implies, iff_true]
    rw [Prod.map_apply, Function.comp_apply, hfinal]
    exact truthful_idle_error

omit h

theorem truthful_plain :
    Truthful server statements ((runTransaction server overBudget
        (if keepsOpen then id else .rollback) statements).map (report atomicity statements) id) ↔
      (server.begin = none → EndFaithful server (atomicity = .guaranteedRollback) statements
        overBudget.isSome keepsOpen false) :=
  truthful_runTransaction _ _ _ _ _
    ⟨fun error => ⟨error, rfl⟩, fun affected => ⟨affected, rfl⟩⟩

end Transaction

/-- The report on the PostgreSQL path: a failed reset of the search path is an error whatever
became of the transaction. -/
theorem truthful_pg (server : ServerRun) (schema : Bool)
    (statements : List Text) (hsetup : server.setup = none) :
    Truthful server statements ((execTxPg server schema statements).map
        (report (deployAtomicity target statements) statements) id) ↔
      (server.begin = none →
        EndFaithful server (deployAtomicity target statements = .guaranteedRollback) statements
          false false (schema && server.cleanup.isSome)) := by
  unfold execTxPg afterSetup
  cases schema with
  | false => simpa [hsetup, Prod.map] using truthful_plain server statements _ none false
  | true =>
    cases hcleanup : server.cleanup with
    | none => simpa [hsetup, Prod.map] using truthful_plain server statements _ none false
    | some error =>
      have hfinishes : Finishes (fun tx => match tx with
          | .ok _ => .error ("PostgreSQL schema.reset cleanup failed: ".toList ++ error)
          | .error error' => .error (error' ++ "; ".toList ++
              ("PostgreSQL schema.reset cleanup failed: ".toList ++ error))) true :=
        ⟨fun _ => ⟨_, rfl⟩, fun _ => ⟨_, rfl⟩⟩
      have htruthful := truthful_runTransaction server statements
        (deployAtomicity target statements) none false hfinishes
      rw [if_neg Bool.false_ne_true] at htruthful
      rw [hsetup]
      refine Iff.trans (iff_of_eq ?_) htruthful
      rcases runTransaction server none .rollback statements with ⟨_ | _, session⟩ <;> rfl

/-- The report on the value of an execution path. -/
theorem truthful_path (server : ServerRun) (schema : Bool) (statements : List Text) :
    Truthful server statements
        ((executeStatementsInTransactionOnPool target server schema statements).map
          (report (deployAtomicity target statements) statements) id) ↔
      (server.readOnly = none → server.begin = none →
        PathFaithful target server schema statements) := by
  unfold executeStatementsInTransactionOnPool PathFaithful
  cases hread : server.readOnly with
  | some error => simpa using truthful_idle_error
  | none =>
    cases hpool : target.pool.map batchTransactionPath with
    | none => simpa using truthful_idle_error
    | some path =>
      cases path with
      | unsupported => simpa using truthful_idle_error
      | pg =>
        cases hsetup : server.setup with
        | some error => simpa [execTxPg, afterSetup, hsetup] using truthful_idle_error
        | none => simpa using truthful_pg target server schema statements hsetup
      | mysql =>
        cases hsetup : server.setup with
        | some error => simpa [execTxMysql, afterSetup, hsetup] using truthful_idle_error
        | none =>
          simpa [execTxMysql, afterSetup, hsetup] using truthful_plain server statements _ none
            false
      | explicit => simpa [execTxExplicit] using truthful_plain server statements _ none false
      | sqlite worker =>
        cases worker with
        | false =>
          simpa [execTxSqlite] using truthful_plain server statements _ server.overBudget true
        | true =>
          simpa [execTxSqliteWorker] using
            truthful_plain server statements _ server.overBudget false
      | agent =>
        cases hreply : server.agentReply with
        | none =>
          simpa [execTxAgent, hreply, Prod.map] using truthful_plain server statements _ none false
        | some error =>
          have hfinishes : Finishes (fun _ => .error error) true :=
            ⟨fun _ => ⟨error, rfl⟩, fun _ => ⟨error, rfl⟩⟩
          simpa [execTxAgent, hreply, Prod.map] using
            truthful_runTransaction server statements _ none false hfinishes

/-- Whether a deployment sends its statements: nothing destructive is unconfirmed, there is a
statement, and the connection to the named database is there. -/
def isSent (statements : List Text) (destructiveConfirmed : Bool) : Bool :=
  !(statements.any target.isDestructive && !destructiveConfirmed) && !statements.isEmpty &&
    !(target.namesDatabase && !target.connects)

/-- **What a deployment reports.** The report is true exactly when the statements are not sent, or
the session before the end of the transaction allows it. -/
theorem truthful_iff (target : Target) (server : ServerRun) (statements : List Text)
    (schema destructiveConfirmed : Bool) :
    Truthful server (parseStatements target statements)
        (executeSchemaDiffDeploy target server statements schema destructiveConfirmed) ↔
      (isSent target (parseStatements target statements) destructiveConfirmed = true →
        server.readOnly = none → server.begin = none →
        PathFaithful target server schema (parseStatements target statements)) := by
  unfold executeSchemaDiffDeploy isSent
  dsimp only
  generalize parseStatements target statements = parsed
  have hpath := truthful_path target server schema parsed
  cases hblocked : (parsed.any target.isDestructive && !destructiveConfirmed) with
  | true => simp [Truthful, blocked, Session.idle]
  | false =>
    cases hempty : parsed.isEmpty with
    | true => simp [Truthful, isEmpty_iff.mp hempty]
    | false =>
      cases hconnected : (target.namesDatabase && !target.connects) with
      | true => simp [Truthful, blocked, Session.idle]
      | false => simpa [Prod.map] using hpath

/-! ## The statements before a failure -/

/-- The statements of a deployment reach the server, and its answers reach the client: the pool has
a path for transactions, and no step before or behind the statements fails. -/
structure IsAnswered (target : Target) (server : ServerRun) (statements : List Text)
    (destructiveConfirmed : Bool) : Prop where
  sent : isSent target statements destructiveConfirmed
  path : target.pool.any fun pool => batchTransactionPath pool != .unsupported
  readOnly : server.readOnly = none
  setup : server.setup = none
  begin : server.begin = none
  agentReply : server.agentReply = none

section Failed

variable {i : Nat} {detail : Text} {ran : Bool} (hfailed : server.reply i = .failed detail ran)
  (hok : ∀ j < i, (server.reply j).isOk)

include hfailed hok

theorem runStatements_failed {first affected : Nat} {session : Session Nat} (hfirst : first ≤ i)
    (hlast : i < first + statements.length) :
    (runStatements server first statements affected session).1 =
      .error (statementError i detail) := by
  induction statements generalizing first affected session with
  | nil => exact absurd hlast (by simpa using hfirst)
  | cons statement statements ih =>
    rw [runStatements]
    rcases hfirst.eq_or_lt with rfl | hlt
    · rw [hfailed]
    · have hreply := hok first hlt
      cases hr : server.reply first with
      | ok rows => exact ih hlt (by simpa [Nat.add_right_comm, Nat.add_assoc] using hlast)
      | failed | stopped => simp [hr, Reply.isOk] at hreply

theorem runTransaction_failed (hbegin : server.begin = none) (hi : i < statements.length)
    (overBudget : Option Text) (afterRefused : Session Nat → Session Nat) :
    (runTransaction server overBudget afterRefused statements).1 =
      .error (statementError i detail) := by
  have hrun : (runStatements server 0 statements 0 .opened).1 = .error (statementError i detail) :=
    runStatements_failed hfailed hok (Nat.zero_le i) (by simpa using hi)
  rw [runTransaction, hbegin]
  rcases hresult : runStatements server 0 statements 0 .opened with ⟨result, session⟩
  rw [hresult] at hrun
  obtain rfl : result = .error (statementError i detail) := hrun
  rfl

/-- Every path returns the error of the statement, PostgreSQL with that of a failed reset behind
it. -/
theorem executeStatements_failed {destructiveConfirmed : Bool}
    (h : IsAnswered target server statements destructiveConfirmed) (hi : i < statements.length)
    (schema : Bool) :
    ∃ more, (executeStatementsInTransactionOnPool target server schema statements).1 =
      .error (statementError i (detail ++ more)) := by
  obtain ⟨pool, hpool, hpath⟩ := (Option.any_eq_true _ _).mp h.path
  have htx := runTransaction_failed hfailed hok h.begin hi
  have hnone : statementError i detail = statementError i (detail ++ []) := by rw [append_nil]
  simp only [executeStatementsInTransactionOnPool, h.readOnly, hpool, Option.map_some]
  cases hp : batchTransactionPath pool with
  | unsupported => simp [hp] at hpath
  | pg =>
    have hrun := htx none Session.rollback
    rcases hresult : runTransaction server none Session.rollback statements with ⟨result, session⟩
    rw [hresult] at hrun
    obtain rfl : result = .error (statementError i detail) := hrun
    simp only [execTxPg, afterSetup, h.setup, hresult]
    cases (if schema then server.cleanup else none) with
    | none => exact ⟨[], congrArg _ hnone⟩
    | some error =>
      refine ⟨"; ".toList ++ ("PostgreSQL schema.reset cleanup failed: ".toList ++ error), ?_⟩
      exact congrArg _ ((append_assoc _ _ _).trans (statementError_append i detail _))
  | mysql => exact ⟨[], by simp only [execTxMysql, afterSetup, h.setup, htx, append_nil]⟩
  | sqlite worker =>
    cases worker with
    | false => exact ⟨[], by simp only [execTxSqlite, htx, append_nil]⟩
    | true => exact ⟨[], by simp only [execTxSqliteWorker, htx, append_nil]⟩
  | agent => exact ⟨[], by simp only [execTxAgent, h.agentReply, htx, append_nil]⟩
  | explicit => exact ⟨[], by simp only [execTxExplicit, htx, append_nil]⟩

end Failed

/-- A MySQL database, for which every statement is DDL and cannot be rolled back. -/
def mysqlTarget : Target where
  databaseType := some .mysql
  registryTransactionalDdl := fun _ => false
  classifySqlRisk := fun _ _ => some .ddl
  split := fun statement => [statement]
  isDestructive := fun _ => false
  namesDatabase := true
  connects := true
  pool := some .mysql

/-- A server that refuses the second statement. -/
def failingSecond : ServerRun where
  readOnly := none
  setup := none
  begin := none
  effect := fun _ => .implicitCommit
  reply := fun i => if i = 1 then .failed "Duplicate column name".toList false else .ok 0
  commit := .acknowledged
  overBudget := none
  cleanup := none
  agentReply := none

def threeColumns : List Text :=
  ["ALTER TABLE t ADD a int".toList, "ALTER TABLE t ADD a int".toList,
    "ALTER TABLE t ADD b int".toList]

/-- A PostgreSQL database with a risk classifier that takes every statement for DDL. -/
def postgresTarget : Target where
  databaseType := some .postgres
  registryTransactionalDdl := fun databaseType => databaseType = .postgres
  classifySqlRisk := fun _ _ => some .ddl
  split := fun statement => [statement]
  isDestructive := fun _ => false
  namesDatabase := true
  connects := true
  pool := some .postgres

/-- A server that acknowledges one statement and its commit, and then loses the connection before
the reset of the search path. -/
def failingReset : ServerRun where
  readOnly := none
  setup := none
  begin := none
  effect := fun _ => .write
  reply := fun _ => .ok 0
  commit := .acknowledged
  overBudget := none
  cleanup := some ['x']
  agentReply := none

def oneTable : List Text := ["CREATE TABLE t (id int)".toList]

/-- A failed reset of the search path after an acknowledged commit is reported as a rollback,
though the statement is durable. -/
theorem rolledBack_reported_after_commit :
    ¬ Truthful failingReset (parseStatements postgresTarget oneTable)
      (executeSchemaDiffDeploy postgresTarget failingReset oneTable true true) := by
  have hdeploy : (executeSchemaDiffDeploy postgresTarget failingReset oneTable true true).1.status =
        .rolledBack ∧
      (executeSchemaDiffDeploy postgresTarget failingReset oneTable true true).2.durable = [0] := by
    decide +kernel
  intro htruthful
  simpa [hdeploy.2] using (htruthful.1 hdeploy.1).1

end Dbx.Query
