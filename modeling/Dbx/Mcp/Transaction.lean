import Dbx.Text.Basic
import Dbx.Transition.Basic

/-!
# The owner of a transaction

A session of the MCP server has an owner of its database connection. The owner runs one worker;
requests reach the worker through a channel of one place, under a lease that only one client holds.
The worker races each statement against the cancellation of the owner, the loss of the request and a
timeout. The server acts on a statement at some time after it is sent, and also on one that the
worker has given up.

Each action of a client, of the worker and of the server is one event here, so a run is any
interleaving of them. What has been sent and what the server has acknowledged is kept for the
statements only.

## Main definitions

* `TransactionStatus`, `Operation`, `TransactionFailure`: what is reported, and what is asked for
* `Dialect`: the statements that are a commit, and the queries that the tools let through
* `State`, `Event`, `step`: the owner, its clients and the server, and their steps
-/

namespace Dbx.Mcp

/-- `TransactionState`. -/
inductive TransactionState
  | idle
  | active
  | unknown
  deriving DecidableEq, Repr

/-- `TransactionOutcome`. -/
inductive TransactionOutcome
  | committed
  | rolledBack
  | unknown
  deriving DecidableEq, Repr

/-- `TransactionStatus`. -/
structure TransactionStatus where
  state : TransactionState := .idle
  outcome : Option TransactionOutcome := none
  deriving DecidableEq, Repr

/-- `Operation`. -/
inductive Operation
  | begin
  | query (sql : Text) (maxRows : Option Nat)
  | commit
  | rollback
  deriving DecidableEq, Repr

/-- The statement of an operation. -/
def Operation.sql : Operation → Text
  | .begin => "START TRANSACTION".toList
  | .query sql _ => sql
  | .commit => "COMMIT".toList
  | .rollback => "ROLLBACK".toList

/-- The outcome that the acknowledged statement of an operation has. -/
def Operation.successOutcome : Operation → Option TransactionOutcome
  | .begin => none
  | .query _ _ => none
  | .commit => some .committed
  | .rollback => some .rolledBack

/-- `TransactionResult`, with the rows that the server returned. -/
structure TransactionResult (R : Type) where
  result : R
  status : TransactionStatus
  deriving DecidableEq, Repr

/-- `TransactionFailure`. -/
structure TransactionFailure where
  code : String
  message : String
  mysqlCode : Option Nat
  status : TransactionStatus
  deriving DecidableEq, Repr

/-- What a client is told: the answer to a request, or that it gets no lease. -/
structure Report (R : Type) where
  request : Option Nat
  answer : Except TransactionFailure (TransactionResult R)

/-- The status in a report. -/
def Report.status {R : Type} (report : Report R) : TransactionStatus :=
  match report.answer with
  | .ok result => result.status
  | .error failure => failure.status

/-- The statements of the server. `validate_transaction_sql_shape` lets queries and changes of rows
through, and no statement that controls the transaction. -/
structure Dialect where
  isCommit : Text → Bool
  accepts : Text → Bool
  begin_not_commit : isCommit Operation.begin.sql = false
  rollback_not_commit : isCommit Operation.rollback.sql = false
  accepted_not_commit : ∀ sql, accepts sql → isCommit sql = false

/-- The latest transaction of a connection: there was none, or what has become of its work. -/
inductive Fate
  | fresh
  | pending
  | committed
  | rolledBack
  deriving DecidableEq, Repr

/-- A statement other than a commit keeps a transaction or rolls it back, whether it fails or not:
nothing commits implicitly. -/
def Dialect.Effect (D : Dialect) (sql : Text) (before after : Fate) : Prop :=
  D.isCommit sql = false → before = .pending → after = .pending ∨ after = .rolledBack

instance (D : Dialect) (sql : Text) (before after : Fate) : Decidable (D.Effect sql before after) :=
  inferInstanceAs (Decidable (_ → _ → _))

/-- What the worker sends. -/
inductive Message
  | statement (sql : Text)
  | ping
  deriving DecidableEq, Repr

/-- A message that is not answered, and whether the server has acted on it. -/
structure InFlight where
  message : Message
  served : Bool := false
  deriving DecidableEq, Repr

/-- `Command`. The number of the request stands for its cancellation token and its response
channel. -/
structure Command where
  operation : Operation
  request : Nat
  deriving DecidableEq, Repr

/-- Where the worker stands. -/
inductive Phase
  /-- At the top of the loop of `run_owner`. -/
  | waiting
  /-- In `handle_command`, before the statement is sent. -/
  | starting (command : Command) (current : TransactionStatus)
  | executing (command : Command) (current : TransactionStatus)
  /-- The server has refused the statement; the probe is not sent. -/
  | refused (command : Command) (current : TransactionStatus) (code : Nat) (message : String)
  | probing (command : Command) (current : TransactionStatus) (code : Nat) (message : String)
  /-- Behind the loop of `run_owner`. -/
  | leaving
  | rollingBack
  | disconnecting
  | closed
  deriving DecidableEq, Repr

/-- The owner with its worker and its clients, and the server. -/
structure State (R : Type) where
  status : TransactionStatus := {}
  cancellation : Bool := false
  /-- The lease that is held, with the request it waits for. -/
  lease : Option (Option Nat) := none
  channel : Option Command := none
  /-- The requests that are numbered and those whose future was dropped. -/
  requests : Nat := 0
  dropped : List Nat := []
  phase : Phase := .waiting
  reports : List (Report R) := []
  server : Fate := .fresh
  inFlight : Option InFlight := none
  /-- What has been sent, and the server's transaction after the last acknowledged message. -/
  sent : List Message := []
  acknowledged : Fate := .fresh
  acknowledgedMessage : Option Message := none

/-- What can happen. -/
inductive Event (R : Type)
  | acquire
  | acquireCancelled
  | request (operation : Operation)
  | dropLease
  | cancel
  | take
  | stopCancelled
  | stopIdle
  | send
  | cancelled
  | requestDropped
  | succeeded (result : R)
  | failed (code : Nat) (message : String)
  | transportFailed (message : String)
  | timedOut
  | sendProbe
  | pinged
  | probeFailed
  | cleanup
  | cleanupSucceeded
  | cleanupFailed
  | finish
  | serve (fate : Fate)

section Steps

variable {R : Type}

variable (s : State R)

/-- A report to the client. A request that is answered is no longer waited for. -/
def State.report (request : Option Nat)
    (answer : Except TransactionFailure (TransactionResult R)) : State R :=
  { s with
    reports := s.reports ++ [⟨request, answer⟩]
    lease := if s.lease = some request then some none else s.lease }

/-- `failure`, and `terminal_failure` without a code of the server. -/
def State.fail (request : Option Nat) (code message : String) (mysqlCode : Option Nat) : State R :=
  s.report request (.error ⟨code, message, mysqlCode, s.status⟩)

/-- `set_unknown`. -/
def State.setUnknown : State R := { s with status := ⟨.unknown, some .unknown⟩ }

/-- The worker gives a command up: the state is unknown, and the loop is left. -/
def State.giveUp (command : Command) (code message : String) (mysqlCode : Option Nat) : State R :=
  { s.setUnknown.fail (some command.request) code message mysqlCode with phase := .leaving }

def State.transmit (message : Message) (phase : Phase) : State R :=
  { s with inFlight := some ⟨message, false⟩, sent := s.sent ++ [message], phase }

/-- The server has acknowledged the message: its answer carries the transaction flag. -/
def State.acknowledge (message : Message) : State R :=
  { s with inFlight := none, acknowledged := s.server, acknowledgedMessage := some message }

def State.inTransaction : Bool := s.server = .pending

def statusOf (inTransaction : Bool) (outcome : Option TransactionOutcome) : TransactionStatus :=
  ⟨if inTransaction then .active else .idle, outcome⟩

/-- What is wrong with an operation in a state. -/
def invalid : Operation → TransactionState → Option (String × String)
  | .begin, .active =>
    some ("TRANSACTION_ALREADY_ACTIVE", "A transaction is already active for this session.")
  | .commit, .idle | .commit, .unknown | .rollback, .idle | .rollback, .unknown =>
    some ("TRANSACTION_NOT_ACTIVE", "No active transaction exists for this session.")
  | _, _ => none

/-- The first part of `handle_command`. -/
def State.handle (command : Command) : State R :=
  match invalid command.operation s.status.state with
  | some (code, message) => s.fail (some command.request) code message none
  | none => { s with phase := .starting command s.status }

/-- The flag that an acknowledged operation must have. -/
def Operation.expectedInTransaction (operation : Operation) (inTransaction : Bool) : Bool :=
  match operation with
  | .begin => true
  | .query _ _ => inTransaction
  | .commit | .rollback => false

/-- `handle_command` after an acknowledged statement. -/
def State.succeed (command : Command) (result : R) : State R :=
  if s.inTransaction = command.operation.expectedInTransaction s.inTransaction then
    let status := statusOf s.inTransaction command.operation.successOutcome
    { s with status, phase := .waiting }.report (some command.request) (.ok ⟨result, status⟩)
  else
    s.giveUp command "TRANSACTION_STATE_UNKNOWN"
      "MySQL acknowledged the operation with an unexpected transaction state." none

/-- The status that a probe finds. -/
def probedStatus (current : TransactionStatus) (inTransaction : Bool) : TransactionStatus :=
  statusOf inTransaction
    (if current.state = .active && !inTransaction then some .rolledBack else none)

/-- `acquire`, where the gate lets the client in. -/
def State.acquire : State R :=
  if s.phase = .closed || s.cancellation then
    s.fail none "TRANSACTION_CLOSED" "Transaction session is closed." none
  else if s.status.state = .unknown then
    s.fail none "TRANSACTION_OUTCOME_UNKNOWN"
      "Transaction outcome is unknown; this session cannot execute more SQL." none
  else { s with lease := some none }

/-- The operations that the tools ask for. -/
def Operation.accepted (D : Dialect) : Operation → Bool
  | .query sql _ => D.accepts sql
  | _ => true

/-- What becomes of the lease that is dropped with a request. -/
def droppedRequest : Option (Option Nat) → List Nat
  | some (some request) => [request]
  | _ => []

/-- The messages of a command that is given up. -/
def cancelMessage (owner : Bool) : String :=
  if owner then "Transaction operation was cancelled"
  else "Transaction request was dropped"

/-- The worker gives up in the select of a statement or of a probe. -/
def State.interrupt (owner : Bool) (raised : Nat → Bool) : Option (State R) :=
  match s.phase with
  | .starting command _ | .executing command _ =>
    if raised command.request then
      some (s.giveUp command "TRANSACTION_CANCELLED"
        (cancelMessage owner ++ if owner then "." else " before completion.") none)
    else none
  | .refused command _ code _ | .probing command _ code _ =>
    if raised command.request then
      some (s.giveUp command "TRANSACTION_CANCELLED"
        (cancelMessage owner ++ " during status verification.") (some code))
    else none
  | _ => none

variable (D : Dialect) (timeoutSecs : Nat)

/-- The effect of an event, where it can happen. -/
def step (s : State R) : Event R → Option (State R)
  | .acquire => if s.lease = none then some s.acquire else none
  | .acquireCancelled =>
    if s.cancellation then
      some (s.fail none "TRANSACTION_CLOSED" "Transaction session is closed." none)
    else none
  | .request operation =>
    if s.lease = some none ∧ operation.accepted D then
      if s.phase = .closed then
        some (s.fail none "TRANSACTION_CLOSED" "Transaction session is closed." none)
      else if s.channel = none then
        some { s with
          channel := some ⟨operation, s.requests⟩
          lease := some (some s.requests)
          requests := s.requests + 1 }
      else none
    else none
  | .dropLease =>
    if s.lease.isSome then
      some { s with lease := none, dropped := droppedRequest s.lease ++ s.dropped }
    else none
  | .cancel => some { s with cancellation := true }
  | .take =>
    match s.phase, s.channel with
    | .waiting, some command => some ({ s with channel := none }.handle command)
    | _, _ => none
  | .stopCancelled =>
    if s.phase = .waiting ∧ s.cancellation then some { s with phase := .leaving } else none
  | .stopIdle => if s.phase = .waiting then some { s with phase := .leaving } else none
  | .send =>
    match s.phase with
    | .starting command current =>
      some (s.transmit (.statement command.operation.sql) (.executing command current))
    | _ => none
  | .cancelled => s.interrupt true fun _ => s.cancellation
  | .requestDropped => s.interrupt false fun request => request ∈ s.dropped
  | .succeeded result =>
    match s.phase, s.inFlight with
    | .executing command _, some ⟨message, true⟩ =>
      some ((s.acknowledge message).succeed command result)
    | _, _ => none
  | .failed code message =>
    match s.phase, s.inFlight with
    | .executing command current, some ⟨_, true⟩ =>
      let s := { s with inFlight := none }
      if command.operation = .commit then
        some (s.giveUp command "TRANSACTION_STATE_UNKNOWN" message (some code))
      else some { s with phase := .refused command current code message }
    | _, _ => none
  | .transportFailed message =>
    match s.phase with
    | .executing command _ => some (s.giveUp command "TRANSACTION_STATE_UNKNOWN" message none)
    | _ => none
  | .timedOut =>
    match s.phase with
    | .executing command _ =>
      some (s.giveUp command "TRANSACTION_TIMEOUT"
        ("Transaction operation timed out after " ++ toString timeoutSecs ++ " seconds.") none)
    | _ => none
  | .sendProbe =>
    match s.phase with
    | .refused command current code message =>
      some (s.transmit .ping (.probing command current code message))
    | _ => none
  | .pinged =>
    match s.phase with
    | .probing command current code message =>
      let s := s.acknowledge .ping
      let s := { s with status := probedStatus current s.inTransaction, phase := .waiting }
      some (s.fail (some command.request) "MYSQL_SERVER_ERROR" message (some code))
    | _ => none
  | .probeFailed =>
    match s.phase with
    | .probing command _ code message =>
      some (s.giveUp command "TRANSACTION_STATE_UNKNOWN" message (some code))
    | _ => none
  | .cleanup =>
    if s.phase = .leaving then
      if s.status.state = .active then
        some (s.transmit (.statement Operation.rollback.sql) .rollingBack)
      else some { s with phase := .disconnecting }
    else none
  | .cleanupSucceeded =>
    match s.phase, s.inFlight with
    | .rollingBack, some ⟨message, true⟩ =>
      let s := s.acknowledge message
      if s.inTransaction then some { s.setUnknown with phase := .disconnecting }
      else some { s with status := ⟨.idle, some .rolledBack⟩, phase := .disconnecting }
    | _, _ => none
  | .cleanupFailed =>
    if s.phase = .rollingBack then some { s.setUnknown with phase := .disconnecting } else none
  | .finish =>
    if s.phase = .disconnecting then
      let s := { s with phase := .closed }
      match s.channel with
      | some command =>
        some ({ s with channel := none }.fail (some command.request) "TRANSACTION_CLOSED"
          "Transaction session closed during the operation." none)
      | none => some s
    else none
  | .serve fate =>
    match s.inFlight with
    | some ⟨.statement sql, false⟩ =>
      if D.Effect sql s.server fate then
        some { s with server := fate, inFlight := some ⟨.statement sql, true⟩ }
      else none
    | _ => none

end Steps

end Dbx.Mcp
