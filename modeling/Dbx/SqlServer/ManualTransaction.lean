import Dbx.Text.Basic
import Dbx.Transition.Basic

/-!
# Manual transactions of SQL Server

A manual transaction is a session with a connection of its own. Requests that execute SQL mark the
session busy; a request that ends it, a disconnect of its connection and the watcher of its idle
timeout take it out of the session map. Whoever has taken it, or has failed while executing, ends
the transaction over the connection and records what became of it, so that a late caller still
learns the outcome. A request that is dropped while it executes leaves the session to a guard that
discards it in the background.

The session, the connection, the lifecycle of its connection and the record each have a lock of
their own. Each access to one of them, and each message to the server or from it, is one action
here, so a run is any interleaving of any number of requests on one session.

## Main definitions

* `Phase`: where a request stands
* `State`, `Action`, `step`: the session, its connection and the requests on it
* `Honest`: what is recorded and reported has been acknowledged, and the messages are in order
* `Keeps`: a step replaces no known outcome
* `Unclaimed`: a disconnect takes no session from a request that is going to roll it back
-/

namespace Dbx.SqlServer

open Transition

/-- `TransactionOutcome`. -/
inductive Outcome
  | unknown
  | committed
  | rolledBack
  deriving DecidableEq, Repr

/-- `ManualTransactionFailureKind`, those a session can end with. -/
inductive Kind
  | busy
  | controlConflict
  | contextChanged
  | idleTimeout
  | connectionLost
  | executionFailed
  | rollbackFailed
  | commitUnknown
  deriving DecidableEq, Repr

/-- `Failure`. -/
structure Failure where
  kind : Kind
  outcome : Outcome
  detail : String
  deriving DecidableEq, Repr

/-- The messages of the session's connection: user SQL, the two statements that end the
transaction, and their acknowledgments. -/
inductive Message
  | userSql
  | ending (commit : Bool)
  | acknowledged (commit : Bool)
  deriving DecidableEq, Repr

def outcomeOf (commit : Bool) : Outcome := if commit then .committed else .rolledBack

/-- Why a statement that ends the transaction was not sent or not acknowledged. -/
inductive Refusal
  | failed (error : String)
  | timedOut
  deriving DecidableEq, Repr

/-- What a request returns. -/
inductive Report
  | rows
  | ended (commit : Bool)
  | failure (cause : Failure)
  deriving DecidableEq, Repr

/-- The outcome that a request reports. -/
def Report.outcome : Report → Outcome
  | .rows => .unknown
  | .ended commit => outcomeOf commit
  | .failure cause => cause.outcome

/-- Who calls `cleanup_failure`. -/
inductive Caller
  | execute
  | finish
  | disconnect
  deriving DecidableEq, Repr

/-- Where a request stands between two accesses to a lock or two messages. -/
inductive Phase
  | idle
  /-- `execute` has marked the session busy and waits for the connection. -/
  | entered (contextChanged expired : Bool)
  /-- `execute` has found the session over before execution. -/
  | ending (kind : Kind)
  /-- `execute` checks for a read-only connection. -/
  | admitted
  /-- `execute` runs its batches. -/
  | running
  /-- `execute` has run its batches. -/
  | succeeded
  /-- `execute` has failed, with or without an interruption. -/
  | broken (interrupted : Bool) (error : String)
  /-- `cleanup_failure` is called. -/
  | cleaning (caller : Caller) (kind : Kind) (detail : String) (discard : Bool)
  /-- `cleanup_failure` has sent `ROLLBACK`. -/
  | rollingBack (caller : Caller) (kind : Kind) (detail : String)
  /-- `cleanup_failure` releases the pool and records next. -/
  | cleaned (caller : Caller) (failure : Failure)
  /-- `finish` has taken the session and waits for the connection. -/
  | finishing (commit : Bool)
  /-- `finish` has found the session usable. -/
  | prepared (commit : Bool)
  /-- `finish` has recorded that the transaction is ending. -/
  | deciding (commit : Bool)
  /-- `finish` has sent its statement. -/
  | sent (commit : Bool)
  /-- `finish` knows how its statement went. -/
  | answered (commit : Bool) (refusal : Option Refusal)
  /-- `finish` releases the pool and records last. -/
  | releasing (commit : Bool) (refusal : Option Refusal)
  /-- `disconnect` has the session. -/
  | disconnecting (busy : Bool)
  /-- `disconnect` waits for the connection. -/
  | closing (busy : Bool)
  /-- The idle watcher has taken the session. -/
  | expiring
  /-- The idle watcher waits for the connection. -/
  | idling
  /-- The idle watcher has the connection. -/
  | idleReady
  /-- The idle watcher has sent `ROLLBACK`. -/
  | idleSent
  /-- The idle watcher records next. -/
  | idleDone (failure : Failure)
  /-- The request of an armed `ExecutionGuard` was dropped. -/
  | dropped
  /-- The guard has taken the session. -/
  | interrupted
  /-- The guard waits for the connection. -/
  | draining
  deriving DecidableEq, Repr

/-- The client of the session: the native driver, or an agent. -/
inductive Transport
  | native
  | agent
  deriving DecidableEq, Repr

/-- The session and the requests on it. -/
structure State (T : Type) where
  clock : Nat
  lastActivity : Nat
  idleTimeout : Nat
  transport : Transport
  /-- The native client has not been discarded. -/
  client : Bool
  /-- The session in the map, with its busy mark. -/
  session : Option Bool
  /-- The lifecycle of the connection is cancelled. -/
  cancelled : Bool
  /-- Who has the connection's lock. -/
  holder : Option T
  /-- An agent call with user SQL has been started and not sent. -/
  pending : Bool
  /-- What `EndedSessions` has on the session. -/
  ends : Option Failure
  wire : List Message
  reports : List Report
  phase : T → Phase

/-- The accesses to the locks and the messages. -/
inductive Action (T : Type)
  | tick (elapsed : Nat)
  | cancel
  | forget
  | execute (t : T) (contextChanged controlConflict : Bool)
  | lock (t : T)
  | remove (t : T)
  | readOnly (t : T) (error : Option String)
  | sendSql (t : T)
  | callAgent
  | ran (t : T) (error : Option String) (tokenCancelled : Bool)
  | settle (t : T)
  | clean (t : T) (refusal : Option Refusal)
  | send (t : T) (refusal : Option Refusal)
  | answer (t : T) (refusal : Option Refusal)
  | record (t : T)
  | finish (t : T) (commit : Bool)
  | disconnect (t : T)
  | watch (t : T)
  | drop (t : T)
  deriving DecidableEq, Repr

/-- `EndedSessions::missing`. -/
def missing (ends : Option Failure) : Failure :=
  ends.getD ⟨.connectionLost, .unknown,
    "The transaction session is no longer available; its outcome cannot be confirmed"⟩

/-- What `execute` takes for an interruption in an error. -/
def interrupts (isConnectionError : Text → Bool) (error : String) : Bool :=
  let text := error.toList
  let lower := Text.toAsciiLowercase text
  Text.containsText text "DBX_MANUAL_TRANSACTION_STATE_LOST".toList ||
    Text.containsText text "count=0".toList || isConnectionError text ||
    Text.containsText lower "timed out".toList || Text.containsText lower "timeout".toList

/-- How `cleanup_failure` reports a rollback that was not acknowledged. -/
def rollbackFailure (detail : String) : Refusal → Failure
  | .failed error => ⟨.rollbackFailed, .unknown, detail ++ "; rollback failed: " ++ error⟩
  | .timedOut => ⟨.rollbackFailed, .unknown, detail ++ "; rollback timed out"⟩

/-- How the idle watcher reports a rollback. -/
def idleFailure : Option Refusal → Failure
  | none => ⟨.idleTimeout, .rolledBack, "Transaction rolled back after its idle timeout"⟩
  | some (.failed error) =>
    ⟨.rollbackFailed, .unknown, "Idle transaction rollback could not be confirmed: " ++ error⟩
  | some .timedOut => ⟨.rollbackFailed, .unknown, "Idle transaction rollback timed out"⟩

/-- How `finish` reports a statement that was not acknowledged. -/
def finishFailure (commit : Bool) (refusal : Refusal) : Failure :=
  let detail := match refusal with
    | .failed error => error
    | .timedOut => "Ending the transaction timed out"
  ⟨if commit then .commitUnknown else .rollbackFailed, .unknown, detail⟩

/-- What `finish` records once its statement is acknowledged. -/
def ended (commit : Bool) : Failure :=
  ⟨.contextChanged, outcomeOf commit, "The transaction has already ended"⟩

variable {T : Type} [DecidableEq T]

variable (s : State T) (t : T)

def State.expired : Bool := s.idleTimeout ≤ s.clock - s.lastActivity

/-- The request of `t` goes on. -/
def State.enter (phase : Phase) : State T :=
  { s with phase := Function.update s.phase t phase }

/-- The request of `t` is over and gives back the connection's lock, if it has it. -/
def State.leave : State T :=
  { s with phase := Function.update s.phase t .idle
           holder := if s.holder = some t then none else s.holder }

/-- The request of `t` returns. -/
def State.return (report : Report) : State T :=
  { s.leave t with reports := s.reports ++ [report] }

/-- `EndedSessions::record`. -/
def State.recorded (failure : Failure) : State T := { s with ends := some failure }

def State.message (s : State T) (message : Message) : State T :=
  { s with wire := s.wire ++ [message] }

/-- A discarded native client refuses before anything is sent. -/
def State.refuses (commit : Bool) (refusal : Option Refusal) : Option Refusal :=
  match s.transport, s.client with
  | .native, false =>
    some (.failed (if commit then "Transaction connection was discarded"
      else "The transaction connection was discarded; rollback cannot be confirmed"))
  | _, _ => refusal

/-- `execute`, up to the connection's lock. -/
def execute (contextChanged controlConflict : Bool) : State T :=
  if controlConflict then
    s.return t (.failure ⟨.controlConflict, .unknown,
      "Transaction control and USE are managed by the manual transaction session"⟩)
  else
    match s.session with
    | none => s.return t (.failure (missing s.ends))
    | some true =>
      s.return t (.failure ⟨.busy, .unknown, "The transaction is currently executing"⟩)
    | some false =>
      { s with session := some true }.enter t (.entered contextChanged s.expired)

/-- `finish`, up to the connection's lock. -/
def finish (commit : Bool) : State T :=
  match s.session with
  | none => s.return t (.failure (missing s.ends))
  | some true => s.return t (.failure ⟨.busy, .unknown, "The transaction is currently executing"⟩)
  | some false => { s with session := none }.enter t (.finishing commit)

/-- What a request does with the connection's lock. -/
def locked : Option (State T) :=
  let s := { s with holder := some t }
  match s.phase t with
  | .entered contextChanged expired =>
    if contextChanged || expired || s.cancelled then
      some (s.enter t (.ending (if contextChanged then .contextChanged
        else if expired then .idleTimeout else .connectionLost)))
    else some (s.enter t .admitted)
  | .finishing commit =>
    if s.cancelled || s.expired then
      some (s.enter t (.cleaning .finish (if s.cancelled then .connectionLost else .idleTimeout)
        "The transaction ended before it could be committed" false))
    else some (s.enter t (.prepared commit))
  | .closing busy =>
    some (s.enter t (.cleaning .disconnect .connectionLost "The connection was disconnected" busy))
  | .idling => some (s.enter t .idleReady)
  | .draining => some (s.leave t)
  | _ => none

/-- What a request does under the lock of the session map once it is to end the session. -/
def remove : Option (State T) :=
  match s.phase t with
  | .ending kind =>
    some ({ s with session := none }.enter t
      (.cleaning .execute kind "The transaction session ended before execution" false))
  | .broken interrupted error =>
    some ({ s with session := none }.enter t (.cleaning .execute
      (if interrupted then .connectionLost else .executionFailed) error interrupted))
  | .dropped =>
    match s.session with
    | some _ => some ({ s with session := none }.enter t .interrupted)
    | none => some (s.leave t)
  | _ => none

/-- The first part of `cleanup_failure`: discard, or send `ROLLBACK`. -/
def clean (refusal : Option Refusal) : Option (State T) :=
  match s.phase t with
  | .cleaning caller kind detail true => some (s.enter t (.cleaned caller ⟨kind, .unknown, detail⟩))
  | .cleaning caller kind detail false =>
    match s.refuses false refusal with
    | some refusal => some (s.enter t (.cleaned caller (rollbackFailure detail refusal)))
    | none => some ((s.message (.ending false)).enter t (.rollingBack caller kind detail))
  | _ => none

/-- `finish` and the idle watcher send their statement. -/
def send (refusal : Option Refusal) : Option (State T) :=
  match s.phase t with
  | .deciding commit =>
    match s.refuses commit refusal with
    | some refusal => some (s.enter t (.answered commit (some refusal)))
    | none => some ((s.message (.ending commit)).enter t (.sent commit))
  | .idleReady =>
    match s.refuses false refusal with
    | some refusal => some (s.enter t (.idleDone (idleFailure (some refusal))))
    | none => some ((s.message (.ending false)).enter t .idleSent)
  | _ => none

/-- The acknowledgment of a statement that ends the transaction, or its absence. -/
def State.acknowledge (commit : Bool) (refusal : Option Refusal) : State T :=
  match refusal with
  | none => s.message (.acknowledged commit)
  | some _ => s

/-- The answer to a statement that ends the transaction. -/
def answer (refusal : Option Refusal) : Option (State T) :=
  match s.phase t with
  | .rollingBack caller kind detail =>
    let failure := match refusal with
      | none => ⟨kind, .rolledBack, detail⟩
      | some refusal => rollbackFailure detail refusal
    some ((s.acknowledge false refusal).enter t (.cleaned caller failure))
  | .sent commit => some ((s.acknowledge commit refusal).enter t (.answered commit refusal))
  | .idleSent => some ((s.acknowledge false refusal).enter t (.idleDone (idleFailure refusal)))
  | _ => none

/-- What a request records next. -/
def record : Option (State T) :=
  match s.phase t with
  | .cleaned caller failure =>
    let s := { s.recorded failure with client := false }
    match caller with
    | .disconnect => some (s.leave t)
    | _ => some (s.return t (.failure failure))
  | .prepared commit =>
    some ((s.recorded ⟨if commit then .commitUnknown else .rollbackFailed, .unknown,
      "The transaction is ending"⟩).enter t (.deciding commit))
  | .answered commit none =>
    some ((s.recorded (ended commit)).enter t (.releasing commit none))
  | .answered commit (some refusal) => some (s.enter t (.releasing commit (some refusal)))
  | .releasing commit none =>
    some ({ s.recorded (ended commit) with client := false }.return t (.ended commit))
  | .releasing commit (some refusal) =>
    some ({ s.recorded (finishFailure commit refusal) with client := false }.return t
      (.failure (finishFailure commit refusal)))
  | .disconnecting busy =>
    some ((s.recorded ⟨.connectionLost, .unknown, "The connection was disconnected"⟩).enter t
      (.closing busy))
  | .expiring =>
    some ((s.recorded ⟨.idleTimeout, .unknown, "The idle transaction is being closed"⟩).enter t
      .idling)
  | .idleDone failure => some ((s.recorded failure).leave t)
  | .interrupted =>
    some ((s.recorded ⟨.connectionLost, .unknown, "Transaction request was interrupted"⟩).enter t
      .draining)
  | _ => none

/-- What becomes of a request whose future is dropped: an executing one leaves its guard. -/
def afterDrop : Phase → Option Phase
  | .entered _ _ | .ending _ | .admitted | .running | .succeeded | .broken _ _
  | .cleaning .execute _ _ _ | .rollingBack .execute _ _ | .cleaned .execute _ => some .dropped
  | .cleaning _ _ _ _ | .rollingBack _ _ _ | .cleaned _ _
  | .finishing _ | .prepared _ | .deciding _ | .sent _ | .answered _ _ | .releasing _ _
  | .disconnecting _ | .closing _ => some .idle
  | _ => none

/-- The effect of an action, where the request can take it. -/
def step (isConnectionError : Text → Bool) (s : State T) : Action T → Option (State T)
  | .tick elapsed => some { s with clock := s.clock + elapsed }
  | .cancel => some { s with cancelled := true }
  | .forget => some { s with ends := none }
  | .execute t contextChanged controlConflict =>
    match s.phase t with
    | .idle => some (execute s t contextChanged controlConflict)
    | _ => none
  | .lock t =>
    match s.holder with
    | none => locked s t
    | some _ => none
  | .remove t => remove s t
  | .readOnly t error =>
    match s.phase t, error with
    | .admitted, none => some (s.enter t .running)
    | .admitted, some error =>
      some ({ s with session := s.session.map fun _ => false }.return t
        (.failure ⟨.controlConflict, .unknown, error⟩))
    | _, _ => none
  | .sendSql t =>
    match s.phase t, s.transport, s.client, s.pending with
    | .running, .native, true, _ => some (s.message .userSql)
    | .running, .agent, _, false => some { s with pending := true }
    | _, _, _, _ => none
  | .callAgent => if s.pending then some { s.message .userSql with pending := false } else none
  | .ran t error tokenCancelled =>
    match s.phase t, s.pending, error with
    | .running, false, none => some (s.enter t .succeeded)
    | .running, false, some error =>
      some (s.enter t
        (.broken (tokenCancelled || s.cancelled || interrupts isConnectionError error) error))
    | _, _, _ => none
  | .settle t =>
    match s.phase t, s.session with
    | .succeeded, some _ =>
      some ({ s with session := some false, lastActivity := s.clock }.return t .rows)
    | .succeeded, none =>
      some (s.return t (.failure ⟨.connectionLost, .unknown,
        "Connection ended while the query was executing"⟩))
    | _, _ => none
  | .clean t refusal => clean s t refusal
  | .send t refusal => send s t refusal
  | .answer t refusal => answer s t refusal
  | .record t => record s t
  | .finish t commit =>
    match s.phase t with
    | .idle => some (finish s t commit)
    | _ => none
  | .disconnect t =>
    match s.phase t, s.session with
    | .idle, some busy =>
      if s.cancelled then some ({ s with session := none }.enter t (.disconnecting busy)) else none
    | _, _ => none
  | .watch t =>
    match s.phase t, s.session with
    | .idle, some false =>
      if s.expired then some ({ s with session := none }.enter t .expiring) else none
    | _, _ => none
  | .drop t => (afterDrop (s.phase t)).map fun phase => (s.leave t).enter t phase

/-- A session that has just begun. -/
def State.init (transport : Transport) (idleTimeout : Nat) : State T where
  clock := 0
  lastActivity := 0
  idleTimeout := idleTimeout
  transport := transport
  client := true
  session := some false
  cancelled := false
  holder := none
  pending := false
  ends := none
  wire := []
  reports := []
  phase _ := .idle

/-! ### What is to hold -/

/-- The outcome, where it is known, has been acknowledged. -/
def Acknowledged (wire : List Message) (outcome : Outcome) : Prop :=
  ∀ commit, outcome = outcomeOf commit → .acknowledged commit ∈ wire

/-- The message is a statement of the client: user SQL or an end of the transaction. -/
def Message.IsStatement : Message → Prop
  | .acknowledged _ => False
  | _ => True

/-- After an end of the transaction the client sends nothing more. -/
def Orderly (wire : List Message) : Prop :=
  ∀ before commit after, wire = before ++ .ending commit :: after →
    ∀ message ∈ after, ¬ message.IsStatement

/-- What is recorded and reported has been acknowledged, at most one end of the transaction is
sent, and no user SQL after it. -/
structure Honest : Prop where
  ends : ∀ failure ∈ s.ends, Acknowledged s.wire failure.outcome
  reports : ∀ report ∈ s.reports, Acknowledged s.wire report.outcome
  orderly : Orderly s.wire

/-- A known outcome is not replaced by a different one while it is retained. -/
def Keeps (isConnectionError : Text → Bool) (s : State T) (a : Action T) : Prop :=
  ∀ s', step isConnectionError s a = some s' → ∀ failure ∈ s.ends, failure.outcome ≠ .unknown →
    ∀ failure' ∈ s'.ends, failure'.outcome = failure.outcome

/-- The request has the session marked busy and may still roll the transaction back, also when the
connection's lifecycle is cancelled: it has not looked at it yet, or not since. -/
def Phase.RollsBack : Phase → Bool
  | .entered _ _ | .ending _ | .broken false _ => true
  | _ => false

/-- A disconnect takes no busy session whose request is about to roll it back. -/
def Unclaimed : Action T → Prop
  | .disconnect _ => ∀ u, (s.phase u).RollsBack = false
  | _ => True

end Dbx.SqlServer
