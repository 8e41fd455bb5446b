import Dbx.Mcp.Transaction

/-!
# The reports of the owner

The status of the owner is what the server has acknowledged, or unknown. The worker sends a message
only when nothing is in flight, so the server's transaction is the acknowledged one whenever the
worker waits.
-/

namespace Dbx.Mcp

open Transition

variable {R : Type} {D : Dialect} {timeoutSecs : Nat} {s s' : State R}

open Operation

/-- Only a status that is known says something: whether the acknowledged transaction is open, that a
commit was acknowledged, and that the work is rolled back. -/
structure Truthful (status : TransactionStatus) (acknowledged : Fate)
    (acknowledgedMessage : Option Message) : Prop where
  idle : status.state = .idle → acknowledged ≠ .pending
  active : status.state = .active → acknowledged = .pending
  committed : status.outcome = some .committed →
    acknowledgedMessage = some (.statement commit.sql)
  rolledBack : status.outcome = some .rolledBack → acknowledged = .rolledBack

/-- Nothing is in flight, and the server's transaction is the acknowledged one. -/
def Quiet (s : State R) : Prop := s.inFlight = none ∧ s.server = s.acknowledged

/-- The statement is in flight, and the server has acted on it at most once. -/
def Awaits (D : Dialect) (s : State R) (sql : Text) : Prop :=
  ∃ served, s.inFlight = some ⟨.statement sql, served⟩ ∧
    (served = false → s.server = s.acknowledged) ∧ D.Effect sql s.acknowledged s.server

/-- The worker has checked the command, and the status has not changed since. -/
structure Checked (D : Dialect) (status : TransactionStatus) (command : Command)
    (current : TransactionStatus) : Prop where
  known : status.state ≠ .unknown
  current : current = status
  accepted : command.operation.accepted D
  valid : invalid command.operation status.state = none

/-- The server has kept the acknowledged transaction or rolled it back. -/
def KeptOrRolledBack (s : State R) : Prop :=
  s.acknowledged = .pending → s.server = .pending ∨ s.server = .rolledBack

/-- What is known where the worker stands. -/
def Phase.Holds (D : Dialect) (s : State R) : Phase → Prop
  | .waiting => Quiet s ∧ s.status.state ≠ .unknown
  | .starting command current => Quiet s ∧ Checked D s.status command current
  | .executing command current =>
    Awaits D s command.operation.sql ∧ Checked D s.status command current
  | .refused command current _ _ =>
    s.inFlight = none ∧ KeptOrRolledBack s ∧ Checked D s.status command current
  | .probing command current _ _ =>
    (∃ served, s.inFlight = some ⟨.ping, served⟩) ∧ KeptOrRolledBack s ∧
      Checked D s.status command current
  | .leaving => s.status.state = .unknown ∨ Quiet s
  | .rollingBack => Awaits D s rollback.sql ∧ s.status.state = .active
  | .disconnecting | .closed => s.status.state ≠ .active ∧ (s.status.state = .unknown ∨ Quiet s)

/-- The invariant of the owner. -/
structure Inv (D : Dialect) (s : State R) : Prop where
  truthful : Truthful s.status s.acknowledged s.acknowledgedMessage
  phase : s.phase.Holds D s
  channel : ∀ command ∈ s.channel, command.operation.accepted D

theorem Inv.holds {s : State R} (h : Inv D s) {phase : Phase} (hphase : s.phase = phase) :
    phase.Holds D s := hphase ▸ h.phase

theorem Inv.init : Inv D ({} : State R) where
  truthful := ⟨by simp, by simp, by simp, by simp⟩
  phase := ⟨⟨rfl, rfl⟩, by simp⟩
  channel := by simp

/-! ## Steps -/

theorem Truthful.of_unknown (acknowledged : Fate) (message : Option Message) :
    Truthful ⟨.unknown, some .unknown⟩ acknowledged message :=
  ⟨by simp, by simp, by simp, by simp⟩

/-- A status made from the flag that the server has acknowledged. -/
theorem Truthful.of_flag {server : Fate} {outcome : Option TransactionOutcome}
    {message : Option Message}
    (hcommitted : outcome = some .committed → message = some (.statement commit.sql))
    (hrolledBack : outcome = some .rolledBack → server = .rolledBack) :
    Truthful (statusOf (server = .pending) outcome) server message := by
  refine ⟨?_, ?_, hcommitted, hrolledBack⟩
  · rintro hidle rfl
    cases hidle
  · intro hactive
    by_contra hnot
    rw [decide_eq_false hnot] at hactive
    cases hactive

theorem statusOf_known (inTransaction : Bool) (outcome : Option TransactionOutcome) :
    (statusOf inTransaction outcome).state ≠ .unknown := by
  cases inTransaction <;> simp [statusOf]

theorem Inv.giveUp (h : Inv D s) (command : Command) (code message : String)
    (mysqlCode : Option Nat) : Inv D (s.giveUp command code message mysqlCode) where
  truthful := .of_unknown _ _
  phase := .inl rfl
  channel := h.channel

open State

theorem Inv.interrupt (h : Inv D s) {owner : Bool} {raised : Nat → Bool}
    (hstep : s.interrupt owner raised = some s') : Inv D s' := by
  unfold State.interrupt at hstep
  split at hstep
  all_goals first
    | cases hstep
    | (split at hstep
       · cases hstep
         exact h.giveUp _ _ _ _
       · cases hstep)

variable {command : Command}

/-- The command in the channel passes the check, or is answered. -/
theorem Inv.handle (h : Inv D s) (hphase : s.phase = .waiting)
    (haccepted : command.operation.accepted D) :
    Inv D ({ s with channel := none }.handle command) := by
  have hholds := h.holds hphase
  unfold State.handle
  split
  · exact ⟨h.truthful, h.phase, by simp [fail, report]⟩
  · next hvalid => exact ⟨h.truthful, ⟨hholds.1, hholds.2, rfl, haccepted, hvalid⟩, by simp⟩

theorem Operation.isCommit_sql {operation : Operation} (h : operation.accepted D)
    (hcommit : operation ≠ .commit) : D.isCommit operation.sql = false := by
  cases operation with
  | begin => exact D.begin_not_commit
  | query sql maxRows => exact D.accepted_not_commit sql h
  | commit => exact absurd rfl hcommit
  | rollback => exact D.rollback_not_commit

theorem Inv.rolledBack_of (h : Inv D s) (hactive : s.status.state = .active)
    (hkept : KeptOrRolledBack s) (hflag : s.inTransaction = false) : s.server = .rolledBack := by
  rcases hkept (h.truthful.active hactive) with hpending | hrolled
  · rw [inTransaction, hpending] at hflag
    cases hflag
  · exact hrolled

variable {current : TransactionStatus}

/-- The status of an acknowledged statement is true of the server. -/
theorem Inv.succeed (h : Inv D s)
    (hphase : s.phase = .executing command current) {message : Message} {served : Bool}
    (hflight : s.inFlight = some ⟨message, served⟩) (result : R) :
    Inv D ((s.acknowledge message).succeed command result) := by
  obtain ⟨⟨served', hawaits, -, heffect⟩, hchecked⟩ := h.holds hphase
  obtain rfl : message = .statement command.operation.sql := by
    rw [hflight] at hawaits
    cases hawaits
    rfl
  unfold State.succeed
  split
  · next hexpected =>
    refine ⟨.of_flag ?_ ?_, ⟨⟨rfl, rfl⟩, statusOf_known _ _⟩, h.channel⟩
    · intro houtcome
      have hcommit : command.operation = .commit := by
        cases hop : command.operation <;> rw [hop] at houtcome <;> cases houtcome
      exact congrArg (some ∘ Message.statement ∘ sql) hcommit
    · intro houtcome
      have hrollback : command.operation = .rollback := by
        cases hop : command.operation <;> rw [hop] at houtcome <;> cases houtcome
      have hactive : s.status.state = .active := by
        have hvalid := hchecked.valid
        rw [hrollback] at hvalid
        cases hstate : s.status.state <;> rw [hstate] at hvalid <;> cases hvalid
      rw [hrollback] at hexpected heffect
      exact h.rolledBack_of hactive (heffect D.rollback_not_commit) hexpected
  · exact ⟨.of_unknown _ _, .inl rfl, h.channel⟩

/-- The server acts on a statement that is awaited, or on one that was given up. -/
theorem Phase.Holds.serve {phase : Phase} (h : phase.Holds D s) {sql : Text} {fate : Fate}
    (hflight : s.inFlight = some ⟨.statement sql, false⟩) (heffect : D.Effect sql s.server fate) :
    phase.Holds D { s with server := fate, inFlight := some ⟨.statement sql, true⟩ } := by
  have hnotQuiet : ¬ Quiet s := by
    rintro ⟨hnone, -⟩
    rw [hnone] at hflight
    cases hflight
  have hawaits : ∀ sql', Awaits D s sql' →
      Awaits D { s with server := fate, inFlight := some ⟨.statement sql, true⟩ } sql' := by
    rintro sql' ⟨served, hsome, hserver, -⟩
    rw [hflight] at hsome
    cases hsome
    rw [hserver rfl] at heffect
    exact ⟨true, rfl, fun hserved => absurd hserved (by decide), heffect⟩
  cases phase with
  | waiting | starting command current => exact absurd h.1 hnotQuiet
  | executing command current => exact ⟨hawaits _ h.1, h.2⟩
  | refused command current code message =>
    rw [h.1] at hflight
    cases hflight
  | probing command current code message =>
    obtain ⟨⟨served, hping⟩, -⟩ := h
    rw [hping] at hflight
    cases hflight
  | leaving => exact .inl (h.resolve_right hnotQuiet)
  | rollingBack => exact ⟨hawaits _ h.1, h.2⟩
  | disconnecting | closed => exact ⟨h.1, .inl (h.2.resolve_right hnotQuiet)⟩

variable {e : Event R}

/-- **Every event keeps the invariant.** -/
theorem Inv.step (h : Inv D s) (hstep : step D timeoutSecs s e = some s') : Inv D s' := by
  cases e with (simp only [Mcp.step] at hstep; try split at hstep <;> try cases hstep)
  | acquire =>
    unfold acquire
    split
    · exact ⟨h.truthful, h.phase, h.channel⟩
    · split
      · exact ⟨h.truthful, h.phase, h.channel⟩
      · exact ⟨h.truthful, h.phase, h.channel⟩
  | acquireCancelled | dropLease => exact ⟨h.truthful, h.phase, h.channel⟩
  | request operation =>
    next haccepted =>
      split at hstep
      · cases hstep
        exact ⟨h.truthful, h.phase, h.channel⟩
      split at hstep <;> cases hstep
      refine ⟨h.truthful, h.phase, ?_⟩
      rintro command ⟨⟩
      exact haccepted.2
  | cancel =>
    cases hstep
    exact ⟨h.truthful, h.phase, h.channel⟩
  | take =>
    next command hphase hchannel =>
      exact h.handle hphase (h.channel command (by rw [hchannel]; rfl))
  | stopCancelled =>
    next hwaiting => exact ⟨h.truthful, .inr (h.holds hwaiting.1).1, h.channel⟩
  | stopIdle => next hwaiting => exact ⟨h.truthful, .inr (h.holds hwaiting).1, h.channel⟩
  | send =>
    next hphase =>
      -- the statement is on its way, and the server may serve it at any time
      obtain ⟨⟨-, hserver⟩, hchecked⟩ := h.holds hphase
      refine ⟨h.truthful, ⟨?_, hchecked⟩, h.channel⟩
      exact ⟨false, rfl, fun _ => hserver, fun _ hpending => .inl (hserver.trans hpending)⟩
  | cancelled | requestDropped => exact h.interrupt hstep
  | succeeded result => next hphase hflight => exact h.succeed hphase hflight result
  | failed code message =>
    next hphase hflight =>
      obtain ⟨⟨served, -, -, heffect⟩, hchecked⟩ := h.holds hphase
      split at hstep <;> cases hstep
      -- after a failed commit nobody knows what the server did
      case isTrue => exact ⟨.of_unknown _ _, .inl rfl, h.channel⟩
      case isFalse hcommit =>
        have hnot := isCommit_sql hchecked.accepted hcommit
        exact ⟨h.truthful, ⟨rfl, heffect hnot, hchecked⟩, h.channel⟩
  | transportFailed message | timedOut => exact h.giveUp _ _ _ _
  | sendProbe =>
    next hphase =>
      obtain ⟨-, hkept, hchecked⟩ := h.holds hphase
      exact ⟨h.truthful, ⟨⟨false, rfl⟩, hkept, hchecked⟩, h.channel⟩
  | pinged =>
    next hphase =>
      obtain ⟨-, hkept, hchecked⟩ := h.holds hphase
      refine ⟨.of_flag ?_ ?_, ⟨⟨rfl, rfl⟩, statusOf_known _ _⟩, h.channel⟩
      · intro houtcome
        split at houtcome <;> cases houtcome
      · intro houtcome
        split at houtcome <;> cases houtcome
        next hlost =>
          rw [hchecked.current, Bool.and_eq_true, decide_eq_true_eq, Bool.not_eq_true'] at hlost
          exact h.rolledBack_of hlost.1 hkept hlost.2
  | probeFailed => exact h.giveUp _ _ _ _
  | cleanup =>
    next hphase =>
      have hholds := h.holds hphase
      split at hstep <;> cases hstep
      case isTrue hactive =>
        rcases hholds with hunknown | ⟨-, hserver⟩
        · rw [hunknown] at hactive
          cases hactive
        · refine ⟨h.truthful, ⟨?_, hactive⟩, h.channel⟩
          exact ⟨false, rfl, fun _ => hserver, fun _ hpending => .inl (hserver.trans hpending)⟩
      case isFalse hactive => exact ⟨h.truthful, ⟨hactive, hholds⟩, h.channel⟩
  | cleanupSucceeded =>
    next hphase hflight =>
      obtain ⟨⟨served, -, -, heffect⟩, hactive⟩ := h.holds hphase
      split at hstep <;> cases hstep
      case isTrue => exact ⟨.of_unknown _ _, ⟨by simp [setUnknown], .inl rfl⟩, h.channel⟩
      case isFalse hflag =>
        -- the flag says that no transaction is open, and a rollback does not commit
        have hrolled : s.server = .rolledBack :=
          h.rolledBack_of hactive (heffect D.rollback_not_commit) (Bool.eq_false_iff.mpr hflag)
        refine ⟨⟨?_, ?_, ?_, ?_⟩, ⟨by simp, .inr ⟨rfl, rfl⟩⟩, h.channel⟩
        · intro _
          show s.server ≠ .pending
          rw [hrolled]
          decide
        · rintro ⟨⟩
        · rintro ⟨⟩
        · intro _
          exact hrolled
  | cleanupFailed => exact ⟨.of_unknown _ _, ⟨by simp [setUnknown], .inl rfl⟩, h.channel⟩
  | finish =>
    next hphase =>
      have hholds := h.holds hphase
      split at hstep <;> cases hstep
      · exact ⟨h.truthful, hholds, by simp [fail, report]⟩
      · exact ⟨h.truthful, hholds, h.channel⟩
  | serve fate =>
    next hflight =>
      split at hstep <;> cases hstep
      next heffect => exact ⟨h.truthful, h.phase.serve hflight heffect, h.channel⟩

/-! ## What is reported and what is sent -/

/-- The worker is about to send a message. -/
def Sends (s : State R) : Phase → Prop
  | .starting _ _ => True
  | .refused _ _ _ _ => True
  | .leaving => s.status.state = .active
  | _ => False

/-- Behind the loop, only the cleanup of an active transaction changes the status. -/
def Winds (s s' : State R) : Phase → Prop
  | .leaving =>
    s'.status = s.status ∧
      (s'.phase = .leaving ∨
        s'.phase = if s.status.state = .active then .rollingBack else .disconnecting)
  | .rollingBack =>
    s'.status = s.status ∧ s'.phase = .rollingBack ∨ s'.phase = .disconnecting ∧
        (s'.status = ⟨.idle, some .rolledBack⟩ ∨ s'.status.state = .unknown)
  | .disconnecting | .closed =>
    s'.status = s.status ∧ (s'.phase = .disconnecting ∨ s'.phase = .closed)
  | _ => True

/-- The events with which the server acknowledges what a request asked for. -/
def Event.acknowledges : Event R → Bool
  | .succeeded _ | .pinged => true
  | _ => false

/-- The status changes with what the server acknowledges, by the cleanup, or to unknown. -/
inductive StatusStep (acknowledges : Bool) (s s' : State R) : Prop
  | kept (hstatus : s'.status = s.status)
  | lost (hunknown : s'.status.state = .unknown)
  | cleaned (hphase : s'.phase = .disconnecting) (hstatus : s'.status = ⟨.idle, some .rolledBack⟩)
  | acknowledged (hack : acknowledges = true)

/-- What an event does: new reports carry the new status, and only a worker that stands before a
message sends one. -/
structure Effects (acknowledges : Bool) (s s' : State R) : Prop where
  reports : ∃ new, s'.reports = s.reports ++ new ∧ ∀ report ∈ new, report.status = s'.status
  sent : s'.sent = s.sent ∨ Sends s s.phase
  winds : Winds s s' s.phase
  status : StatusStep acknowledges s s'

theorem Winds.refl (hphase : s'.phase = s.phase) (hstatus : s'.status = s.status) :
    Winds s s' s.phase := by
  cases hp : s.phase <;> rw [hp] at hphase
  case leaving => exact ⟨hstatus, .inl hphase⟩
  case rollingBack => exact .inl ⟨hstatus, hphase⟩
  case disconnecting => exact ⟨hstatus, .inl hphase⟩
  case closed => exact ⟨hstatus, .inr hphase⟩
  all_goals trivial

section Effects

variable {acknowledges : Bool}

theorem Effects.silent (hreports : s'.reports = s.reports)
    (hsent : s'.sent = s.sent ∨ Sends s s.phase) (hwinds : Winds s s' s.phase)
    (hstatus : StatusStep acknowledges s s') : Effects acknowledges s s' :=
  ⟨⟨[], by simp [hreports], by simp⟩, hsent, hwinds, hstatus⟩

theorem Effects.one {report : Report R} (hreports : s'.reports = s.reports ++ [report])
    (hreport : report.status = s'.status) (hsent : s'.sent = s.sent) (hwinds : Winds s s' s.phase)
    (hstatus : StatusStep acknowledges s s') : Effects acknowledges s s' :=
  ⟨⟨[report], hreports, by simpa using hreport⟩, .inl hsent, hwinds, hstatus⟩

theorem Effects.fail (request : Option Nat) (code message : String) (mysqlCode : Option Nat) :
    Effects acknowledges s (s.fail request code message mysqlCode) :=
  .one rfl rfl rfl (.refl rfl rfl) (.kept rfl)

theorem Effects.giveUp {code message : String} {mysqlCode : Option Nat}
    (hwinds : ∀ t : State R, Winds s t s.phase) :
    Effects acknowledges s (s.giveUp command code message mysqlCode) :=
  .one rfl rfl rfl (hwinds _) (.lost rfl)

theorem Effects.interrupt {owner : Bool} {raised : Nat → Bool}
    (hstep : s.interrupt owner raised = some s') : Effects acknowledges s s' := by
  unfold State.interrupt at hstep
  split at hstep
  all_goals first
    | cases hstep
    | (next hphase =>
       split at hstep
       · cases hstep
         exact .giveUp fun t => by rw [hphase]; trivial
       · cases hstep)

theorem Effects.handle (hphase : s.phase = .waiting) (command : Command) :
    Effects acknowledges s ({ s with channel := none }.handle command) := by
  have hwinds : ∀ t : State R, Winds s t s.phase := by
    intro t
    rw [hphase]
    trivial
  unfold State.handle
  split
  · exact .one rfl rfl rfl (hwinds _) (.kept rfl)
  · exact .silent rfl (.inl rfl) (hwinds _) (.kept rfl)

theorem Effects.succeed
    (hphase : s.phase = .executing command current) (message : Message) (result : R) :
    Effects true s ((s.acknowledge message).succeed command result) := by
  have hwinds : ∀ t : State R, Winds s t s.phase := by
    intro t
    rw [hphase]
    trivial
  unfold State.succeed
  split
  · exact .one rfl rfl rfl (hwinds _) (.acknowledged rfl)
  · exact .one rfl rfl rfl (hwinds _) (.acknowledged rfl)

end Effects

/-- **What every event does.** -/
theorem step_effects (hstep : step D timeoutSecs s e = some s') : Effects e.acknowledges s s' := by
  cases e with (simp only [step] at hstep; try split at hstep <;> try cases hstep)
  | acquire =>
    unfold acquire
    split
    · exact .fail _ _ _ _
    · split
      · exact .fail _ _ _ _
      · exact .silent rfl (.inl rfl) (.refl rfl rfl) (.kept rfl)
  | acquireCancelled => exact .fail _ _ _ _
  | request operation =>
    split at hstep
    · cases hstep
      exact .fail _ _ _ _
    · split at hstep <;> cases hstep
      exact .silent rfl (.inl rfl) (.refl rfl rfl) (.kept rfl)
  | dropLease => exact .silent rfl (.inl rfl) (.refl rfl rfl) (.kept rfl)
  | cancel =>
    cases hstep
    exact .silent rfl (.inl rfl) (.refl rfl rfl) (.kept rfl)
  | take => next command hphase hchannel => exact .handle hphase command
  | stopCancelled =>
    next hwaiting => exact .silent rfl (.inl rfl) (by rw [hwaiting.1]; trivial) (.kept rfl)
  | stopIdle =>
    next hwaiting => exact .silent rfl (.inl rfl) (by rw [hwaiting]; trivial) (.kept rfl)
  | send | sendProbe =>
    next hphase =>
      exact .silent rfl (.inr (by rw [hphase]; trivial)) (by rw [hphase]; trivial) (.kept rfl)
  | cancelled | requestDropped => exact .interrupt hstep
  | succeeded result => next message hphase hflight => exact .succeed hphase message result
  | failed code message =>
    next hphase hflight =>
      split at hstep <;> cases hstep
      · exact .one rfl rfl rfl (by rw [hphase]; trivial) (.lost rfl)
      · exact .silent rfl (.inl rfl) (by rw [hphase]; trivial) (.kept rfl)
  | transportFailed message | timedOut =>
    next hphase => exact .giveUp fun t => by rw [hphase]; trivial
  | pinged => next hphase => exact .one rfl rfl rfl (by rw [hphase]; trivial) (.acknowledged rfl)
  | probeFailed => next hphase => exact .giveUp fun t => by rw [hphase]; trivial
  | cleanup =>
    next hphase =>
      split at hstep <;> cases hstep
      case isTrue hactive =>
        -- a transaction that may be open is rolled back before the connection is closed
        refine .silent rfl (.inr (by rw [hphase]; exact hactive)) ?_ (.kept rfl)
        rw [hphase]
        exact ⟨rfl, .inr (by rw [if_pos hactive]; rfl)⟩
      case isFalse hactive =>
        refine .silent rfl (.inl rfl) ?_ (.kept rfl)
        rw [hphase]
        exact ⟨rfl, .inr (by rw [if_neg hactive])⟩
  | cleanupSucceeded =>
    next hphase hflight =>
      split at hstep <;> cases hstep
      · exact .silent rfl (.inl rfl) (by rw [hphase]; exact .inr ⟨rfl, .inr rfl⟩) (.lost rfl)
      · exact .silent rfl (.inl rfl) (by rw [hphase]; exact .inr ⟨rfl, .inl rfl⟩) (.cleaned rfl rfl)
  | cleanupFailed =>
    next hphase =>
      exact .silent rfl (.inl rfl) (by rw [hphase]; exact .inr ⟨rfl, .inr rfl⟩) (.lost rfl)
  | finish =>
    next hphase =>
      split at hstep <;> cases hstep
      · exact .one rfl rfl rfl (by rw [hphase]; exact ⟨rfl, .inr rfl⟩) (.kept rfl)
      · exact .silent rfl (.inl rfl) (by rw [hphase]; exact ⟨rfl, .inr rfl⟩) (.kept rfl)
  | serve fate =>
    split at hstep <;> cases hstep
    exact .silent rfl (.inl rfl) (.refl rfl rfl) (.kept rfl)

/-- A worker that does not know the state has left the loop. -/
theorem Inv.phase_of_unknown (h : Inv D s) (hunknown : s.status.state = .unknown) :
    s.phase = .leaving ∨ s.phase = .disconnecting ∨ s.phase = .closed := by
  have hholds := h.phase
  cases hp : s.phase <;> rw [hp] at hholds
  case waiting => exact absurd hunknown hholds.2
  case starting => exact absurd hunknown hholds.2.known
  case executing => exact absurd hunknown hholds.2.known
  case refused => exact absurd hunknown hholds.2.2.known
  case probing => exact absurd hunknown hholds.2.2.known
  case leaving => exact .inl rfl
  case rollingBack =>
    have hactive := hholds.2
    rw [hunknown] at hactive
    cases hactive
  case disconnecting => exact .inr (.inl rfl)
  case closed => exact .inr (.inr rfl)

/-- An unknown state stays unknown, and nothing more is sent. -/
theorem Inv.unknown_step (h : Inv D s) (hunknown : s.status.state = .unknown)
    (hstep : Mcp.step D timeoutSecs s e = some s') :
    s'.status.state = .unknown ∧ s'.sent = s.sent := by
  obtain ⟨-, hsent, hwinds, -⟩ := step_effects hstep
  rcases h.phase_of_unknown hunknown with hphase | hphase | hphase
  all_goals
    rw [hphase] at hsent hwinds
    refine ⟨by rw [hwinds.1]; exact hunknown, hsent.resolve_right fun hsends => ?_⟩
  · rw [Sends, hunknown] at hsends
    cases hsends
  · exact hsends
  · exact hsends

/-- A message is sent when nothing is in flight. -/
theorem Inv.inFlight_of_sends (h : Inv D s) (hsends : Sends s s.phase) : s.inFlight = none := by
  have hholds := h.phase
  cases hp : s.phase <;> rw [hp] at hholds hsends
  case starting => exact hholds.1.1
  case refused => exact hholds.1
  case leaving =>
    rcases hholds with hunknown | hquiet
    · rw [Sends, hunknown] at hsends
      cases hsends
    · exact hquiet.1
  all_goals exact hsends.elim

/-- A transaction that was active and has met no acknowledgement since. -/
def Closing (s : State R) : Prop :=
  s.status.state = .active ∨ s.status.state = .unknown ∨
    (s.phase = .disconnecting ∨ s.phase = .closed) ∧ s.status = ⟨.idle, some .rolledBack⟩

theorem Closing.step (h : Closing s) (hquiet : e.acknowledges = false)
    (hstep : Mcp.step D timeoutSecs s e = some s') : Closing s' := by
  obtain ⟨-, -, hwinds, hstatus⟩ := step_effects hstep
  cases hstatus with
  | lost hunknown => exact .inr (.inl hunknown)
  | cleaned hphase hstatus => exact .inr (.inr ⟨.inl hphase, hstatus⟩)
  | acknowledged hack =>
    rw [hquiet] at hack
    cases hack
  | kept hkept =>
    rcases h with hactive | hunknown | ⟨hphase, hrolled⟩
    · exact .inl (by rw [hkept]; exact hactive)
    · exact .inr (.inl (by rw [hkept]; exact hunknown))
    · refine .inr (.inr ⟨?_, by rw [hkept]; exact hrolled⟩)
      rcases hphase with hphase | hphase <;> rw [hphase] at hwinds <;> exact hwinds.2

/-- Behind the loop nothing of a request is acknowledged. -/
theorem step_leaving (hstep : step D timeoutSecs s e = some s')
    (hleft : s.phase = .leaving ∨ s.phase = .rollingBack ∨ s.phase = .disconnecting ∨
      s.phase = .closed) :
    e.acknowledges = false ∧ (s'.phase = .leaving ∨ s'.phase = .rollingBack ∨
      s'.phase = .disconnecting ∨ s'.phase = .closed) := by
  obtain ⟨-, -, hwinds, -⟩ := step_effects hstep
  constructor
  · cases e with
    | succeeded result | pinged => rcases hleft with h | h | h | h <;> simp [step, h] at hstep
    | _ => rfl
  · rcases hleft with h | h | h | h <;> rw [h] at hwinds
    · rcases hwinds.2 with hphase | hphase
      · exact .inl hphase
      · split at hphase
        · exact .inr (.inl hphase)
        · exact .inr (.inr (.inl hphase))
    · rcases hwinds with hkept | hcleaned
      · exact .inr (.inl hkept.2)
      · exact .inr (.inr (.inl hcleaned.1))
    · exact .inr (.inr hwinds.2)
    · exact .inr (.inr hwinds.2)

/-! ## Runs -/

/-- **The owner does not misreport.** In a state:

* the status is idle or active as the last acknowledged message left the server's transaction,
  committed only after an acknowledged commit, and rolled back only when the work is; while the
  worker waits, that is the server's transaction at this time;
* every report of the next event carries the status;
* an unknown status stays unknown, and nothing more is sent;
* no message is sent while one is in flight;
* closing the owner of an active transaction ends in a rollback or in an unknown state, unless the
  server acknowledges a request before the worker notices. -/
structure NeverMisreports (D : Dialect) (timeoutSecs : Nat) (s : State R) : Prop where
  truthful : Truthful s.status s.acknowledged s.acknowledgedMessage
  waiting : s.phase = .waiting → s.server = s.acknowledged
  reports : ∀ e s', step D timeoutSecs s e = some s' →
    ∃ new, s'.reports = s.reports ++ new ∧ ∀ report ∈ new, report.status = s'.status
  unknown : s.status.state = .unknown → ∀ es s', run (step D timeoutSecs) s es = some s' →
    s'.status.state = .unknown ∧ s'.sent = s.sent
  apart : ∀ e s', step D timeoutSecs s e = some s' → s'.sent ≠ s.sent → s.inFlight = none
  closing : s.status.state = .active → ∀ es s', run (step D timeoutSecs) s es = some s' →
    s'.phase = .closed → s.phase = .leaving ∨ (∀ e ∈ es, e.acknowledges = false) →
    s'.status = ⟨.idle, some .rolledBack⟩ ∧ s'.acknowledged = .rolledBack ∨
      s'.status.state = .unknown

variable {es : List (Event R)}

theorem Inv.unknown_run (h : Inv D s) (hunknown : s.status.state = .unknown)
    (hrun : run (Mcp.step D timeoutSecs) s es = some s') :
    s'.status.state = .unknown ∧ s'.sent = s.sent := by
  have hlast := run_invariant
    (I := fun t => Inv D t ∧ t.status.state = .unknown ∧ t.sent = s.sent) ?_ ⟨h, hunknown, rfl⟩ hrun
  · exact hlast.2
  · rintro t e t' ⟨hinv, ht, hsent⟩ hstep
    obtain ⟨ht', hsent'⟩ := hinv.unknown_step ht hstep
    exact ⟨hinv.step hstep, ht', hsent'.trans hsent⟩

/-- The end of a run from an active transaction, along which no request is acknowledged. -/
theorem Closing.run (h : Closing s) (hquiet : s.phase = .leaving ∨ ∀ e ∈ es, e.acknowledges = false)
    (hrun : run (Mcp.step D timeoutSecs) s es = some s') : Closing s' := by
  rcases hquiet with hleaving | hquiet
  · have hlast := run_invariant (I := fun t => Closing t ∧ (t.phase = .leaving ∨
      t.phase = .rollingBack ∨ t.phase = .disconnecting ∨ t.phase = .closed)) ?_
      ⟨h, .inl hleaving⟩ hrun
    · exact hlast.1
    · rintro t e t' ⟨ht, hleft⟩ hstep
      obtain ⟨hack, hleft'⟩ := step_leaving hstep hleft
      exact ⟨ht.step hack hstep, hleft'⟩
  · induction es generalizing s with
    | nil =>
      cases hrun
      exact h
    | cons e es ih =>
      obtain ⟨next, hnext, hrun⟩ := Option.bind_eq_some_iff.mp hrun
      exact ih (h.step (hquiet e (by simp)) hnext) hrun fun e he =>
        hquiet e (List.mem_cons_of_mem _ he)

/-- **The owner never misreports**, in any state that a run reaches. -/
theorem neverMisreports (hrun : run (step D timeoutSecs) {} es = some s) :
    NeverMisreports D timeoutSecs s := by
  have hinv : Inv D s := run_invariant (fun s e s' h hstep => h.step hstep) Inv.init hrun
  refine ⟨hinv.truthful, ?_, ?_, ?_, ?_, ?_⟩
  · intro hphase
    exact (hinv.holds hphase).1.2
  · intro e s' hstep
    exact (step_effects hstep).reports
  · intro hunknown es' s' hrun'
    exact hinv.unknown_run hunknown hrun'
  · intro e s' hstep hsent
    exact hinv.inFlight_of_sends ((step_effects hstep).sent.resolve_left hsent)
  · intro hactive es' s' hrun' hclosed hquiet
    have hinv' : Inv D s' := run_invariant (fun s e s' h hstep => h.step hstep) hinv hrun'
    have hholds := hinv'.holds hclosed
    have hclosing : Closing s := .inl hactive
    rcases hclosing.run hquiet hrun' with hactive' | hunknown | ⟨-, hrolled⟩
    · exact absurd hactive' hholds.1
    · exact .inr hunknown
    · exact .inl ⟨hrolled, hinv'.truthful.rolledBack (by rw [hrolled])⟩

/-- A server with the one statement that commits. -/
def plainDialect : Dialect where
  isCommit sql := sql = commit.sql
  accepts sql := sql ≠ commit.sql
  begin_not_commit := by decide +kernel
  rollback_not_commit := by decide +kernel
  accepted_not_commit := by simp

/-- A transaction that is begun, loses its work to a failed statement, and is closed. -/
def lostTransaction : List (Event Unit) :=
  [.acquire, .request .begin, .take, .send, .serve .pending, .succeeded (),
    .request (.query "UPDATE t SET a = 1".toList none), .take, .send, .serve .rolledBack,
    .failed 1213 "Deadlock found", .sendProbe, .pinged, .dropLease, .cancel, .stopCancelled,
    .cleanup, .finish]

theorem neverMisreports_lostTransaction :
    ∃ s, run (step plainDialect 300) {} lostTransaction = some s ∧
      s.status = ⟨.idle, some .rolledBack⟩ ∧ NeverMisreports plainDialect 300 s := by
  refine ⟨_, rfl, rfl, ?_⟩
  exact neverMisreports (show run (step plainDialect 300) {} lostTransaction = some _ from rfl)

end Dbx.Mcp
