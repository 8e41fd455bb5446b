import Dbx.Text.Basic
import Dbx.Transition.Basic
import Mathlib.Data.Finset.Card

/-!
# The table of MCP sessions

A session is opening, active or closing. Each operation of `McpSessionStore` runs under one lock. It
reads the clock for the sweep of the idle sessions, and once more for the time of a use. Sessions
that leave `active` are handed to the caller, who has to close them. `take_all_active`, for the
shutdown of the server, hands out the closing sessions as well, which have been handed out before.

A session is its id here, with the time of its last use. Its connection, its database and its
transaction owner are stored and handed back, and decide nothing.

## Main results

* `perform_spec`: what an operation does with one id
* `sessions_safe`: the maps, their limit, what is resolved and what is handed out, on all runs
-/

namespace Dbx.Mcp.Sessions

open Transition Function

/-- The ids of the three maps, and the times of use that are read of their sessions. -/
structure Store where
  (opening active closing : Finset Text := ∅)
  (reservedAt lastUsed : Text → Nat := fun _ => 0)

/-- The operations, with the ids that new sessions get. -/
inductive Op
  | open (id : Text) | reserveOpening (id : Text) | promoteOpening (id : Text)
  | cancelOpening (id : Text) | attachTransactionOwner (id : Text) | resolve (id : Text)
  | beginClose (id : Text) | finishClose (id : Text) | restoreAfterFailedClose (id : Text)
  | takeAllActive
  deriving DecidableEq

/-- An operation, and the two readings of the clock. -/
structure Action where
  op : Op
  (now later : Nat)

/-- The session that an operation returns, and the sessions that its caller has to close. -/
structure Reply where
  result : Except String (Option Text) := .ok none
  handed : Multiset Text := 0

def maxSessions : Nat := 32

/-- `session_count`. -/
def Store.sessionCount (s : Store) : Nat := s.opening.card + s.active.card + s.closing.card

/-- A session is active, and was last used at the given time. -/
def Store.use (s : Store) (id : Text) (time : Nat) : Store :=
  { s with active := insert id s.active, lastUsed := update s.lastUsed id time }

variable (ttl : Nat) (s : Store) (a : Action)

/-- `sweep_expired`. -/
def sweepExpired (now : Nat) : Finset Text × Store :=
  let expired := s.active.filter fun id => ttl ≤ now - s.lastUsed id
  (expired, { s with active := s.active \ expired, closing := s.closing ∪ expired })

/-- `open` and `reserve_opening`, which differ in the place of the new session. -/
def openAt (id : Text) (place : Store → Store) : Reply × Store :=
  let (expired, s) := sweepExpired ttl s a.now
  if maxSessions ≤ s.sessionCount then
    (⟨.error ("Too many open MCP sessions (max 32). " ++
      "Close unused sessions with dbx_close_session."), expired.val⟩, s)
  else (⟨.ok (some id), expired.val⟩, place s)

/-- The methods of `McpSessionStore`. -/
def perform : Reply × Store :=
  match a.op with
  | .open id => openAt ttl s a id (·.use id a.later)
  | .reserveOpening id => openAt ttl s a id fun s =>
      { s with opening := insert id s.opening, reservedAt := update s.reservedAt id a.later }
  | .promoteOpening id =>
    if id ∈ s.opening then
      (⟨.ok (some id), 0⟩, { s with opening := s.opening.erase id }.use id (s.reservedAt id))
    else (⟨.error "MCP session opening was cancelled", 0⟩, s)
  | .cancelOpening id => (⟨.ok (if id ∈ s.opening then some id else none), 0⟩,
      { s with opening := s.opening.erase id })
  | .attachTransactionOwner id =>
    (if id ∈ s.active then {} else ⟨.error "MCP session is no longer active", 0⟩, s)
  | .resolve id =>
    let (expired, s) := sweepExpired ttl s a.now
    if id ∈ s.active then (⟨.ok (some id), expired.val⟩, s.use id a.later)
    else (⟨.ok none, expired.val⟩, s)
  | .beginClose id =>
    let (expired, s) := sweepExpired ttl s a.now
    if id ∈ s.active then (⟨.ok (some id), id ::ₘ expired.val⟩,
      { s with active := s.active.erase id, closing := insert id s.closing })
    else (⟨.ok none, expired.val⟩, s)
  | .finishClose id => ({}, { s with closing := s.closing.erase id })
  | .restoreAfterFailedClose id =>
    ({}, if id ∈ s.closing then { s with closing := s.closing.erase id }.use id a.later else s)
  -- the closing sessions stay in their map
  | .takeAllActive => ({ handed := s.closing.val + s.active.val }, { s with active := ∅ })

/-- The id that `new_session` draws. -/
def Op.drawn : Op → Option Text
  | .open id | .reserveOpening id => some id
  | _ => none

def Store.ids : Finset Text := s.opening ∪ s.active ∪ s.closing

/-- A step. No id is drawn that is in the table. -/
def step (s : Store) (a : Action) : Option Store :=
  if ∀ id ∈ s.ids, a.op.drawn ≠ some id then some (perform ttl s a).2 else none

/-! ## What is claimed of a step -/

/-- The id is in one map at most. -/
def Store.Apart (id : Text) : Prop :=
  ¬ (id ∈ s.opening ∧ id ∈ s.active) ∧ ¬ (id ∈ s.opening ∧ id ∈ s.closing) ∧
    ¬ (id ∈ s.active ∧ id ∈ s.closing)

/-- No id is in two maps, and the maps do not have too many. -/
structure Inv : Prop where
  apart : ∀ id, s.Apart id
  limit : s.sessionCount ≤ maxSessions

/-- What an operation resolves is active and has been idle for less than the time to live. -/
def Resolves : Prop :=
  ∀ id found, a.op = .resolve id → (perform ttl s a).1.result = .ok (some found) →
    found = id ∧ id ∈ s.active ∧ a.now - s.lastUsed id < ttl

/-- How often an operation hands an id to its caller. -/
def handedCount (id : Text) : Nat := (perform ttl s a).1.handed.count id

/-- A session is handed out once where it leaves `active`, and not otherwise. -/
def HandsOnce : Prop :=
  ∀ s', step ttl s a = some s' → ∀ id,
    handedCount ttl s a id = if id ∈ s.active ∧ id ∉ s'.active then 1 else 0

/-- A session is handed out once where it leaves `active`, and once more by `take_all_active` while
it is closing. -/
def Hands : Prop :=
  ∀ s', step ttl s a = some s' → ∀ id,
    handedCount ttl s a id = (if id ∈ s.active ∧ id ∉ s'.active then 1 else 0) +
      if a.op = .takeAllActive ∧ id ∈ s.closing then 1 else 0

/-! ## The operations -/

variable {ttl} {s} {a}

theorem sweepExpired_spec (ttl : Nat) (s : Store) (now : Nat) (id : Text) :
    (sweepExpired ttl s now).2.opening = s.opening ∧
      (id ∈ (sweepExpired ttl s now).1 ↔ id ∈ s.active ∧ ttl ≤ now - s.lastUsed id) ∧
      (id ∈ (sweepExpired ttl s now).2.active ↔ id ∈ s.active ∧ id ∉ (sweepExpired ttl s now).1) ∧
      (id ∈ (sweepExpired ttl s now).2.closing ↔
        id ∈ s.closing ∨ id ∈ (sweepExpired ttl s now).1) := by
  simp [sweepExpired]

theorem resolves (ttl : Nat) (s : Store) (a : Action) : Resolves ttl s a := by
  intro id found hop hresult
  have hspec := sweepExpired_spec ttl s a.now id
  simp only [perform, hop] at hresult
  split_ifs at hresult <;> cases hresult
  grind

theorem count_val (t : Finset Text) (id : Text) : t.val.count id = if id ∈ t then 1 else 0 :=
  Multiset.count_eq_of_nodup t.nodup

/-- **What an operation does with an id.** -/
theorem perform_spec (h : Inv s) (hdrawn : ∀ id ∈ s.ids, a.op.drawn ≠ some id) (id : Text) :
    (perform ttl s a).2.Apart id ∧ handedCount ttl s a id =
      (if id ∈ s.active ∧ id ∉ (perform ttl s a).2.active then 1 else 0) +
        if a.op = .takeAllActive ∧ id ∈ s.closing then 1 else 0 := by
  obtain ⟨op, now, later⟩ := a
  have hspec := sweepExpired_spec ttl s now id
  have hapart := h.apart id
  have hdrawn := hdrawn id
  simp only [Store.Apart, Store.ids, handedCount, Finset.mem_union] at hapart hdrawn ⊢
  cases op <;> simp only [perform, openAt, Store.use, Op.drawn] at hdrawn ⊢ <;> try split_ifs
  all_goals grind [count_val, Multiset.count_cons, Multiset.count_zero, Multiset.count_add]

/-- The sweep moves sessions from one map to another. -/
theorem sessionCount_sweepExpired (ttl : Nat) (s : Store) (now : Nat) :
    (sweepExpired ttl s now).2.sessionCount ≤ s.sessionCount := by
  have hactive := Finset.card_sdiff_add_card_eq_card
    (Finset.filter_subset (fun id => ttl ≤ now - s.lastUsed id) s.active)
  have hclosing := Finset.card_union_le s.closing
    (s.active.filter fun id => ttl ≤ now - s.lastUsed id)
  simp only [sweepExpired, Store.sessionCount]
  omega

theorem sessionCount_perform (h : s.sessionCount ≤ maxSessions) :
    (perform ttl s a).2.sessionCount ≤ maxSessions := by
  obtain ⟨op, now, later⟩ := a
  have hsweep := (sessionCount_sweepExpired ttl s now).trans h
  cases op <;> simp only [perform, openAt, Store.use] <;> try split_ifs
  all_goals grind [Store.sessionCount, Finset.card_insert_le, Finset.card_erase_of_mem,
    Finset.card_erase_le]

theorem Inv.step {s' : Store} (h : Inv s) (hstep : step ttl s a = some s') : Inv s' := by
  obtain ⟨hdrawn, ⟨⟩⟩ := Option.ite_none_right_eq_some.mp hstep
  exact ⟨fun id => (perform_spec h hdrawn id).1, sessionCount_perform h.limit⟩

theorem Inv.hands (h : Inv s) : Hands ttl s a := by
  intro s' hstep id
  obtain ⟨hdrawn, ⟨⟩⟩ := Option.ite_none_right_eq_some.mp hstep
  exact (perform_spec h hdrawn id).2

/-! ## Runs -/

/-- **The table of sessions**, on all runs: no id is in two maps, the limit is kept, and what is
resolved has not expired. A session is handed out once where it leaves `active`; only
`take_all_active` hands out others, namely those that are closing. -/
theorem sessions_safe (ttl : Nat) (actions : List Action) :
    (∀ s, run (step ttl) {} actions = some s → Inv s) ∧
      Along (step ttl) (Resolves ttl) {} actions ∧ Along (step ttl) (Hands ttl) {} actions := by
  have hinit : Inv {} := ⟨by simp [Store.Apart], by decide⟩
  refine ⟨fun s => run_invariant (fun _ _ _ h => h.step) hinit, .of_forall (resolves ttl) _ _, ?_⟩
  exact Along.of_invariant (I := Inv) (C := fun _ _ => True) (fun _ _ _ h _ => h.step)
    (fun _ _ h _ => h.hands) actions {} hinit (.of_forall (fun _ _ => trivial) _ _)

/-- A session is closed by a request while the server shuts down: both have to close it. -/
theorem not_handsOnce_closing :
    ¬ Along (step 1800) (HandsOnce 1800) {}
      [⟨.open ['1'], 0, 0⟩, ⟨.beginClose ['1'], 1, 1⟩, ⟨.takeAllActive, 2, 2⟩] := by
  rintro ⟨-, h⟩
  obtain ⟨-, h⟩ := h _ rfl
  have hcount := (h _ rfl).1 _ rfl ['1']
  revert hcount
  decide

end Dbx.Mcp.Sessions
