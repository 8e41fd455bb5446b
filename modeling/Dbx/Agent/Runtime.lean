import Dbx.Keyed.Table
import Dbx.Text.Basic
import Dbx.Transition.Basic

/-!
# Shared agent runtimes and manual transactions

Several pools of the connection registry may use one agent process, the shared runtime of their
clients. A pool is detached from the registry, or closed after it was replaced or drained; where
that goes wrong in a way the runtime is to blame for, the runtime is stopped and every pool that
uses it is detached. A pool of a manual transaction holds an open transaction on its runtime. The
detaching functions look for such pools under the same lock they stop the runtime under. Closing
looks before it awaits the close and stops the runtime afterwards, and a failed open and a failed
reclaim do not look.

Each access to the registry is one action here, so a run is any interleaving of publications,
detaches, closes and failed opens.
-/

namespace Dbx.Agent

open Keyed Transition List

/-- `is_manual_transaction_pool_key`. -/
def isManualTransactionPoolKey (poolKey : Text) : Bool :=
  Text.containsText poolKey ":session:manual-txn-".toList

/-- `PooledAgentClient`: its identity and the shared runtime it is attached to, if any. -/
structure AgentClient where
  id : Nat
  sharedRuntime : Option Nat
  deriving DecidableEq, Repr

/-- `shares_runtime_with`. -/
def AgentClient.sharesRuntimeWith (client other : AgentClient) : Bool :=
  match client.sharedRuntime, other.sharedRuntime with
  | some runtime, some otherRuntime => runtime = otherRuntime
  | _, _ => false

/-- `PoolKind`, as far as agents are told from the rest. -/
inductive Pool
  | agent (client : AgentClient)
  | other
  deriving DecidableEq, Repr

/-- The pool is an agent's that shares the runtime of the client. -/
def Pool.sharesRuntimeWith (client : AgentClient) : Pool → Bool
  | .agent sibling => client.sharesRuntimeWith sibling
  | .other => false

/-- `uses_runtime`, of an agent's client. -/
def Pool.usesRuntime (runtime : Nat) : Pool → Bool
  | .agent client => client.sharedRuntime = some runtime
  | .other => false

/-- A published pool: its key and the identity of its publication. -/
structure Entry where
  key : Text
  pool : Pool
  publication : Nat
  deriving DecidableEq, Repr

/-- `ConnectionPoolRegistry`. -/
abbrev Registry := Table Entry.key

/-- A pool on its way out, under its former key. -/
structure Job where
  key : Text
  pool : Pool
  deriving DecidableEq, Repr

/-- A task that closes pools one after the other. What the registry had published when the task
looked is kept for the statements only. -/
inductive Task
  /-- `close_pool_with_timeout` is called on the first job next. -/
  | closing (jobs : List Job)
  /-- `close_pool_with_timeout` has looked for manual transactions and awaits the close. -/
  | awaiting (job : Job) (protectsManualTxn : Bool) (since : Nat) (rest : List Job)
  /-- `replace_runtime_after_close_failure` waits for the lock. -/
  | replacing (key : Text) (client : AgentClient) (since : Nat) (rest : List Job)
  /-- A pool was not published because its runtime had failed. -/
  | unavailable (key : Text) (client : AgentClient)
  /-- `close_reclaimed_agent_pool` is awaited. -/
  | reclaiming (key : Text) (client : AgentClient)
  /-- The close of a reclaimed pool has failed in a way that replaces the runtime. -/
  | replacingReclaimed (key : Text) (client : AgentClient)
  /-- The close of a reclaimed pool has failed otherwise. -/
  | restoring (key : Text) (client : AgentClient)
  deriving DecidableEq, Repr

/-- The registry, the runtimes that have failed or been killed, and the tasks. -/
structure State where
  registry : Registry
  nextPublication : Nat
  failed : List Nat
  tasks : List Task

/-- How the awaited close of a pool ends. -/
inductive Outcome
  | closed
  | failed (error : Text)
  | timedOut
  deriving DecidableEq, Repr

/-- The accesses to the registry, the ends of closes, and runtimes that die by themselves. -/
inductive Action
  | publish (key : Text) (pool : Pool) (keepExisting : Bool)
  | detachPoolByKey (key : Text) (replaceAgentRuntime : Bool)
  | detachAgentPoolIfCurrent (key : Text) (expectedClient : AgentClient)
      (expectedPublication : Option Nat) (replaceAgentRuntime : Bool)
  | drain (keys : List Text)
  | look (task : Nat)
  | finish (task : Nat) (outcome : Outcome)
  | replaceAfterClose (task : Nat)
  | replaceAfterOpen (runtime : Nat)
  | discard (task : Nat)
  | reclaim (key : Text)
  | reclaimed (task : Nat) (error : Option Text)
  | replaceAfterReclaim (task : Nat)
  | restore (task : Nat) (configured : Bool)
  | crash (runtime : Nat)
  deriving DecidableEq, Repr

/-- `is_available_for_routing`. -/
def Pool.isAvailableForRouting (failed : List Nat) : Pool → Bool
  | .agent client => client.sharedRuntime.all (· ∉ failed)
  | .other => true

def State.setTask (s : State) (i : Nat) (task : Task) : State :=
  { s with tasks := s.tasks.set i task }

def State.spawn (s : State) (task : Task) : State := { s with tasks := s.tasks ++ [task] }

/-- The entries leave the registry and are closed in the background (`finish_detach`). -/
def State.take (s : State) (removed : List Entry) : State :=
  let s := { s with registry := s.registry.erase fun e => removed.any (·.key = e.key) }
  if removed.isEmpty then s else s.spawn (.closing (removed.map fun e => ⟨e.key, e.pool⟩))

/-- `fail_stop` on a client, as far as shared runtimes go. -/
def State.failStop (s : State) (client : AgentClient) : State :=
  { s with failed := client.sharedRuntime.toList ++ s.failed }

/-- The entries of the registry that share the runtime of the client. -/
def State.siblings (s : State) (client : AgentClient) : List Entry :=
  s.registry.rows.filter (·.pool.sharesRuntimeWith client)

/-- The pool goes into the registry, under a publication of its own. -/
def State.insert (s : State) (key : Text) (pool : Pool) : State :=
  let row : Entry := ⟨key, pool, s.nextPublication⟩
  { s with
    registry := s.registry.upsert row (fun e => { row with key := e.key }) fun _ => rfl
    nextPublication := s.nextPublication + 1 }

/-- The pool goes into the registry, and the one it replaces is closed. -/
def State.replace (s : State) (key : Text) (pool : Pool) : State :=
  match s.registry.find key with
  | some entry => (s.insert key pool).spawn (.closing [⟨entry.key, entry.pool⟩])
  | none => s.insert key pool

/-- `insert_connection_pool_inner`, up to the close of the replaced pool. -/
def publish (s : State) (key : Text) (pool : Pool) (keepExisting : Bool) : State :=
  if keepExisting && (s.registry.find key).any (·.pool.isAvailableForRouting s.failed) then
    s.spawn (.closing [⟨key, pool⟩])
  else if pool.isAvailableForRouting s.failed then s.replace key pool
  else
    match pool with
    | .agent client => s.spawn (.unavailable key client)
    | .other => s.spawn (.closing [⟨key, pool⟩])

/-- `detach_pool_by_key`. -/
def detachPoolByKey (s : State) (key : Text) (replaceAgentRuntime : Bool) : State :=
  match s.registry.find key with
  | none => s
  | some entry =>
    match replaceAgentRuntime, entry.pool with
    | true, .agent client =>
      let siblings := (s.siblings client).filter (·.key ≠ key)
      if siblings.any (isManualTransactionPoolKey ·.key) || isManualTransactionPoolKey key then
        s.take [entry]
      else (s.take (entry :: siblings)).failStop client
    | _, _ => s.take [entry]

/-- `detach_agent_pool_if_current`. -/
def detachAgentPoolIfCurrent (s : State) (key : Text) (expectedClient : AgentClient)
    (expectedPublication : Option Nat) (replaceAgentRuntime : Bool) : State :=
  let entry := s.registry.find key
  let current := entry.filter fun e =>
    match e.pool with
    | .agent client => client.id = expectedClient.id
    | .other => false
  if expectedPublication.all fun p => entry.any (·.publication = p) then
    if replaceAgentRuntime then
      let runtimeEntries := s.siblings expectedClient
      if runtimeEntries.any (isManualTransactionPoolKey ·.key) ||
          isManualTransactionPoolKey key then
        s.take current.toList
      else (s.take runtimeEntries).failStop expectedClient
    else s.take current.toList
  else s

/-- `close_pool_with_timeout`, up to the close. -/
def look (s : State) (pool : Pool) : Bool :=
  match pool with
  | .agent client =>
    s.registry.rows.any fun e =>
      isManualTransactionPoolKey e.key && e.pool.sharesRuntimeWith client
  | .other => false

/-- `close_pool_with_timeout`, after the close. -/
def afterClose (shouldReplaceAgentRuntime : Text → Bool) (job : Job) (protectsManualTxn : Bool)
    (since : Nat) (rest : List Job) : Outcome → Task
  | .closed => .closing rest
  | .failed error =>
    match protectsManualTxn, job.pool with
    | false, .agent client =>
      if shouldReplaceAgentRuntime error then .replacing job.key client since rest
      else .closing rest
    | _, _ => .closing rest
  | .timedOut =>
    match protectsManualTxn, job.pool with
    | false, .agent client => .replacing job.key client since rest
    | _, _ => .closing rest

/-- `replace_runtime_after_close_failure`. -/
def replaceRuntimeAfterCloseFailure (s : State) (failedClient : AgentClient) : State :=
  (s.take (s.siblings failedClient)).failStop failedClient

/-- `replace_runtime_after_open_failure`. -/
def replaceRuntimeAfterOpenFailure (s : State) (failedRuntime : Nat) : State :=
  let s := s.take (s.registry.rows.filter (·.pool.usesRuntime failedRuntime))
  { s with failed := failedRuntime :: s.failed }

/-- `try_reclaim_idle_agent_pool`, up to the close. -/
def reclaim (s : State) (key : Text) : State :=
  match s.registry.find key with
  | some ⟨_, .agent client, _⟩ =>
    { s with registry := s.registry.erase (·.key = key) }.spawn (.reclaiming key client)
  | _ => s

/-- `restore_reclaimed_agent_pool`. Without a configuration of the connection the pool is put back
without a close of the one it replaces, which is dropped. -/
def restore (s : State) (key : Text) (client : AgentClient) (configured : Bool) : State :=
  if configured then publish s key (.agent client) false else s.insert key (.agent client)

/-- The effect of an action, where a task can take it. -/
def step (shouldReplaceAgentRuntime : Text → Bool) (s : State) : Action → Option State
  | .publish key pool keepExisting => some (publish s key pool keepExisting)
  | .detachPoolByKey key replaceAgentRuntime => some (detachPoolByKey s key replaceAgentRuntime)
  | .detachAgentPoolIfCurrent key expectedClient expectedPublication replaceAgentRuntime =>
    some (detachAgentPoolIfCurrent s key expectedClient expectedPublication replaceAgentRuntime)
  | .drain keys => some (s.take (s.registry.rows.filter (·.key ∈ keys)))
  | .look i =>
    match s.tasks[i]? with
    | some (.closing (job :: rest)) =>
      some (s.setTask i (.awaiting job (look s job.pool) s.nextPublication rest))
    | _ => none
  | .finish i outcome =>
    match s.tasks[i]? with
    | some (.awaiting job protectsManualTxn since rest) =>
      some (s.setTask i
        (afterClose shouldReplaceAgentRuntime job protectsManualTxn since rest outcome))
    | _ => none
  | .replaceAfterClose i =>
    match s.tasks[i]? with
    | some (.replacing _ client _ rest) =>
      some (replaceRuntimeAfterCloseFailure (s.setTask i (.closing rest)) client)
    | _ => none
  | .replaceAfterOpen runtime => some (replaceRuntimeAfterOpenFailure s runtime)
  | .discard i =>
    match s.tasks[i]? with
    | some (.unavailable key client) =>
      let s := s.setTask i (.closing [⟨key, .agent client⟩])
      some (replaceRuntimeAfterCloseFailure s client)
    | _ => none
  | .reclaim key => some (reclaim s key)
  | .reclaimed i error =>
    match s.tasks[i]?, error with
    | some (.reclaiming _ _), none => some (s.setTask i (.closing []))
    | some (.reclaiming key client), some error =>
      some (s.setTask i
        (if shouldReplaceAgentRuntime error then .replacingReclaimed key client
         else .restoring key client))
    | _, _ => none
  | .replaceAfterReclaim i =>
    match s.tasks[i]? with
    | some (.replacingReclaimed _ client) =>
      some (replaceRuntimeAfterCloseFailure (s.setTask i (.closing [])) client)
    | _ => none
  | .restore i configured =>
    match s.tasks[i]? with
    | some (.restoring key client) =>
      some (restore (s.setTask i (.closing [])) key client configured)
    | _ => none
  | .crash runtime => some { s with failed := runtime :: s.failed }

def State.init : State := ⟨Table.empty _, 0, [], []⟩

/-- The entry is the pool of a manual transaction that uses the runtime. -/
def Entry.Pins (e : Entry) (runtime : Nat) : Prop :=
  isManualTransactionPoolKey e.key ∧ e.pool.usesRuntime runtime

instance (e : Entry) (runtime : Nat) : Decidable (e.Pins runtime) :=
  inferInstanceAs (Decidable (_ ∧ _))

/-- The registry holds no pool of a manual transaction that uses the runtime. -/
def State.Unpinned (s : State) (runtime : Nat) : Prop :=
  ∀ e ∈ s.registry.rows, ¬ e.Pins runtime

instance (s : State) (runtime : Nat) : Decidable (s.Unpinned runtime) :=
  inferInstanceAs (Decidable (∀ e ∈ s.registry.rows, _))

/-- The action stops a running runtime. A runtime that dies by itself is stopped by no step. -/
def Stops (shouldReplaceAgentRuntime : Text → Bool) (s : State) (a : Action) (runtime : Nat) :
    Prop :=
  runtime ∉ s.failed ∧ a ≠ .crash runtime ∧
    ∃ s', step shouldReplaceAgentRuntime s a = some s' ∧ runtime ∈ s'.failed

/-- The action stops no runtime under an open manual transaction. -/
def Spares (shouldReplaceAgentRuntime : Text → Bool) (s : State) (a : Action) : Prop :=
  ∀ runtime, Stops shouldReplaceAgentRuntime s a runtime → s.Unpinned runtime

/-- The three steps that stop a runtime without looking. After a failed close no manual
transaction of the runtime has been published since the close looked; after a failed open and
after a failed reclaim there is no manual transaction of the runtime. -/
def Unthreatened (s : State) : Action → Prop
  | .replaceAfterClose i =>
    match s.tasks[i]? with
    | some (.replacing _ client since _) =>
      ∀ runtime ∈ client.sharedRuntime, runtime ∉ s.failed →
        ∀ e ∈ s.registry.rows, e.Pins runtime → e.publication < since
    | _ => True
  | .replaceAfterOpen runtime => runtime ∉ s.failed → s.Unpinned runtime
  | .replaceAfterReclaim i =>
    match s.tasks[i]? with
    | some (.replacingReclaimed _ client) =>
      ∀ runtime ∈ client.sharedRuntime, runtime ∉ s.failed → s.Unpinned runtime
    | _ => True
  | _ => True

instance (s : State) (a : Action) : Decidable (Unthreatened s a) := by
  unfold Unthreatened
  split
  · split <;> infer_instance
  · infer_instance
  · split <;> infer_instance
  · infer_instance

/-! ### What every step keeps -/

variable {client : AgentClient} {runtime : Nat}

section Fields

variable (s : State)

@[simp] theorem State.take_failed (removed : List Entry) : (s.take removed).failed = s.failed := by
  unfold State.take
  split <;> rfl

@[simp] theorem State.take_nextPublication (removed : List Entry) :
    (s.take removed).nextPublication = s.nextPublication := by
  unfold State.take
  split <;> rfl

@[simp] theorem State.insert_failed (key : Text) (pool : Pool) :
    (s.insert key pool).failed = s.failed := rfl

@[simp] theorem State.replace_failed (key : Text) (pool : Pool) :
    (s.replace key pool).failed = s.failed := by
  unfold State.replace
  cases s.registry.find key <;> rfl

@[simp] theorem publish_failed (key : Text) (pool : Pool) (keepExisting : Bool) :
    (publish s key pool keepExisting).failed = s.failed := by
  unfold publish
  split
  · rfl
  split
  · exact s.replace_failed key pool
  split <;> rfl

@[simp] theorem reclaim_failed (key : Text) : (reclaim s key).failed = s.failed := by
  unfold reclaim
  split <;> rfl

@[simp] theorem restore_failed (key : Text) (client : AgentClient) (configured : Bool) :
    (restore s key client configured).failed = s.failed := by
  unfold restore
  split <;> simp

theorem mem_failStop :
    runtime ∈ (s.failStop client).failed ↔ client.sharedRuntime = some runtime ∨
      runtime ∈ s.failed := by
  simp [State.failStop]

end Fields

open Pool

/-- The entries that share the runtime of a client are those that use it. -/
theorem Pool.sharesRuntimeWith_iff {pool : Pool} (h : client.sharedRuntime = some runtime) :
    pool.sharesRuntimeWith client ↔ pool.usesRuntime runtime := by
  cases pool with
  | other => simp [sharesRuntimeWith, usesRuntime]
  | agent sibling =>
    cases hsibling : sibling.sharedRuntime with
    | none =>
      simp [sharesRuntimeWith, AgentClient.sharesRuntimeWith, usesRuntime, hsibling]
    | some other =>
      simp [sharesRuntimeWith, AgentClient.sharesRuntimeWith, usesRuntime, h, hsibling, eq_comm]

/-- Since a close of the client's pool has looked, every manual transaction of its runtime in the
registry has been published afterwards. -/
def State.Looked (s : State) (client : AgentClient) (since : Nat) : Prop :=
  since ≤ s.nextPublication ∧ ∀ runtime ∈ client.sharedRuntime, ∀ e ∈ s.registry.rows,
    e.Pins runtime → since ≤ e.publication

/-- What a task may rely on. -/
def Task.Sound (s : State) : Task → Prop
  | .awaiting ⟨_, .agent client⟩ false since _ => s.Looked client since
  | .replacing _ client since _ => s.Looked client since
  | .unavailable _ client => ∀ runtime ∈ client.sharedRuntime, runtime ∈ s.failed
  | _ => True

/-- Entries leave the registry or are published now, and no failed runtime comes back. -/
structure Grows (s s' : State) : Prop where
  rows : ∀ e ∈ s'.registry.rows, e ∈ s.registry.rows ∨ s.nextPublication ≤ e.publication
  next : s.nextPublication ≤ s'.nextPublication
  failed : ∀ runtime ∈ s.failed, runtime ∈ s'.failed

variable {s s' : State}

theorem State.Looked.mono {since : Nat}
    (h : s.Looked client since) (hgrows : Grows s s') : s'.Looked client since := by
  refine ⟨h.1.trans hgrows.next, ?_⟩
  intro runtime hruntime e he hpins
  rcases hgrows.rows e he with hold | hnew
  · exact h.2 runtime hruntime e hold hpins
  · exact h.1.trans hnew

variable {task : Task}

theorem Task.Sound.mono (h : task.Sound s) (hgrows : Grows s s') :
    task.Sound s' := by
  unfold Task.Sound at h ⊢
  split at h
  · exact h.mono hgrows
  · exact h.mono hgrows
  · intro runtime hruntime
    exact hgrows.failed runtime (h runtime hruntime)
  · trivial

/-- One state becomes another: the registry grows, and every new task is sound. -/
structure Evolves (s s' : State) : Prop extends Grows s s' where
  tasks : ∀ task ∈ s'.tasks, task ∈ s.tasks ∨ task.Sound s'

variable (s)

theorem Evolves.refl : Evolves s s :=
  ⟨⟨fun _ he => .inl he, le_rfl, fun _ hr => hr⟩, fun _ htask => .inl htask⟩

theorem Evolves.trans {s s₁ s₂ : State} (h : Evolves s s₁) (h' : Evolves s₁ s₂) :
    Evolves s s₂ where
  rows e he := by
    rcases h'.rows e he with hold | hnew
    · exact h.rows e hold
    · exact .inr (h.next.trans hnew)
  next := h.next.trans h'.next
  failed runtime hruntime := h'.failed runtime (h.failed runtime hruntime)
  tasks task htask := by
    rcases h'.tasks task htask with hold | hnew
    · rcases h.tasks task hold with holder | hsound
      · exact .inl holder
      · exact .inr (hsound.mono h'.toGrows)
    · exact .inr hnew

theorem evolves_tasks {tasks : List Task} (h : ∀ task ∈ tasks, task ∈ s.tasks ∨ task.Sound s) :
    Evolves s { s with tasks } where
  __ := Evolves.refl s
  tasks task htask := (h task htask).imp_right fun hsound => hsound.mono ⟨fun _ => .inl, le_rfl,
    fun _ => id⟩

theorem evolves_spawn (h : task.Sound s) : Evolves s (s.spawn task) := by
  refine evolves_tasks s fun other hother => (mem_append.mp hother).imp_right fun hnew => ?_
  rwa [mem_singleton.mp hnew]

theorem evolves_setTask (i : Nat) (h : task.Sound s) : Evolves s (s.setTask i task) := by
  refine evolves_tasks s fun other hother => (mem_or_eq_of_mem_set hother).imp_right ?_
  rintro rfl
  exact h

theorem evolves_closing (i : Nat) (jobs : List Job) :
    Evolves s (s.setTask i (.closing jobs)) :=
  evolves_setTask s i (show (Task.closing jobs).Sound s from trivial)

theorem evolves_erase (p : Entry → Bool) :
    Evolves s { s with registry := s.registry.erase p } where
  __ := Evolves.refl s
  rows _ he := .inl (Table.mem_erase.mp he).1
  tasks _ := .inl

theorem evolves_take (removed : List Entry) : Evolves s (s.take removed) := by
  unfold State.take
  split
  · exact evolves_erase s _
  · exact (evolves_erase s _).trans (evolves_spawn _ trivial)

theorem evolves_fail (runtimes : List Nat) :
    Evolves s { s with failed := runtimes ++ s.failed } where
  __ := Evolves.refl s
  failed _ hr := mem_append_right _ hr
  tasks _ := .inl

theorem evolves_insert (key : Text) (pool : Pool) : Evolves s (s.insert key pool) := by
  refine ⟨⟨?_, Nat.le_succ _, fun _ hr => hr⟩, fun _ htask => .inl htask⟩
  -- an entry of the new registry is an old one, or carries the publication number of now
  intro e he
  rcases Table.mem_upsert he with ⟨hold, -⟩ | rfl | ⟨old, -, -, rfl⟩
  · exact .inl hold
  · exact .inr le_rfl
  · exact .inr le_rfl

theorem evolves_replace (key : Text) (pool : Pool) : Evolves s (s.replace key pool) := by
  unfold State.replace
  cases s.registry.find key with
  | none => exact evolves_insert s key pool
  | some entry => exact (evolves_insert s key pool).trans (evolves_spawn _ trivial)

theorem evolves_publish (key : Text) (pool : Pool) (keepExisting : Bool) :
    Evolves s (publish s key pool keepExisting) := by
  unfold publish
  split
  · exact evolves_spawn s trivial
  split
  · exact evolves_replace s key pool
  case isFalse hunavailable =>
  cases pool with
  | other => exact evolves_spawn s trivial
  | agent client =>
    refine evolves_spawn s ?_
    intro runtime hruntime
    simp only [isAvailableForRouting, Option.mem_def.mp hruntime, Option.all_some] at hunavailable
    simpa using hunavailable

theorem evolves_failStop (removed : List Entry) (client : AgentClient) :
    Evolves s ((s.take removed).failStop client) :=
  (evolves_take s removed).trans (evolves_fail _ _)

theorem evolves_detachPoolByKey (key : Text) (replace : Bool) :
    Evolves s (detachPoolByKey s key replace) := by
  unfold detachPoolByKey
  split
  · exact .refl s
  split
  · simp only
    split
    · exact evolves_take s _
    · exact evolves_failStop s _ _
  · exact evolves_take s _

theorem evolves_detachAgentPoolIfCurrent (key : Text) (expectedClient : AgentClient)
    (expectedPublication : Option Nat) (replace : Bool) :
    Evolves s (detachAgentPoolIfCurrent s key expectedClient expectedPublication
      replace) := by
  unfold detachAgentPoolIfCurrent
  simp only
  split
  · split
    · split
      · exact evolves_take s _
      · exact evolves_failStop s _ _
    · exact evolves_take s _
  · exact .refl s

theorem evolves_reclaim (key : Text) : Evolves s (reclaim s key) := by
  unfold reclaim
  split
  · exact (evolves_erase s _).trans (evolves_spawn _ trivial)
  · exact .refl s

theorem evolves_restore (key : Text) (client : AgentClient) (configured : Bool) :
    Evolves s (restore s key client configured) := by
  unfold restore
  split
  · exact evolves_publish s key _ false
  · exact evolves_insert s key _

/-- A close that has found no manual transaction of its runtime can rely on it. -/
theorem sound_look (job : Job) (rest : List Job) :
    (Task.awaiting job (look s job.pool) s.nextPublication rest).Sound s := by
  obtain ⟨key, pool⟩ := job
  cases pool with
  | other => trivial
  | agent client =>
    cases hlook : look s (.agent client) with
    | true => trivial
    | false =>
      refine ⟨le_rfl, ?_⟩
      intro runtime hruntime e he hpins
      -- the entry would have been found
      have hshares := (sharesRuntimeWith_iff (Option.mem_def.mp hruntime)).mpr hpins.2
      have hnone := any_eq_false.mp hlook e he
      simp [hpins.1, hshares] at hnone

variable {s}

/-- A close that fails goes on with what it knew. -/
theorem sound_afterClose {job : Job} {protectsManualTxn : Bool} {since : Nat}
    {rest : List Job} (h : (Task.awaiting job protectsManualTxn since rest).Sound s)
    (replaces : Text → Bool) (outcome : Outcome) :
    (afterClose replaces job protectsManualTxn since rest outcome).Sound s := by
  obtain ⟨key, pool⟩ := job
  cases outcome with
  | closed => trivial
  | failed error =>
    simp only [afterClose]
    split
    · split
      · exact h
      · trivial
    · trivial
  | timedOut =>
    simp only [afterClose]
    split
    · exact h
    · trivial

def Inv (s : State) : Prop := ∀ task ∈ s.tasks, task.Sound s

theorem Inv.init : Inv .init := by
  intro task htask
  simp [State.init] at htask

theorem Inv.evolve (h : Inv s) (hevolves : Evolves s s') : Inv s' := by
  intro task htask
  rcases hevolves.tasks task htask with hold | hnew
  · exact (h task hold).mono hevolves.toGrows
  · exact hnew

variable {a : Action}

theorem step_evolves {replaces : Text → Bool}
    (h : Inv s) (hstep : step replaces s a = some s') : Evolves s s' := by
  cases a with (simp only [step] at hstep; try split at hstep <;> try cases hstep)
  | publish key pool keepExisting =>
    cases hstep
    exact evolves_publish s key pool keepExisting
  | detachPoolByKey key replace =>
    cases hstep
    exact evolves_detachPoolByKey s key replace
  | detachAgentPoolIfCurrent key client publication replace =>
    cases hstep
    exact evolves_detachAgentPoolIfCurrent s key client publication replace
  | drain keys =>
    cases hstep
    exact evolves_take s _
  | look i => exact evolves_setTask s i (sound_look s _ _)
  | finish i outcome =>
    next hi =>
      exact evolves_setTask s i (sound_afterClose (h _ (mem_of_getElem? hi)) _ outcome)
  | replaceAfterClose i | discard i | replaceAfterReclaim i =>
    -- the siblings leave the registry, and the shared runtime is stopped
    exact (evolves_closing s i _).trans (evolves_failStop _ _ _)
  | replaceAfterOpen runtime =>
    cases hstep
    exact (evolves_take s _).trans (evolves_fail _ [runtime])
  | reclaim key =>
    cases hstep
    exact evolves_reclaim s key
  | reclaimed i error =>
    first
      | exact evolves_closing s i _
      | refine evolves_setTask s i ?_
        split <;> trivial
  | restore i configured => exact (evolves_closing s i _).trans (evolves_restore _ _ _ _)
  | crash runtime =>
    cases hstep
    exact evolves_fail s [runtime]

/-- **Every step keeps what the tasks rely on.** -/
theorem Inv.step {replaces : Text → Bool}
    (h : Inv s) (hstep : step replaces s a = some s') : Inv s' :=
  h.evolve (step_evolves h hstep)

/-! ### Which steps stop a runtime -/

variable {key : Text}

/-- Where no entry that shares the runtime of the client is a manual transaction's, nothing pins
the runtime that is stopped. -/
theorem unpinned_of_failStop {removed others : List Entry}
    (hrunning : runtime ∉ s.failed) (h : runtime ∈ ((s.take removed).failStop client).failed)
    (hfree : ¬(others.any (isManualTransactionPoolKey ·.key) || isManualTransactionPoolKey key))
    (hothers : ∀ e ∈ s.siblings client, e.key ≠ key → e ∈ others) : s.Unpinned runtime := by
  rw [mem_failStop, State.take_failed] at h
  rw [Bool.not_eq_true, Bool.or_eq_false_iff, any_eq_false] at hfree
  rintro e he ⟨hmanual, huses⟩
  by_cases hek : e.key = key
  · rw [hek, hfree.2] at hmanual
    cases hmanual
  · have hshares := (sharesRuntimeWith_iff (h.resolve_right hrunning)).mpr huses
    exact hfree.1 e (hothers e (mem_filter.mpr ⟨he, hshares⟩) hek) hmanual

/-- `detach_pool_by_key` looks under the lock it stops the runtime under. -/
theorem unpinned_of_detachPoolByKey {replace : Bool} (hrunning : runtime ∉ s.failed)
    (h : runtime ∈ (detachPoolByKey s key replace).failed) : s.Unpinned runtime := by
  unfold detachPoolByKey at h
  split at h
  · exact absurd h hrunning
  split at h
  · simp only at h
    split at h
    · exact absurd (by simpa using h) hrunning
    case isFalse hfree =>
      exact unpinned_of_failStop hrunning h hfree fun e he hek =>
        mem_filter.mpr ⟨he, by simpa using hek⟩
  · exact absurd (by simpa using h) hrunning

/-- `detach_agent_pool_if_current` looks under the lock it stops the runtime under. -/
theorem unpinned_of_detachAgentPoolIfCurrent
    {expectedClient : AgentClient} {expectedPublication : Option Nat} {replace : Bool}
    (hrunning : runtime ∉ s.failed)
    (h : runtime ∈ (detachAgentPoolIfCurrent s key expectedClient expectedPublication
      replace).failed) : s.Unpinned runtime := by
  unfold detachAgentPoolIfCurrent at h
  simp only at h
  split at h
  · split at h
    · split at h
      · exact absurd (by simpa using h) hrunning
      case isFalse hfree => exact unpinned_of_failStop hrunning h hfree fun e he _ => he
    · exact absurd (by simpa using h) hrunning
  · exact absurd h hrunning

variable {replaces : Text → Bool}

theorem spares_of_failed_eq (h : ∀ s', step replaces s a = some s' → s'.failed = s.failed) :
    Spares replaces s a := by
  rintro runtime ⟨hrunning, -, s', hstep, hfailed⟩
  exact absurd (h s' hstep ▸ hfailed) hrunning

/-- Replacing a client's runtime spares the manual transactions exactly if none pins it. -/
theorem spares_iff_of_replace {s t : State} (hstep : step replaces s a =
      some (replaceRuntimeAfterCloseFailure t client))
    (hfailed : t.failed = s.failed) (ha : ∀ runtime, a ≠ .crash runtime) :
    Spares replaces s a ↔
      ∀ runtime ∈ client.sharedRuntime, runtime ∉ s.failed → s.Unpinned runtime := by
  have hmem (runtime : Nat) : runtime ∈ (replaceRuntimeAfterCloseFailure t client).failed ↔
      client.sharedRuntime = some runtime ∨ runtime ∈ s.failed := by
    rw [replaceRuntimeAfterCloseFailure, mem_failStop, State.take_failed, hfailed]
  constructor
  · intro h runtime hruntime hrunning
    exact h runtime ⟨hrunning, ha runtime, _, hstep, (hmem runtime).mpr (.inl hruntime)⟩
  · rintro h runtime ⟨hrunning, -, s', hs', hstopped⟩
    obtain rfl := Option.some.inj (hs'.symm.trans hstep)
    exact h runtime (((hmem runtime).mp hstopped).resolve_right hrunning) hrunning

/-- **A step spares the manual transactions exactly if it is unthreatened**, in a state where
every task is sound. -/
theorem Inv.spares_iff (h : Inv s) (a : Action) :
    Spares replaces s a ↔ Unthreatened s a := by
  cases a with
  | publish key pool keepExisting =>
    refine iff_of_true (spares_of_failed_eq ?_) trivial
    rintro s' ⟨⟩
    exact publish_failed s key pool keepExisting
  | detachPoolByKey key replace =>
    refine iff_of_true ?_ trivial
    rintro runtime ⟨hrunning, -, s', ⟨⟩, hfailed⟩
    exact unpinned_of_detachPoolByKey hrunning hfailed
  | detachAgentPoolIfCurrent key client publication replace =>
    refine iff_of_true ?_ trivial
    rintro runtime ⟨hrunning, -, s', ⟨⟩, hfailed⟩
    exact unpinned_of_detachAgentPoolIfCurrent hrunning hfailed
  | drain keys =>
    refine iff_of_true (spares_of_failed_eq ?_) trivial
    rintro s' ⟨⟩
    exact s.take_failed _
  | look i | finish i outcome | reclaimed i error =>
    refine iff_of_true (spares_of_failed_eq ?_) trivial
    intro s' hstep
    simp only [Agent.step] at hstep
    split at hstep <;> cases hstep <;> rfl
  | replaceAfterClose i =>
    cases hi : s.tasks[i]? with
    | none => simp [Spares, Stops, Unthreatened, Agent.step, hi]
    | some task =>
      cases task with
      | replacing key client since rest =>
        have hstep : Agent.step replaces s (.replaceAfterClose i) =
            some (replaceRuntimeAfterCloseFailure (s.setTask i (.closing rest)) client) := by
          simp [Agent.step, hi]
        rw [spares_iff_of_replace hstep rfl (by simp)]
        simp only [Unthreatened, hi]
        -- what pins the runtime has been published since the close looked
        obtain ⟨-, hlooked⟩ := h _ (mem_of_getElem? hi)
        constructor
        · intro hunpinned runtime hruntime hrunning e he hpins
          exact absurd hpins (hunpinned runtime hruntime hrunning e he)
        · intro hold runtime hruntime hrunning e he hpins
          have hbefore := hold runtime hruntime hrunning e he hpins
          exact absurd (hlooked runtime hruntime e he hpins) (by omega)
      | _ => simp [Spares, Stops, Unthreatened, Agent.step, hi]
  | replaceAfterOpen runtime =>
    have hmem (other : Nat) : other ∈ (replaceRuntimeAfterOpenFailure s runtime).failed ↔
        other = runtime ∨ other ∈ s.failed := by
      simp [replaceRuntimeAfterOpenFailure]
    constructor
    · intro hspares hrunning
      exact hspares runtime ⟨hrunning, by simp, _, rfl, (hmem runtime).mpr (.inl rfl)⟩
    · rintro hunpinned other ⟨hrunning, -, s', ⟨⟩, hstopped⟩
      obtain rfl := ((hmem other).mp hstopped).resolve_right hrunning
      exact hunpinned hrunning
  | discard i =>
    refine iff_of_true ?_ trivial
    cases hi : s.tasks[i]? with
    | none => simp [Spares, Stops, Agent.step, hi]
    | some task =>
      cases task with
      | unavailable key client =>
        have hstep : Agent.step replaces s (.discard i) = some (replaceRuntimeAfterCloseFailure
              (s.setTask i (.closing [⟨key, .agent client⟩])) client) := by
          simp [Agent.step, hi]
        rw [spares_iff_of_replace hstep rfl (by simp)]
        -- the runtime had failed before
        intro runtime hruntime hrunning
        exact absurd (h _ (mem_of_getElem? hi) runtime hruntime) hrunning
      | _ => simp [Spares, Stops, Agent.step, hi]
  | reclaim key =>
    refine iff_of_true (spares_of_failed_eq ?_) trivial
    rintro s' ⟨⟩
    exact reclaim_failed s key
  | replaceAfterReclaim i =>
    cases hi : s.tasks[i]? with
    | none => simp [Spares, Stops, Unthreatened, Agent.step, hi]
    | some task =>
      cases task with
      | replacingReclaimed key client =>
        have hstep : Agent.step replaces s (.replaceAfterReclaim i) =
            some (replaceRuntimeAfterCloseFailure (s.setTask i (.closing [])) client) := by
          simp [Agent.step, hi]
        rw [spares_iff_of_replace hstep rfl (by simp)]
        simp only [Unthreatened, hi]
      | _ => simp [Spares, Stops, Unthreatened, Agent.step, hi]
  | restore i configured =>
    refine iff_of_true (spares_of_failed_eq ?_) trivial
    intro s' hstep
    simp only [Agent.step] at hstep
    split at hstep <;> cases hstep
    exact restore_failed _ _ _ configured
  | crash runtime =>
    refine iff_of_true ?_ trivial
    rintro other ⟨hrunning, hother, s', ⟨⟩, hfailed⟩
    rcases mem_cons.mp hfailed with rfl | hold
    · exact absurd rfl hother
    · exact absurd hold hrunning

theorem along_of_inv {C P : State → Action → Prop} (h : ∀ s a, Inv s → C s a → P s a)
    {actions : List Action} (halong : Along (step replaces) C .init actions) :
    Along (step replaces) P .init actions :=
  Along.of_invariant (fun _ _ _ hinv _ hstep => hinv.step hstep) h actions _ Inv.init halong

theorem unthreatened_of_spares {actions : List Action}
    (h : Along (step replaces) (Spares replaces) .init
      actions) : Along (step replaces) Unthreatened .init actions :=
  along_of_inv (fun _ a hinv => (hinv.spares_iff a).mp) h

/-- **A shared runtime is never stopped under an open manual transaction** along a run exactly if
every stop after a failed close finds no manual transaction of the runtime published since the
close looked, and every stop after a failed open or a failed reclaim finds none at all. -/
theorem spares_iff_unthreatened (shouldReplaceAgentRuntime : Text → Bool) (actions : List Action) :
    Along (step shouldReplaceAgentRuntime) (Spares shouldReplaceAgentRuntime) State.init actions ↔
      Along (step shouldReplaceAgentRuntime) Unthreatened State.init actions := by
  exact ⟨unthreatened_of_spares, along_of_inv fun _ a hinv => (hinv.spares_iff a).mpr⟩

def manualKey : Text := "c:session:manual-txn-1".toList

/-- The pool of a connection is drained. Its close looks and times out, and meanwhile a manual
transaction is opened on the same runtime. -/
def closeUnderTransaction : List Action :=
  [.publish ['c'] (.agent ⟨0, some 7⟩) false, .drain [['c']], .look 0,
    .publish manualKey (.agent ⟨1, some 7⟩) false, .finish 0 .timedOut, .replaceAfterClose 0]

/-- A pool of a manual transaction is published, and another open on its runtime fails. -/
def openUnderTransaction : List Action :=
  [.publish manualKey (.agent ⟨1, some 7⟩) false, .replaceAfterOpen 7]

theorem not_spares_closeUnderTransaction :
    ¬ Along (step fun _ => true) (Spares fun _ => true) State.init closeUnderTransaction ∧
    ¬ Along (step fun _ => true) (Spares fun _ => true) State.init openUnderTransaction := by
  refine ⟨?_, ?_⟩
  · intro hspares
    exact absurd (unthreatened_of_spares hspares) (by decide +kernel)
  · intro hspares
    exact absurd (unthreatened_of_spares hspares) (by decide +kernel)

end Dbx.Agent
