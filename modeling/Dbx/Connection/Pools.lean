import Dbx.Transition.Basic
import Mathlib.Logic.Function.Basic

/-!
# Pools of connections without a saved password

A connection whose password is not saved opens its pools with the password the web session of
the request has entered. Pools are shared under a key, so the application records for a key the
session that published the pool there, and a request reuses a registered pool only after a
comparison of that record with its own session. The pool map and the owner map have locks of
their own, and every lookup, publication, removal and recording is a critical section of its
own: here each is one action, and a run is any interleaving of them.

A request waits for a drain of its key, looks the pool up, compares the owner, and reuses the
pool or opens one of its own and publishes it. Publication (`insert_connection_pool_inner`)
inserts the pool, closes the one it replaced, looks whether the route is still there and only
then records the owner. While an agent request opens its pool it may reclaim an idle pool of the
same connection, and puts it back where it cannot be closed (`restore_reclaimed_agent_pool`).

## Main definitions

* `Phase`: where a request stands
* `step`: the effect of an action
* `reused`: the pool a request reuses with an action
-/

namespace Dbx.Connection

open Function (update)

/-- A pool: the session whose request opened it, and the password it was opened with. -/
structure Pool (S P : Type) where
  openedBy : S
  password : Option P
  deriving DecidableEq, Repr

/-- A pool request: its session and key; whether an existing pool is probed before reuse; whether
the driver looks the key up again after connecting, as the native MongoDB driver does; and the
password in the body of a plugin connection, which opens its pool without a lookup. -/
structure Request (S K P : Type) where
  session : S
  key : K
  validatesExisting : Bool
  rechecks : Bool
  plugin : Option P

/-- The requests of a run, and the connection a pool key belongs to. -/
structure Site (S K C P R : Type) where
  request : R → Request S K P
  connection : K → C

/-- Where a request stands. -/
inductive Phase (S K P : Type)
  | idle
  | waiting
  | lookingUp
  | checkingOwner
  /-- The owner check failed: `remove_stale_connection_pool` runs before a new pool is opened. -/
  | evicting
  /-- The owner check passed: the pool is probed and its activity touched before the return. -/
  | validating
  | waitingAgain
  | lookingUpAgain
  | connecting
  | opening (password : Option P)
  /-- The drain of an idle pool has begun. -/
  | draining (password : Option P) (victim : K)
  /-- The idle pool is out of the map and being closed. -/
  | reclaiming (password : Option P) (victim : K) (pool : Pool S P)
  | created (pool : Pool S P)
  | unpublished (pool : Pool S P)
  | ready (pool : Pool S P)
  /-- A pool is in the map under the key; the one it replaced is being closed. A restored pool
  resumes the opening of the request's own pool. -/
  | replacing (key : K) (resume : Option (Option P))
  /-- The route was seen available; the owner is recorded next. -/
  | recording (key : K) (resume : Option (Option P))
  | done
  | failed
  deriving DecidableEq, Repr

/-- The maps of the application, the drains in progress, and the phase of every request. The
passwords that sessions have entered are kept for the statement only. -/
structure State (S K C P R : Type) where
  connections : K → Option (Pool S P)
  owners : K → Option S
  credentials : S → C → Option P
  draining : K → Bool
  phase : R → Phase S K P
  entered : List (S × C × P)

/-- The critical sections. -/
inductive Action (S K C P R : Type)
  -- `SessionCredentialStore`
  | enterPassword (session : S) (connection : C) (password : P)
  | forgetPassword (session : S) (connection : C)
  | clearOwner (session : S)
  | clearConnection (connection : C)
  | clearCredentials
  | removePoolOwners (keys : List K)
  | clearPoolOwners
  /-- Any removal from the pool map: keepalive, idle reclaim, disconnect, drain. -/
  | detach (key : K)
  -- one request
  | begin (r : R)
  | wait (r : R)
  | lookup (r : R)
  | isolationMismatch (r : R)
  | checkOwner (r : R)
  | evict (r : R) (stale : Bool)
  | validate (r : R) (stale : Bool)
  | applyCredential (r : R)
  | beginDrain (r : R) (victim : K)
  | reclaim (r : R) (idle : Bool)
  | closeReclaimed (r : R)
  | restore (r : R)
  | openPool (r : R)
  | recheck (r : R)
  | awaitDrain (r : R)
  | publish (r : R) (available : Bool)
  | confirmRoute (r : R) (available : Bool)
  | recordOwner (r : R)
  | fail (r : R)
  /-- The request is dropped at an await. -/
  | cancel (r : R)

variable {S K C P R : Type} [DecidableEq S] [DecidableEq K] [DecidableEq C] [DecidableEq R]

variable (st : State S K C P R)

namespace State

/-- The state before any request. -/
def initial : State S K C P R :=
  { connections := fun _ => none, owners := fun _ => none, credentials := fun _ _ => none,
    draining := fun _ => false, phase := fun _ => .idle, entered := [] }

def setPhase (r : R) (phase : Phase S K P) : State S K C P R :=
  { st with phase := update st.phase r phase }

def detach (key : K) : State S K C P R :=
  { st with connections := update st.connections key none }

def insert (key : K) (pool : Pool S P) : State S K C P R :=
  { st with connections := update st.connections key (some pool) }

def setDraining (key : K) (draining : Bool) : State S K C P R :=
  { st with draining := update st.draining key draining }

/-- `record_pool_owner`. -/
def recordPoolOwner (key : K) (owner : S) : State S K C P R :=
  { st with owners := update st.owners key (some owner) }

/-- Removal of the owners of the keys that satisfy `p`. -/
def removeOwners (p : K → Bool) : State S K C P R :=
  { st with owners := fun key => if p key then none else st.owners key }

/-- Removal of the credentials that satisfy `p`. -/
def removeCredentials (p : S → C → Bool) : State S K C P R :=
  { st with credentials := fun s c => if p s c then none else st.credentials s c }

/-- `SessionCredentialStore::set`. -/
def enter (session : S) (connection : C) (password : P) : State S K C P R :=
  { st with
    credentials := fun s c => if s = session ∧ c = connection then some password
      else st.credentials s c
    entered := (session, connection, password) :: st.entered }

/-- `pool_owner_mismatch`. -/
def poolOwnerMismatch (key : K) (owner : S) : Bool :=
  match st.owners key with
  | none => true
  | some recorded => recorded != owner

end State

/-- The key whose drain a request holds. -/
def Phase.drains : Phase S K P → Option K
  | .draining _ victim | .reclaiming _ victim _ => some victim
  | .replacing key (some _) | .recording key (some _) => some key
  | _ => none

/-- The phase after a publication: a restored pool resumes the opening. -/
def Phase.resumed (resume : Option (Option P)) (final : Phase S K P) : Phase S K P :=
  match resume with
  | none => final
  | some password => .opening password

/-- The end of the drain that a request holds in the given phase. -/
def State.releaseDrain (phase : Phase S K P) : State S K C P R :=
  match phase.drains with
  | none => st
  | some key => st.setDraining key false

/-- The phases in which an error ends a request. -/
def Phase.mayFail : Phase S K P → Bool
  | .connecting | .opening _ | .created _ | .unpublished _ => true
  | _ => false

/-- The effect of an action; `none` where it is not enabled. -/
def step (site : Site S K C P R) (st : State S K C P R) :
    Action S K C P R → Option (State S K C P R)
  | .enterPassword session connection password => some (st.enter session connection password)
  | .forgetPassword session connection =>
    some (st.removeCredentials fun s c => s = session ∧ c = connection)
  | .clearOwner session => some (st.removeCredentials fun s _ => s = session)
  | .clearConnection connection =>
    some ((st.removeCredentials fun _ c => c = connection).removeOwners fun key =>
      site.connection key = connection)
  | .clearCredentials => some (st.removeCredentials fun _ _ => true)
  | .removePoolOwners keys => some (st.removeOwners fun key => keys.contains key)
  | .clearPoolOwners => some (st.removeOwners fun _ => true)
  | .detach key => some (st.detach key)
  | .begin r =>
    match st.phase r, (site.request r).plugin with
    | .idle, none => some (st.setPhase r .waiting)
    | .idle, some password =>
      some ((st.enter (site.request r).session (site.connection (site.request r).key)
        password).setPhase r (.opening (some password)))
    | _, _ => none
  | .wait r =>
    match st.phase r with
    | .waiting =>
      if st.draining (site.request r).key then none else some (st.setPhase r .lookingUp)
    | .waitingAgain =>
      if st.draining (site.request r).key then none else some (st.setPhase r .lookingUpAgain)
    | _ => none
  | .lookup r =>
    match st.phase r with
    | .lookingUp =>
      if (st.connections (site.request r).key).isSome then some (st.setPhase r .checkingOwner)
      else some (st.setPhase r .waitingAgain)
    | .lookingUpAgain =>
      if (st.connections (site.request r).key).isSome then some (st.setPhase r .waiting)
      else some (st.setPhase r .connecting)
    | _ => none
  | .isolationMismatch r =>
    match st.phase r with
    | .checkingOwner => some ((st.detach (site.request r).key).setPhase r .connecting)
    | _ => none
  | .checkOwner r =>
    match st.phase r with
    | .checkingOwner =>
      if st.poolOwnerMismatch (site.request r).key (site.request r).session then
        some (st.setPhase r .evicting)
      else some (st.setPhase r .validating)
    | _ => none
  | .evict r stale =>
    match st.phase r with
    | .evicting =>
      some ((if stale then st.detach (site.request r).key else st).setPhase r .connecting)
    | _ => none
  | .validate r stale =>
    match st.phase r with
    | .validating =>
      if stale then
        if (site.request r).validatesExisting then
          some ((st.detach (site.request r).key).setPhase r .connecting)
        else none
      else some (st.setPhase r .done)
    | _ => none
  | .applyCredential r =>
    match st.phase r with
    | .connecting => some (st.setPhase r (.opening (st.credentials (site.request r).session
        (site.connection (site.request r).key))))
    | _ => none
  | .beginDrain r victim =>
    match st.phase r with
    | .opening password =>
      if st.draining victim = false ∧
          site.connection victim = site.connection (site.request r).key then
        some ((st.setDraining victim true).setPhase r (.draining password victim))
      else none
    | _ => none
  | .reclaim r idle =>
    match st.phase r with
    | .draining password victim =>
      match (if idle then st.connections victim else none) with
      | some pool => some ((st.detach victim).setPhase r (.reclaiming password victim pool))
      | none => some ((st.setDraining victim false).setPhase r (.opening password))
    | _ => none
  | .closeReclaimed r =>
    match st.phase r with
    | .reclaiming password victim _ =>
      some ((st.setDraining victim false).setPhase r (.opening password))
    | _ => none
  | .restore r =>
    match st.phase r with
    | .reclaiming password victim pool =>
      some ((st.insert victim pool).setPhase r (.replacing victim (some password)))
    | _ => none
  | .openPool r =>
    match st.phase r with
    | .opening password =>
      let pool : Pool S P := ⟨(site.request r).session, password⟩
      some (st.setPhase r (if (site.request r).rechecks then .created pool else .unpublished pool))
    | _ => none
  | .recheck r =>
    match st.phase r with
    | .created pool =>
      if (st.connections (site.request r).key).isSome then some (st.setPhase r .done)
      else some (st.setPhase r (.unpublished pool))
    | _ => none
  | .awaitDrain r =>
    match st.phase r with
    | .unpublished pool =>
      if st.draining (site.request r).key then none else some (st.setPhase r (.ready pool))
    | _ => none
  | .publish r available =>
    match st.phase r with
    | .ready pool =>
      if available then
        some ((st.insert (site.request r).key pool).setPhase r
          (.replacing (site.request r).key none))
      else some (st.setPhase r .failed)
    | _ => none
  | .confirmRoute r available =>
    match st.phase r with
    | .replacing key resume =>
      if available && (st.connections key).isSome then some (st.setPhase r (.recording key resume))
      else
        some (((st.detach key).releaseDrain (st.phase r)).setPhase r (.resumed resume .failed))
    | _ => none
  | .recordOwner r =>
    match st.phase r with
    | .recording key resume =>
      some (((st.recordPoolOwner key (site.request r).session).releaseDrain (st.phase r)).setPhase
        r (.resumed resume .done))
    | _ => none
  | .fail r => if (st.phase r).mayFail then some (st.setPhase r .failed) else none
  | .cancel r =>
    match st.phase r with
    | .idle | .done | .failed => none
    | phase => some ((st.releaseDrain phase).setPhase r .failed)

/-- The pool that a request reuses with an action: the one registered under its key when it
returns the key without having published a pool of its own. -/
def reused (site : Site S K C P R) (st : State S K C P R) : Action S K C P R → Option (R × Pool S P)
  | .validate r false =>
    match st.phase r with
    | .validating => (st.connections (site.request r).key).map (Prod.mk r)
    | _ => none
  | .recheck r =>
    match st.phase r with
    | .created _ => (st.connections (site.request r).key).map (Prod.mk r)
    | _ => none
  | _ => none
end Dbx.Connection
