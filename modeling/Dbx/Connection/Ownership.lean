import Dbx.Connection.Pools
import Mathlib.Data.Fintype.Basic

/-!
# Ownership of pools

Reuse is safe along the runs in which the publications, owner checks and rechecks that different
sessions make for one key do not overlap. The invariant says that the pool under a key belongs to
the recorded owner, unless its publication is still to be recorded.
-/

namespace Dbx.Connection

variable {S K C P R : Type} {site : Site S K C P R} {st : State S K C P R}

/-- The key under which a request has put a pool whose owner is still to be recorded. -/
def Phase.pendingKey : Phase S K P → Option K
  | .replacing key _ | .recording key _ => some key
  | _ => none

/-- A pool is in the map under `key` and its owner is still to be recorded. -/
def Pending (phase : Phase S K P) (key : K) : Prop := phase.pendingKey = some key

/-- No request of another session has a publication of the key pending. -/
def NoOtherPending (site : Site S K C P R) (st : State S K C P R) (r : R) (key : K) : Prop :=
  ∀ r', (site.request r').session ≠ (site.request r).session → ¬ Pending (st.phase r') key

/-- No request of another session has passed the owner check of the key and not yet returned. -/
def NoOtherValidating (site : Site S K C P R) (st : State S K C P R) (r : R) (key : K) : Prop :=
  ∀ r', (site.request r').session ≠ (site.request r).session → (site.request r').key = key →
    st.phase r' ≠ .validating

/-- The steps that do not overlap with those of another session, and a dropped request has no
publication pending. -/
def Ordered (site : Site S K C P R) (st : State S K C P R) : Action S K C P R → Prop
  | .checkOwner r => NoOtherPending site st r (site.request r).key
  | .recheck r => st.connections (site.request r).key = none ∨
      (st.owners (site.request r).key = some (site.request r).session ∧
        NoOtherPending site st r (site.request r).key)
  | .publish r _ => NoOtherPending site st r (site.request r).key ∧
      NoOtherValidating site st r (site.request r).key
  | .restore r =>
    match st.phase r with
    | .reclaiming _ victim pool => pool.openedBy = (site.request r).session ∧
        NoOtherPending site st r victim ∧ NoOtherValidating site st r victim
    | _ => True
  | .cancel r => (st.phase r).pendingKey = none
  | _ => True

/-- The password of a pool was entered by the session that opened it. -/
def Entered (site : Site S K C P R) (st : State S K C P R) (key : K) (pool : Pool S P) : Prop :=
  ∀ password, pool.password = some password →
    (pool.openedBy, site.connection key, password) ∈ st.entered

/-- A request reuses pools that a request of its own session opened, with a password that the
session entered. -/
def ReusesOwn (site : Site S K C P R) (st : State S K C P R) (a : Action S K C P R) : Prop :=
  ∀ r pool, reused site st a = some (r, pool) → pool.openedBy = (site.request r).session ∧
    Entered site st (site.request r).key pool

variable {key : K} {resume : Option (Option P)}

open Phase List State

@[simp] theorem pending_replacing {key key' : K} :
    Pending (.replacing key resume : Phase S K P) key' ↔ key = key' := by
  simp [Pending, pendingKey]

@[simp] theorem pending_recording {key key' : K} :
    Pending (.recording key resume : Phase S K P) key' ↔ key = key' := by
  simp [Pending, pendingKey]

/-- What a request holds in a phase is its own. -/
def Held (site : Site S K C P R) (st : State S K C P R) (r : R) : Phase S K P → Prop
  | .opening password | .draining password _ | .replacing _ (some password)
  | .recording _ (some password) =>
    Entered site st (site.request r).key ⟨(site.request r).session, password⟩
  | .reclaiming password victim pool =>
    Entered site st (site.request r).key ⟨(site.request r).session, password⟩ ∧
      Entered site st victim pool
  | .created pool | .unpublished pool | .ready pool =>
    pool.openedBy = (site.request r).session ∧ Entered site st (site.request r).key pool
  | _ => True

/-- The ownership invariant. -/
structure Inv (site : Site S K C P R) (st : State S K C P R) : Prop where
  /-- The pool under a key belongs to the recorded owner, or its publication is pending. -/
  owned : ∀ key pool, st.connections key = some pool →
    (∃ r, (site.request r).session = pool.openedBy ∧ Pending (st.phase r) key) ∨
      ∀ owner, st.owners key = some owner → owner = pool.openedBy
  /-- While a publication is pending, the pool under its key is one of its session. -/
  pending : ∀ r key pool, Pending (st.phase r) key → st.connections key = some pool →
    pool.openedBy = (site.request r).session
  /-- Between the owner check and the return the pool is one of the session. -/
  validating : ∀ r pool, st.phase r = .validating →
    st.connections (site.request r).key = some pool → pool.openedBy = (site.request r).session
  entered : ∀ key pool, st.connections key = some pool → Entered site st key pool
  credentials : ∀ session connection password,
    st.credentials session connection = some password →
      (session, connection, password) ∈ st.entered
  held : ∀ r, Held site st r (st.phase r)

theorem Inv.heldAt (h : Inv site st) {r : R} {phase : Phase S K P} (hphase : st.phase r = phase) :
    Held site st r phase := hphase ▸ h.held r

theorem Inv.initial : Inv site (.initial : State S K C P R) where
  owned := by simp [State.initial]
  pending := by simp [State.initial]
  validating := by simp [State.initial]
  entered := by simp [State.initial]
  credentials := by simp [State.initial]
  held := by simp [State.initial, Held]

/-! ## The operations keep the invariant -/

variable {phase : Phase S K P}

/-- What a request holds depends on the entered passwords only. -/
theorem Held.mono {st' : State S K C P R} (hsub : ∀ e ∈ st.entered, e ∈ st'.entered) {r : R}
    (h : Held site st r phase) : Held site st' r phase := by
  have hentered {key : K} {pool : Pool S P} (h : Entered site st key pool) :
      Entered site st' key pool := fun password hp => hsub _ (h password hp)
  cases phase with
  | opening | draining => exact hentered h
  | replacing _ resume | recording _ resume =>
    cases resume with
    | none => trivial
    | some => exact hentered h
  | reclaiming => exact ⟨hentered h.1, hentered h.2⟩
  | created | unpublished | ready => exact ⟨h.1, hentered h.2⟩
  | _ => trivial

variable (h : Inv site st)

include h

theorem Inv.enter [DecidableEq S] [DecidableEq C] (session : S) (connection : C) (password : P) :
    Inv site (st.enter session connection password) where
  __ := h
  entered := fun key pool hpool _ hp => mem_cons_of_mem _ (h.entered key pool hpool _ hp)
  credentials := by
    intro s c p hp
    simp only [State.enter] at hp ⊢
    split at hp
    · next heq =>
      obtain ⟨rfl, rfl⟩ := heq
      cases hp
      exact mem_cons_self
    · exact mem_cons_of_mem _ (h.credentials s c p hp)
  held := fun r => (h.held r).mono fun _ he => mem_cons_of_mem _ he

theorem Inv.removeCredentials (p : S → C → Bool) :
    Inv site (st.removeCredentials p) where
  __ := h
  credentials := by
    intro s c password hp
    simp only [State.removeCredentials] at hp
    split at hp
    · cases hp
    · exact h.credentials s c password hp

theorem Inv.removeOwners (p : K → Bool) : Inv site (st.removeOwners p) where
  __ := h
  owned := by
    intro key pool hpool
    refine (h.owned key pool hpool).imp_right fun howner owner hrecorded => ?_
    simp only [State.removeOwners] at hrecorded
    split at hrecorded
    · cases hrecorded
    · exact howner owner hrecorded

theorem Inv.setDraining [DecidableEq K] (key : K) (draining : Bool) :
    Inv site (st.setDraining key draining) where
  __ := h

attribute [local simp] detach

theorem Inv.detach [DecidableEq K] (key : K) : Inv site (st.detach key) := by
  have hsub {key' : K} {pool : Pool S P} (hpool : (st.detach key).connections key' = some pool) :
      st.connections key' = some pool := by
    by_cases heq : key' = key
    · simp [heq] at hpool
    · simpa [heq] using hpool
  exact
    { owned := fun key' pool hpool => h.owned key' pool (hsub hpool)
      pending := fun r key' pool hpending hpool => h.pending r key' pool hpending (hsub hpool)
      validating := fun r pool hphase hpool => h.validating r pool hphase (hsub hpool)
      entered := fun key' pool hpool => h.entered key' pool (hsub hpool)
      credentials := h.credentials
      held := h.held }

omit h

variable {r : R}

attribute [local simp] recordPoolOwner setPhase

/-- Recording the owner of a pending publication. -/
theorem Inv.recordPoolOwner [DecidableEq K] (h : Inv site st)
    (hpending : Pending (st.phase r) key) :
    Inv site (st.recordPoolOwner key (site.request r).session) where
  __ := h
  owned := by
    intro key' pool hpool
    by_cases heq : key' = key
    · subst heq
      refine .inr fun owner howner => ?_
      have hsession := h.pending r key' pool hpending hpool
      simp only [recordPoolOwner, Function.update_self, Option.some.injEq] at howner
      rw [← howner, hsession]
    · simpa [heq] using h.owned key' pool hpool

/-- A request moves to another phase. It may claim a validated pool only where the pool is its
own, may not claim a publication it has not made, and may leave a publication behind only where
the pool is gone or its owner is recorded. -/
theorem Inv.setPhase [DecidableEq R] (h : Inv site st) (hheld : Held site st r phase)
    (hvalid : phase = .validating → ∀ pool, st.connections (site.request r).key = some pool →
      pool.openedBy = (site.request r).session)
    (hpending : ∀ key, Pending phase key → Pending (st.phase r) key)
    (hleave : ∀ key pool, Pending (st.phase r) key → st.connections key = some pool →
      Pending phase key ∨ ∀ owner, st.owners key = some owner → owner = pool.openedBy) :
    Inv site (st.setPhase r phase) := by
  have hphase (r' : R) :
      (st.setPhase r phase).phase r' = if r' = r then phase else st.phase r' := by
    simp [Function.update_apply]
  refine ⟨?_, ?_, ?_, h.entered, h.credentials, ?_⟩
  · -- a publication that the request leaves behind has its owner recorded
    intro key pool hpool
    obtain ⟨r', hsession, hpend⟩ | howner := h.owned key pool hpool
    · by_cases heq : r' = r
      · subst heq
        refine (hleave key pool hpend hpool).imp_left fun hpend' => ⟨r', hsession, ?_⟩
        simpa [hphase] using hpend'
      · exact .inl ⟨r', hsession, by simpa [hphase, heq] using hpend⟩
    · exact .inr howner
  · intro r' key pool hpend hpool
    by_cases heq : r' = r
    · subst heq
      rw [hphase, if_pos rfl] at hpend
      exact h.pending r' key pool (hpending key hpend) hpool
    · rw [hphase, if_neg heq] at hpend
      exact h.pending r' key pool hpend hpool
  · intro r' pool hval hpool
    by_cases heq : r' = r
    · subst heq
      rw [hphase, if_pos rfl] at hval
      exact hvalid hval pool hpool
    · rw [hphase, if_neg heq] at hval
      exact h.validating r' pool hval hpool
  · intro r'
    by_cases heq : r' = r
    · subst heq
      rw [hphase, if_pos rfl]
      exact hheld
    · rw [hphase, if_neg heq]
      exact h.held r'

/-- A publication of a pool of the session, while no other session has a publication of the key
pending or has passed its owner check. -/
theorem Inv.publish [DecidableEq S] [DecidableEq K] [DecidableEq R] (h : Inv site st)
    {pool : Pool S P} (hown : pool.openedBy = (site.request r).session)
    (hentered : Entered site st key pool) (hheld : Held site st r (.replacing key resume))
    (hphase : (st.phase r).pendingKey = none)
    (hpending : NoOtherPending site st r key) (hvalidating : NoOtherValidating site st r key) :
    Inv site ((st.insert key pool).setPhase r (.replacing key resume)) := by
  let st' := (st.insert key pool).setPhase r (.replacing key resume)
  have hself : st'.phase r = .replacing key resume := by simp [st']
  have hother {r' : R} (hne : r' ≠ r) : st'.phase r' = st.phase r' := by
    simp [st', State.insert, hne]
  -- the map has the new pool at the key, and the old ones elsewhere
  have hpool {key' : K} {pool' : Pool S P} (hpool' : st'.connections key' = some pool') :
      key' = key ∧ pool' = pool ∨ key' ≠ key ∧ st.connections key' = some pool' := by
    by_cases heq : key' = key
    · subst heq
      exact .inl ⟨rfl, by simpa [st', State.insert, eq_comm] using hpool'⟩
    · exact .inr ⟨heq, by simpa [st', State.insert, heq] using hpool'⟩
  refine ⟨?_, ?_, ?_, ?_, h.credentials, ?_⟩
  · -- the owner of the new pool is not recorded, but its publication is pending
    intro key' pool' hpool'
    obtain ⟨rfl, rfl⟩ | ⟨hne, hpool'⟩ := hpool hpool'
    · exact .inl ⟨r, hown.symm, by rw [hself, pending_replacing]⟩
    · refine (h.owned key' pool' hpool').imp_left ?_
      rintro ⟨r', hsession, hpend⟩
      have hr' : r' ≠ r := by
        rintro rfl
        simp [Pending, hphase] at hpend
      exact ⟨r', hsession, by rwa [hother hr']⟩
  · -- another session with a publication pending would lose its pool
    intro r' key' pool' hpend hpool'
    by_cases hr' : r' = r
    · subst hr'
      obtain rfl : key = key' := by rwa [hself, pending_replacing] at hpend
      obtain ⟨-, rfl⟩ | ⟨hne, -⟩ := hpool hpool'
      · exact hown
      · exact absurd rfl hne
    · rw [hother hr'] at hpend
      obtain ⟨rfl, rfl⟩ | ⟨-, hpool'⟩ := hpool hpool'
      · by_contra hsession
        exact hpending r' (fun heq => hsession (hown.trans heq.symm)) hpend
      · exact h.pending r' key' pool' hpend hpool'
  · -- another session that has passed its check would be given this pool
    intro r' pool' hval hpool'
    have hr' : r' ≠ r := by
      rintro rfl
      rw [hself] at hval
      cases hval
    rw [hother hr'] at hval
    obtain ⟨hkey, rfl⟩ | ⟨-, hpool'⟩ := hpool hpool'
    · by_contra hsession
      exact hvalidating r' (fun heq => hsession (hown.trans heq.symm)) hkey hval
    · exact h.validating r' pool' hval hpool'
  · intro key' pool' hpool'
    obtain ⟨rfl, rfl⟩ | ⟨-, hpool'⟩ := hpool hpool'
    · exact hentered
    · exact h.entered key' pool' hpool'
  · intro r'
    by_cases hr' : r' = r
    · subst hr'
      rw [hself]
      exact hheld
    · rw [hother hr']
      exact h.held r'

/-! ## Steps and runs -/

@[simp] theorem not_pending_resumed
    (h : ¬ Pending phase key) : ¬ Pending (.resumed resume phase) key := by
  cases resume with
  | none => exact h
  | some => simp [resumed, Pending, pendingKey]

theorem Inv.quiet [DecidableEq R] (h : Inv site st) {old new : Phase S K P}
    (hphase : st.phase r = old) (hold : old.pendingKey = none) (hnew : new.pendingKey = none)
    (hvalid : new ≠ .validating) (hheld : Held site st r new) : Inv site (st.setPhase r new) := by
  refine h.setPhase hheld (fun heq => absurd heq hvalid) (fun key hp => ?_) fun key _ hp => ?_
  · simp [Pending, hnew] at hp
  · simp [Pending, hphase, hold] at hp

theorem Inv.releaseDrain [DecidableEq K] [DecidableEq R] (h : Inv site st) (phase : Phase S K P) :
    Inv site (st.releaseDrain phase) := by
  unfold State.releaseDrain
  split
  · exact h
  · exact h.setDraining _ _

@[simp] theorem releaseDrain_phase [DecidableEq K] (phase : Phase S K P) :
    (st.releaseDrain phase).phase = st.phase := by
  unfold releaseDrain
  split <;> rfl

@[simp] theorem releaseDrain_connections [DecidableEq K] (phase : Phase S K P) :
    (st.releaseDrain phase).connections = st.connections := by
  unfold releaseDrain
  split <;> rfl

@[simp] theorem releaseDrain_owners [DecidableEq K] (phase : Phase S K P) :
    (st.releaseDrain phase).owners = st.owners := by
  unfold releaseDrain
  split <;> rfl

/-- A publication ends with the pool gone from the map or its owner recorded. -/
theorem Inv.endPublication [DecidableEq K] [DecidableEq R] (h : Inv site st) (key : K)
    {drained final : Phase S K P}
    (hover : st.connections key = none ∨ st.owners key = some (site.request r).session)
    (hphase : st.phase r = .replacing key resume ∨ st.phase r = .recording key resume)
    (hpending : final.pendingKey = none) (hvalid : final ≠ .validating)
    (hfinal : Held site st r final) :
    Inv site ((st.releaseDrain drained).setPhase r (.resumed resume final)) := by
  have hpend : Pending (st.phase r) key := by
    obtain hphase | hphase := hphase <;> simp [hphase]
  refine (h.releaseDrain drained).setPhase ?_ ?_ ?_ ?_
  · -- what is resumed was held by the request before
    have hheld := h.held r
    have hresumed : Held site st r (.resumed resume final) := by
      cases resume with
      | none => exact hfinal
      | some password => obtain hphase | hphase := hphase <;> rw [hphase] at hheld <;> exact hheld
    refine hresumed.mono fun e he => ?_
    unfold State.releaseDrain
    split <;> exact he
  · cases resume with
    | none => exact fun heq => absurd heq hvalid
    | some password => simp [resumed]
  · exact fun key' hpend' => absurd hpend' (not_pending_resumed (by simp [Pending, hpending]))
  · -- the publication that is left behind is the one that ends
    intro key' pool hpend' hpool
    rw [releaseDrain_connections] at hpool
    obtain rfl : key = key' := by
      obtain hphase | hphase := hphase <;> simpa [hphase] using hpend'
    refine .inr fun owner howner => ?_
    rw [releaseDrain_owners] at howner
    obtain hnone | hrecorded := hover
    · simp [hnone] at hpool
    · have hsession := h.pending r key pool hpend hpool
      rw [hrecorded] at howner
      cases howner
      exact hsession.symm

theorem Inv.owner_matches [DecidableEq S] (h : Inv site st) {pool : Pool S P}
    (hpending : NoOtherPending site st r key)
    (howner : st.owners key = some (site.request r).session)
    (hpool : st.connections key = some pool) : pool.openedBy = (site.request r).session := by
  obtain ⟨r', hsession, hpend⟩ | hrecorded := h.owned key pool hpool
  · by_contra hne
    exact hpending r' (fun heq => hne (hsession.symm.trans heq)) hpend
  · exact (hrecorded _ howner).symm

theorem owner_of_not_mismatch [DecidableEq S] {owner : S}
    (h : ¬ st.poolOwnerMismatch key owner) : st.owners key = some owner := by
  unfold poolOwnerMismatch at h
  split at h
  · simp at h
  next recorded hrecorded =>
  rw [hrecorded]
  simpa using h

/-- In an ordered step a request reuses a pool of its own session only. -/
theorem Inv.reusesOwn [DecidableEq S] (h : Inv site st) {a : Action S K C P R}
    (hordered : Ordered site st a) :
    ReusesOwn site st a := by
  intro r pool hreused
  unfold reused at hreused
  split at hreused
  · split at hreused
    · next hphase =>
      obtain ⟨pool', hpool, heq⟩ := Option.map_eq_some_iff.mp hreused
      cases heq
      exact ⟨h.validating r pool hphase hpool, h.entered _ pool hpool⟩
    · cases hreused
  · split at hreused
    · obtain ⟨pool', hpool, heq⟩ := Option.map_eq_some_iff.mp hreused
      cases heq
      obtain hnone | ⟨howner, hpending⟩ := hordered
      · simp [hnone] at hpool
      · exact ⟨h.owner_matches hpending howner hpool, h.entered _ pool hpool⟩
    · cases hreused
  · cases hreused

variable [DecidableEq S] [DecidableEq K] [DecidableEq C] [DecidableEq R]

/-- **Step lemma.** Every ordered step keeps the ownership invariant. -/
theorem Inv.step {st' : State S K C P R} {a : Action S K C P R} (h : Inv site st)
    (hordered : Ordered site st a) (hstep : step site st a = some st') : Inv site st' := by
  cases a with (simp only [Connection.step] at hstep; try split at hstep <;> try cases hstep)
  | enterPassword session connection password =>
    cases hstep
    exact h.enter session connection password
  | forgetPassword session connection | clearOwner session | clearCredentials =>
    cases hstep
    exact h.removeCredentials _
  | clearConnection connection =>
    cases hstep
    exact (h.removeCredentials _).removeOwners _
  | removePoolOwners keys | clearPoolOwners =>
    cases hstep
    exact h.removeOwners _
  | detach key =>
    cases hstep
    exact h.detach key
  | begin r =>
    -- a request has no plugin, or enters the password of one
    first
      | next hphase _ => exact h.quiet hphase rfl rfl nofun trivial
      | next password hphase _ =>
        refine (h.enter _ _ password).quiet hphase rfl rfl nofun ?_
        rintro _ ⟨⟩
        exact mem_cons_self
  | wait r =>
    next hphase =>
      split at hstep <;> cases hstep
      exact h.quiet hphase rfl rfl nofun trivial
  | lookup r =>
    next hphase =>
      split at hstep <;> cases hstep <;> exact h.quiet hphase rfl rfl nofun trivial
  | isolationMismatch r =>
    next hphase => exact (h.detach _).quiet hphase rfl rfl nofun trivial
  | checkOwner r =>
    next hphase =>
      split at hstep <;> cases hstep
      case isTrue => exact h.quiet hphase rfl rfl nofun trivial
      case isFalse hmatch =>
        refine h.setPhase trivial (fun _ pool hpool => ?_) (by simp [Pending, pendingKey])
          (by simp [hphase, Pending, pendingKey])
        exact h.owner_matches hordered (owner_of_not_mismatch hmatch) hpool
  | evict r stale =>
    next hphase =>
      cases stale with
      | false => exact h.quiet hphase rfl rfl nofun trivial
      | true => exact (h.detach _).quiet hphase rfl rfl nofun trivial
  | validate r stale =>
    next hphase =>
      split at hstep
      · split at hstep <;> cases hstep
        exact (h.detach _).quiet hphase rfl rfl nofun trivial
      · cases hstep
        exact h.quiet hphase rfl rfl nofun trivial
  | applyCredential r =>
    next hphase =>
      refine h.quiet hphase rfl rfl nofun ?_
      exact fun password hpassword => h.credentials _ _ password hpassword
  | beginDrain r victim =>
    next hphase =>
      split at hstep <;> cases hstep
      exact (h.setDraining _ _).quiet hphase rfl rfl nofun (h.heldAt hphase)
  | reclaim r idle =>
    next password victim hphase =>
      have hheld := h.heldAt hphase
      split at hstep <;> cases hstep
      · next pool hpool =>
        have hentered : Entered site st victim pool := by
          split at hpool
          · exact h.entered victim pool hpool
          · cases hpool
        exact (h.detach _).quiet hphase rfl rfl nofun ⟨hheld, hentered⟩
      · exact (h.setDraining _ _).quiet hphase rfl rfl nofun hheld
  | closeReclaimed r =>
    next hphase => exact (h.setDraining _ _).quiet hphase rfl rfl nofun (h.heldAt hphase).1
  | restore r =>
    next hphase =>
      have hheld := h.heldAt hphase
      simp only [Ordered, hphase] at hordered
      obtain ⟨hown, hpending, hvalidating⟩ := hordered
      exact h.publish hown hheld.2 hheld.1 (hphase ▸ rfl) hpending hvalidating
  | openPool r =>
    next hphase =>
      have hheld := h.heldAt hphase
      split <;> exact h.quiet hphase rfl rfl nofun ⟨rfl, hheld⟩
  | recheck r =>
    next hphase =>
      have hheld := h.heldAt hphase
      split at hstep <;> cases hstep
      · exact h.quiet hphase rfl rfl nofun trivial
      · exact h.quiet hphase rfl rfl nofun hheld
  | awaitDrain r =>
    next hphase =>
      have hheld := h.heldAt hphase
      split at hstep <;> cases hstep
      exact h.quiet hphase rfl rfl nofun hheld
  | publish r available =>
    next hphase =>
      have hheld := h.heldAt hphase
      split at hstep <;> cases hstep
      · exact h.publish hheld.1 hheld.2 trivial (hphase ▸ rfl) hordered.1 hordered.2
      · exact h.quiet hphase rfl rfl nofun trivial
  | confirmRoute r available =>
    next key resume hphase =>
      have hheld := h.heldAt hphase
      split at hstep <;> cases hstep
      · refine h.setPhase ?_ (by simp) (by simp [hphase]) fun key' _ hpending _ => .inl ?_
        · cases resume <;> exact hheld
        · simpa [hphase] using hpending
      · exact (h.detach key).endPublication key (.inl (by simp))
          (by simp [hphase]) rfl nofun trivial
  | recordOwner r =>
    next key resume hphase =>
      have hpending : Pending (st.phase r) key := by simp [hphase]
      exact (h.recordPoolOwner hpending).endPublication key (.inr (by simp))
        (by simp [hphase]) rfl nofun trivial
  | fail r =>
    next hmay =>
      refine h.quiet rfl ?_ rfl nofun trivial
      cases hphase : st.phase r <;> first | rfl | simp [hphase, mayFail] at hmay
  | cancel r =>
    exact (h.releaseDrain _).quiet (by rw [releaseDrain_phase]) hordered rfl nofun trivial

/-- **Ordered runs.** Along every run in which the publications, owner checks and rechecks of a
key by different sessions do not overlap, a request reuses only pools that its own session opened
with a password that it entered. -/
theorem reuses_own_pool (site : Site S K C P R) (actions : List (Action S K C P R))
    (hordered : Transition.Along (step site) (Ordered site) initial actions) :
    Transition.Along (step site) (ReusesOwn site) initial actions :=
  Transition.Along.of_invariant (I := Inv site) (fun _ _ _ hinv ho hs => hinv.step ho hs)
    (fun _ _ hinv ho => hinv.reusesOwn ho) actions _ Inv.initial hordered

/-! ## Runs of two sessions -/

section Decidable

variable [Fintype R] [DecidableEq P]

instance (r : R) (key : K) : Decidable (NoOtherPending site st r key) :=
  inferInstanceAs (Decidable (∀ r', (site.request r').session ≠ (site.request r).session →
    ¬ (st.phase r').pendingKey = some key))

instance (r : R) (key : K) : Decidable (NoOtherValidating site st r key) :=
  inferInstanceAs (Decidable (∀ r', (site.request r').session ≠ (site.request r).session →
    (site.request r').key = key → st.phase r' ≠ .validating))

instance Ordered.decidable (a : Action S K C P R) : Decidable (Ordered site st a) := by
  unfold Ordered
  split
  case h_4 => split <;> infer_instance
  all_goals infer_instance

instance (key : K) (pool : Pool S P) : Decidable (Entered site st key pool) :=
  match h : pool.password with
  | none => isTrue (by simp [Entered, h])
  | some password =>
    decidable_of_iff ((pool.openedBy, site.connection key, password) ∈ st.entered)
      (by simp [Entered, h])

instance ReusesOwn.decidable (a : Action S K C P R) : Decidable (ReusesOwn site st a) :=
  match h : reused site st a with
  | none => isTrue (by simp [ReusesOwn, h])
  | some (r, pool) =>
    decidable_of_iff (pool.openedBy = (site.request r).session ∧
      Entered site st (site.request r).key pool) (by simp [ReusesOwn, h])

end Decidable

/-- Three requests for one key: two of session `false` and between them one of session `true`. -/
def twoSessions : Site Bool Unit Unit Nat (Fin 3) where
  request r := ⟨r = 1, (), false, false, none⟩
  connection _ := ()

/-- A request that finds no pool opens one and publishes it. -/
def opens (r : Fin 3) : List (Action Bool Unit Unit Nat (Fin 3)) :=
  [.begin r, .wait r, .lookup r, .wait r, .lookup r, .applyCredential r, .openPool r,
    .awaitDrain r, .publish r true]

/-- A request that finds the pool of another owner replaces it. -/
def replaces (r : Fin 3) : List (Action Bool Unit Unit Nat (Fin 3)) :=
  [.begin r, .wait r, .lookup r, .checkOwner r, .evict r false, .applyCredential r, .openPool r,
    .awaitDrain r, .publish r true]

/-- A request that finds a pool of its own reuses it. -/
def reuses (r : Fin 3) : List (Action Bool Unit Unit Nat (Fin 3)) :=
  [.begin r, .wait r, .lookup r, .checkOwner r, .validate r false]

/-- Both sessions enter a password, and the first opens a pool and is recorded as its owner. -/
def firstOpens : List (Action Bool Unit Unit Nat (Fin 3)) :=
  [.enterPassword false () 10, .enterPassword true () 20] ++ opens 0 ++
    [.confirmRoute 0 true, .recordOwner 0]

/-- Where the second request of the first session comes before the other session, it reuses the
pool of the first. -/
theorem reuses_own_pool_twoSessions :
    Transition.Along (step twoSessions) (Ordered twoSessions) initial
      (firstOpens ++ reuses 2 ++ replaces 1) ∧
    Transition.Along (step twoSessions) (ReusesOwn twoSessions) initial
      (firstOpens ++ reuses 2 ++ replaces 1) := by
  have hordered : Transition.Along (step twoSessions) (Ordered twoSessions) initial
      (firstOpens ++ reuses 2 ++ replaces 1) := by decide +kernel
  exact ⟨hordered, reuses_own_pool twoSessions _ hordered⟩

/-- Where it comes between the publication of the other session's pool and the recording of its
owner, the record still names the first session, and the request reuses the pool that the other
session opened with its password. -/
theorem reuses_pool_of_other_session :
    ¬ Transition.Along (step twoSessions) (ReusesOwn twoSessions) initial
      (firstOpens ++ replaces 1 ++ reuses 2) := by
  decide +kernel

end Dbx.Connection
