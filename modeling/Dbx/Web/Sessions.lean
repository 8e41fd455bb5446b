import Dbx.Text.Basic
import Dbx.Transition.Basic

/-!
# Sessions and the password of the web server

The web server has one password, kept as a hash behind a lock, and the set of the live session
tokens behind a lock of its own. A login copies the hash, leaves the lock, verifies and opens its
session in a later critical section. The setup of the first password and a change of the password
work the same way: they look, compute without a lock, store the new hash, write it and touch the
session set last. Each access to a lock is one action here, so a run is any interleaving of the
requests of any number of threads.

A hash counts as the version of the password that its write made it. Versions, the origin of a
session and the answers given are kept for the statements only.
-/

namespace Dbx.Web.Sessions

open Transition List
open Function (update)

/-- `MAX_ATTEMPTS`. -/
def maxAttempts : Nat := 5

/-- `LOCKOUT_SECS`, in nanoseconds. -/
def lockout : Nat := 60 * 1000000000

/-- `argon2`: hashing with a salt may fail, and a text that is no hash verifies nothing. -/
structure Hashing (H : Type) where
  hashPassword : Text → Nat → Option H
  verifyPassword : Text → H → Option Bool

/-- The answers of the handlers. -/
inductive Status
  | ok
  | setupRequired
  | tooManyRequests (remainingSecs : Nat)
  | unauthorized
  | forbidden
  | badRequest
  | internalServerError
  deriving DecidableEq, Repr

/-- Who opened a session: a login that verified a version of the password, or the setup. -/
inductive Origin
  | login (version : Nat)
  | setup
  deriving DecidableEq, Repr

/-- A live session. A token is a fresh UUID, counted here. -/
structure Session where
  token : Nat
  origin : Origin
  deriving DecidableEq, Repr

/-- A request that has been answered, with what the statements say about it. -/
inductive Request
  | login
  | setup
  | changePassword (version caller : Nat)
  | rejectedChange
  deriving DecidableEq, Repr

/-- A request and its answer. -/
structure Answer where
  request : Request
  status : Status
  deriving DecidableEq, Repr

/-- `LoginRateLimit`. -/
structure RateLimit where
  failCount : Nat
  lockedUntil : Option Nat
  deriving DecidableEq, Repr

/-- Where a request stands between two accesses to a lock. -/
inductive Phase (H : Type)
  | idle
  /-- `login` has copied the hash. -/
  | loginCopied (password : Text) (hash : H) (version : Nat)
  /-- `login` has found no lockout. -/
  | loginAdmitted (password : Text) (hash : H) (version : Nat)
  /-- `login` has verified the password. -/
  | loginVerified (version : Nat)
  /-- `setup` has found no hash. -/
  | setupAdmitted (password : Text)
  /-- `setup` has stored its hash. -/
  | setupSaved (hash : H)
  /-- `setup` has written its hash. -/
  | setupWritten
  /-- `change_password` has found its caller's session live. -/
  | changeAdmitted (caller : Nat) (oldPassword newPassword : Text)
  /-- `change_password` has verified the old password. -/
  | changeVerified (caller : Nat) (newPassword : Text)
  /-- `change_password` has stored its hash. -/
  | changeSaved (caller : Nat) (hash : H)
  /-- `change_password` has written its hash. -/
  | changeWritten (caller version : Nat)
  deriving DecidableEq, Repr

/-- The web state, the requests, and what has been answered. -/
structure State (T H : Type) where
  clock : Nat
  passwordDisabled : Bool
  passwordHash : Option H
  /-- How often the hash has been written. -/
  version : Nat
  rateLimit : RateLimit
  sessions : List Session
  /-- How many tokens have been drawn. -/
  issued : Nat
  phase : T → Phase H
  answers : List Answer

/-- The accesses to the locks, and the clock. -/
inductive Action (T : Type)
  | tick (elapsed : Nat)
  | login (t : T) (password : Text)
  | loginLimit (t : T)
  | loginVerify (t : T)
  | loginInsert (t : T)
  | setup (t : T) (password : Text)
  | setupSave (t : T) (salt : Nat) (saved : Bool)
  | setupWrite (t : T)
  | setupInsert (t : T)
  | changePassword (t : T) (caller : Option Nat) (oldPassword newPassword : Text)
  | changeRead (t : T)
  | changeSave (t : T) (salt : Nat) (saved : Bool)
  | changeWrite (t : T)
  | changeRetain (t : T)
  | logout (token : Option Nat)
  deriving DecidableEq, Repr

variable {T H : Type} [DecidableEq T]

/-- The request of `t` goes on. -/
def State.enter (s : State T H) (t : T) (phase : Phase H) : State T H :=
  { s with phase := update s.phase t phase }

/-- The request of `t` is answered. -/
def State.answer (s : State T H) (t : T) (request : Request) (status : Status) : State T H :=
  { s with phase := update s.phase t .idle, answers := s.answers ++ [⟨request, status⟩] }

/-- A failed verification counts, and the fifth one locks the login out. -/
def RateLimit.fail (limit : RateLimit) (clock : Nat) : RateLimit :=
  if maxAttempts ≤ limit.failCount + 1 then ⟨0, some (clock + lockout)⟩
  else ⟨limit.failCount + 1, limit.lockedUntil⟩

/-- `sessions.insert` of a fresh token. -/
def State.open (s : State T H) (origin : Origin) : State T H :=
  { s with sessions := ⟨s.issued, origin⟩ :: s.sessions, issued := s.issued + 1 }

def State.write (s : State T H) (hash : H) : State T H :=
  { s with passwordHash := some hash, version := s.version + 1 }

/-- `login`, up to the copy of the hash. -/
def login (s : State T H) (t : T) (password : Text) : State T H :=
  match s.passwordHash with
  | some hash => s.enter t (.loginCopied password hash s.version)
  | none => s.answer t .login .setupRequired

/-- `login` checks for a lockout. -/
def loginLimit (s : State T H) (t : T) (password : Text) (hash : H) (version : Nat) : State T H :=
  match s.rateLimit.lockedUntil with
  | some lockedUntil =>
    if s.clock < lockedUntil then
      s.answer t .login (.tooManyRequests ((lockedUntil - s.clock) / 1000000000))
    else s.enter t (.loginAdmitted password hash version)
  | none => s.enter t (.loginAdmitted password hash version)

/-- `login` verifies the password against its copy and updates the rate limit. -/
def loginVerify (hashing : Hashing H) (s : State T H) (t : T) (password : Text) (hash : H)
    (version : Nat) : State T H :=
  match hashing.verifyPassword password hash with
  | none => s.answer t .login .internalServerError
  | some false =>
    { s with rateLimit := s.rateLimit.fail s.clock }.answer t .login .unauthorized
  | some true => { s with rateLimit := ⟨0, none⟩ }.enter t (.loginVerified version)

/-- `setup`, up to its look at the hash. -/
def setup (s : State T H) (t : T) (password : Text) : State T H :=
  if s.passwordDisabled then s.answer t .setup .forbidden
  else if s.passwordHash.isSome then s.answer t .setup .forbidden
  else if password.isEmpty then s.answer t .setup .badRequest
  else s.enter t (.setupAdmitted password)

/-- `setup` hashes its password and stores the hash. -/
def setupSave (hashing : Hashing H) (s : State T H) (t : T) (password : Text) (salt : Nat)
    (saved : Bool) : State T H :=
  match hashing.hashPassword password salt, saved with
  | some hash, true => s.enter t (.setupSaved hash)
  | _, _ => s.answer t .setup .internalServerError

/-- `change_password`, up to its look at the sessions. -/
def changePassword (s : State T H) (t : T) (caller : Option Nat) (oldPassword newPassword : Text) :
    State T H :=
  match caller with
  | none => s.answer t .rejectedChange .unauthorized
  | some token =>
    if s.sessions.any (·.token = token) then
      s.enter t (.changeAdmitted token oldPassword newPassword)
    else s.answer t .rejectedChange .unauthorized

/-- `change_password` copies the hash and verifies the old password against it. -/
def changeRead (hashing : Hashing H) (s : State T H) (t : T) (caller : Nat)
    (oldPassword newPassword : Text) : State T H :=
  match s.passwordHash with
  | none => s.answer t .rejectedChange .badRequest
  | some hash =>
    if newPassword.isEmpty then s.answer t .rejectedChange .badRequest
    else
      match hashing.verifyPassword oldPassword hash with
      | none => s.answer t .rejectedChange .internalServerError
      | some false => s.answer t .rejectedChange .unauthorized
      | some true => s.enter t (.changeVerified caller newPassword)

/-- `change_password` hashes the new password and stores the hash. -/
def changeSave (hashing : Hashing H) (s : State T H) (t : T) (caller : Nat) (newPassword : Text)
    (salt : Nat) (saved : Bool) : State T H :=
  match hashing.hashPassword newPassword salt, saved with
  | some hash, true => s.enter t (.changeSaved caller hash)
  | _, _ => s.answer t .rejectedChange .internalServerError

/-- `change_password` revokes the other sessions and returns. -/
def changeRetain (s : State T H) (t : T) (caller version : Nat) : State T H :=
  { s with sessions := s.sessions.filter (·.token = caller) }.answer t
    (.changePassword version caller) .ok

/-- The effect of an action, where the request can take it. -/
def step (hashing : Hashing H) (s : State T H) : Action T → Option (State T H)
  | .tick elapsed => some { s with clock := s.clock + elapsed }
  | .login t password =>
    match s.phase t with
    | .idle => some (login s t password)
    | _ => none
  | .loginLimit t =>
    match s.phase t with
    | .loginCopied password hash version => some (loginLimit s t password hash version)
    | _ => none
  | .loginVerify t =>
    match s.phase t with
    | .loginAdmitted password hash version => some (loginVerify hashing s t password hash version)
    | _ => none
  | .loginInsert t =>
    match s.phase t with
    | .loginVerified version => some ((s.open (.login version)).answer t .login .ok)
    | _ => none
  | .setup t password =>
    match s.phase t with
    | .idle => some (setup s t password)
    | _ => none
  | .setupSave t salt saved =>
    match s.phase t with
    | .setupAdmitted password => some (setupSave hashing s t password salt saved)
    | _ => none
  | .setupWrite t =>
    match s.phase t with
    | .setupSaved hash => some ((s.write hash).enter t .setupWritten)
    | _ => none
  | .setupInsert t =>
    match s.phase t with
    | .setupWritten => some ((s.open .setup).answer t .setup .ok)
    | _ => none
  | .changePassword t caller oldPassword newPassword =>
    match s.phase t with
    | .idle => some (changePassword s t caller oldPassword newPassword)
    | _ => none
  | .changeRead t =>
    match s.phase t with
    | .changeAdmitted caller oldPassword newPassword =>
      some (changeRead hashing s t caller oldPassword newPassword)
    | _ => none
  | .changeSave t salt saved =>
    match s.phase t with
    | .changeVerified caller newPassword =>
      some (changeSave hashing s t caller newPassword salt saved)
    | _ => none
  | .changeWrite t =>
    match s.phase t with
    | .changeSaved caller hash =>
      some ((s.write hash).enter t (.changeWritten caller (s.version + 1)))
    | _ => none
  | .changeRetain t =>
    match s.phase t with
    | .changeWritten caller version => some (changeRetain s t caller version)
    | _ => none
  | .logout token => some { s with sessions := s.sessions.filter (some ·.token ≠ token) }

/-- A server starts with the stored hash, if there is one, and without sessions. -/
def State.init (passwordDisabled : Bool) (stored : Option H) : State T H :=
  ⟨0, passwordDisabled, stored, 0, ⟨0, none⟩, [], 0, fun _ => .idle, []⟩

/-- The session was opened by a login that verified the given version of the password or a later
one. -/
def Origin.VerifiedSince (version : Nat) : Origin → Prop
  | .login verified => version ≤ verified
  | .setup => False

instance (version : Nat) : (origin : Origin) → Decidable (origin.VerifiedSince version)
  | .login verified => inferInstanceAs (Decidable (version ≤ verified))
  | .setup => inferInstanceAs (Decidable False)

/-- What a change of the password promises once it has returned success: every session but the
caller's was opened by a login that verified the new password or a later one. -/
def Answer.Holds (sessions : List Session) : Answer → Prop
  | ⟨.changePassword version caller, .ok⟩ =>
    ∀ session ∈ sessions, session.token ≠ caller → session.origin.VerifiedSince version
  | _ => True

instance (sessions : List Session) (answer : Answer) : Decidable (answer.Holds sessions) := by
  unfold Answer.Holds
  split <;> infer_instance

def setupSucceeded : Answer := ⟨.setup, .ok⟩

/-- Every change of the password that has returned success has ended the sessions of the old
password, and at most one setup has succeeded. -/
structure Safe (s : State T H) : Prop where
  revoked : ∀ answer ∈ s.answers, answer.Holds s.sessions
  once : s.answers.count setupSucceeded ≤ 1

/-- The password that a change has installed is not newer than the given version. -/
def Answer.NotAfter (version : Nat) : Answer → Prop
  | ⟨.changePassword changed _, .ok⟩ => changed ≤ version
  | _ => True

instance (version : Nat) (answer : Answer) : Decidable (answer.NotAfter version) := by
  unfold Answer.NotAfter
  split <;> infer_instance

/-- No change of the password has succeeded. -/
def Answer.NoChange : Answer → Prop
  | ⟨.changePassword _ _, .ok⟩ => False
  | _ => True

instance (answer : Answer) : Decidable answer.NoChange := by
  unfold Answer.NoChange
  split <;> infer_instance

/-- A session is opened only while no newer password has been installed by a completed change,
and a setup writes its hash only while there is none. -/
def Current (s : State T H) : Action T → Prop
  | .loginInsert t =>
    match s.phase t with
    | .loginVerified version => ∀ answer ∈ s.answers, answer.NotAfter version
    | _ => True
  | .setupInsert _ => ∀ answer ∈ s.answers, answer.NoChange
  | .setupWrite _ => s.passwordHash.isNone
  | _ => True

instance (s : State T H) (a : Action T) : Decidable (Current s a) := by
  unfold Current
  split
  · split <;> infer_instance
  all_goals infer_instance

/-! ### What a step can do -/

variable {sessions : List Session}

variable {status : Status}

@[simp] theorem Answer.holds_of_status {request : Request}
    (h : status ≠ .ok) : Answer.Holds sessions ⟨request, status⟩ := by
  unfold Answer.Holds
  split
  · simp_all
  · trivial

variable {answer : Answer}

theorem Answer.Holds.mono {sessions sessions' : List Session}
    (h : answer.Holds sessions) (hsub : ∀ session ∈ sessions', session ∈ sessions) :
    answer.Holds sessions' := by
  unfold Answer.Holds at h ⊢
  split at h
  · intro session hsession
    exact h session (hsub session hsession)
  · trivial

/-- A session of a login with a current password breaks no promise. -/
theorem Answer.Holds.login {version token : Nat}
    (h : answer.Holds sessions) (hcurrent : answer.NotAfter version) :
    answer.Holds (⟨token, .login version⟩ :: sessions) := by
  unfold Answer.Holds at h ⊢
  split at h
  · intro session hsession
    rcases mem_cons.mp hsession with rfl | hold
    · intro _
      exact hcurrent
    · exact h session hold
  · trivial

theorem Answer.NoChange.holds (h : answer.NoChange) : answer.Holds sessions := by
  unfold Answer.Holds
  split
  · exact h.elim
  · trivial

/-- A step that opens no session, writes no hash and completes no setup and no change. -/
structure Quiet (s s' : State T H) : Prop where
  passwordHash : s'.passwordHash = s.passwordHash
  sessions : ∀ session ∈ s'.sessions, session ∈ s.sessions
  answers : s'.answers = s.answers ∨
    ∃ request status, status ≠ .ok ∧ s'.answers = s.answers ++ [⟨request, status⟩]
  phase : ∀ t, s'.phase t = .setupWritten → s.phase t = .setupWritten

omit [DecidableEq T] in
theorem Quiet.refl (s : State T H) : Quiet s s :=
  ⟨rfl, fun _ h => h, .inl rfl, fun _ h => h⟩

attribute [local simp] State.enter

variable {s s' : State T H}

theorem update_setupWritten {phase : T → Phase H} {t u : T} {next : Phase H}
    (hnext : next ≠ .setupWritten) (h : update phase t next u = .setupWritten) :
    u ≠ t ∧ phase u = .setupWritten := by
  by_cases hut : u = t
  · subst hut
    simp [hnext] at h
  · exact ⟨hut, by simpa [hut] using h⟩

theorem Quiet.enter (h : Quiet s s') (t : T) {phase : Phase H}
    (hphase : phase ≠ .setupWritten) : Quiet s (s'.enter t phase) where
  __ := h
  phase u hu := h.phase u (update_setupWritten hphase hu).2

attribute [local simp] State.answer count_append State.write

theorem quiet_answer (t : T) (request : Request)
    (h : Quiet s s') (hanswers : s'.answers = s.answers) (hstatus : status ≠ .ok) :
    Quiet s (s'.answer t request status) where
  __ := h
  answers := .inr ⟨request, status, hstatus, by simp [hanswers]⟩
  phase u hu := h.phase u (update_setupWritten (by simp) hu).2

/-- A step leaves the locks to the reader's eye as they were, or it is one of the five that open a
session, write the hash or revoke the other sessions. -/
inductive Effect (s : State T H) : Action T → State T H → Prop
  | quiet {a : Action T} {s' : State T H} (h : Quiet s s') : Effect s a s'
  | loginInsert {t : T} {version : Nat} (h : s.phase t = .loginVerified version) :
    Effect s (.loginInsert t) ((s.open (.login version)).answer t .login .ok)
  | setupWrite {t : T} {hash : H} (h : s.phase t = .setupSaved hash) :
    Effect s (.setupWrite t) ((s.write hash).enter t .setupWritten)
  | setupInsert {t : T} (h : s.phase t = .setupWritten) :
    Effect s (.setupInsert t) ((s.open .setup).answer t .setup .ok)
  | changeWrite {t : T} {caller : Nat} {hash : H} (h : s.phase t = .changeSaved caller hash) :
    Effect s (.changeWrite t) ((s.write hash).enter t (.changeWritten caller (s.version + 1)))
  | changeRetain {t : T} {caller version : Nat} (h : s.phase t = .changeWritten caller version) :
    Effect s (.changeRetain t) (changeRetain s t caller version)

section Quiet

variable (hashing : Hashing H) (s : State T H) (t : T)

open Quiet

theorem quiet_refuse (request : Request) (hstatus : status ≠ .ok) :
    Quiet s (s.answer t request status) :=
  quiet_answer t request (refl s) rfl hstatus

variable (password : Text)

theorem quiet_login : Quiet s (login s t password) := by
  unfold login
  split
  · exact (refl s).enter t (by simp)
  · exact quiet_refuse s t _ (by simp)

theorem quiet_loginLimit (hash : H) (version : Nat) :
    Quiet s (loginLimit s t password hash version) := by
  unfold loginLimit
  split
  · split
    · exact quiet_refuse s t _ (by simp)
    · exact (refl s).enter t (by simp)
  · exact (refl s).enter t (by simp)

theorem quiet_loginVerify (hash : H) (version : Nat) :
    Quiet s (loginVerify hashing s t password hash version) := by
  -- the rate limit is behind a lock of its own that nothing here speaks about
  have hlimit (limit : RateLimit) : Quiet s { s with rateLimit := limit } :=
    ⟨rfl, fun _ h => h, .inl rfl, fun _ h => h⟩
  unfold loginVerify
  split
  · exact quiet_refuse s t _ (by simp)
  · exact quiet_answer t _ (hlimit _) rfl (by simp)
  · exact (hlimit _).enter t (by simp)

theorem quiet_setup : Quiet s (setup s t password) := by
  unfold setup
  split
  · exact quiet_refuse s t _ (by simp)
  split
  · exact quiet_refuse s t _ (by simp)
  split
  · exact quiet_refuse s t _ (by simp)
  · exact (refl s).enter t (by simp)

theorem quiet_setupSave (salt : Nat) (saved : Bool) :
    Quiet s (setupSave hashing s t password salt saved) := by
  unfold setupSave
  split
  · exact (refl s).enter t (by simp)
  · exact quiet_refuse s t _ (by simp)

theorem quiet_changePassword (caller : Option Nat) (oldPassword newPassword : Text) :
    Quiet s (changePassword s t caller oldPassword newPassword) := by
  unfold changePassword
  split
  · exact quiet_refuse s t _ (by simp)
  split
  · exact (refl s).enter t (by simp)
  · exact quiet_refuse s t _ (by simp)

theorem quiet_changeRead (caller : Nat) (oldPassword newPassword : Text) :
    Quiet s (changeRead hashing s t caller oldPassword newPassword) := by
  unfold changeRead
  split
  · exact quiet_refuse s t _ (by simp)
  split
  · exact quiet_refuse s t _ (by simp)
  split
  · exact quiet_refuse s t _ (by simp)
  · exact quiet_refuse s t _ (by simp)
  · exact (refl s).enter t (by simp)

theorem quiet_changeSave (caller : Nat) (newPassword : Text) (salt : Nat) (saved : Bool) :
    Quiet s (changeSave hashing s t caller newPassword salt saved) := by
  unfold changeSave
  split
  · exact (refl s).enter t (by simp)
  · exact quiet_refuse s t _ (by simp)

end Quiet

/-- What each action does to the locks. -/
theorem step_effect {hashing : Hashing H} {a : Action T}
    (h : step hashing s a = some s') : Effect s a s' := by
  cases a with (simp only [step] at h; try split at h <;> try cases h)
  | tick elapsed =>
    cases h
    exact .quiet ⟨rfl, fun _ h => h, .inl rfl, fun _ h => h⟩
  | logout token =>
    cases h
    exact .quiet ⟨rfl, fun _ h => (mem_filter.mp h).1, .inl rfl, fun _ h => h⟩
  | login t password => exact .quiet (quiet_login s t password)
  | loginLimit t => exact .quiet (quiet_loginLimit s t _ _ _)
  | loginVerify t => exact .quiet (quiet_loginVerify hashing s t _ _ _)
  | loginInsert t => exact .loginInsert ‹_›
  | setup t password => exact .quiet (quiet_setup s t password)
  | setupSave t salt saved => exact .quiet (quiet_setupSave hashing s t _ salt saved)
  | setupWrite t => exact .setupWrite ‹_›
  | setupInsert t => exact .setupInsert ‹_›
  | changePassword t caller oldPassword newPassword =>
    exact .quiet (quiet_changePassword s t caller oldPassword newPassword)
  | changeRead t => exact .quiet (quiet_changeRead hashing s t _ _ _)
  | changeSave t salt saved => exact .quiet (quiet_changeSave hashing s t _ _ salt saved)
  | changeWrite t => exact .changeWrite ‹_›
  | changeRetain t => exact .changeRetain ‹_›

/-! ### The invariant of the current runs -/

/-- Every promise holds. While there is no hash no setup has written one, at most one setup is
between its write and its session, and none has succeeded before it. -/
structure Inv (s : State T H) : Prop extends Safe s where
  fresh : s.passwordHash = none →
    s.answers.count setupSucceeded = 0 ∧ ∀ t, s.phase t ≠ .setupWritten
  single : ∀ t u, s.phase t = .setupWritten → s.phase u = .setupWritten → t = u
  pending : ∀ t, s.phase t = .setupWritten → s.answers.count setupSucceeded = 0

omit [DecidableEq T] in
theorem Inv.init (passwordDisabled : Bool) (stored : Option H) :
    Inv (.init passwordDisabled stored : State T H) where
  revoked := by simp [State.init]
  once := by simp [State.init]
  fresh _ := by simp [State.init]
  single t u h := by simp [State.init] at h
  pending t h := by simp [State.init] at h

omit [DecidableEq T] in
/-- A quiet step adds no successful setup. -/
theorem Quiet.count_eq (h : Quiet s s') :
    s'.answers.count setupSucceeded = s.answers.count setupSucceeded := by
  rcases h.answers with heq | ⟨request, status, hstatus, heq⟩
  · rw [heq]
  · have hne : (⟨request, status⟩ : Answer) ≠ setupSucceeded := by
      intro heq
      exact hstatus (congrArg Answer.status heq)
    rw [heq, count_append, count_singleton]
    simp [hne]

omit [DecidableEq T] in
/-- A step that writes no first hash and completes no setup. -/
theorem Inv.kept (h : Inv s) (hhash : s'.passwordHash = none → s.passwordHash = none)
    (hphase : ∀ t, s'.phase t = .setupWritten → s.phase t = .setupWritten)
    (hcount : s'.answers.count setupSucceeded = s.answers.count setupSucceeded)
    (hrevoked : ∀ answer ∈ s'.answers, answer.Holds s'.sessions) : Inv s' where
  revoked := hrevoked
  once := hcount ▸ h.once
  fresh hnone := by
    obtain ⟨hzero, hwritten⟩ := h.fresh (hhash hnone)
    exact ⟨hcount ▸ hzero, fun t ht => hwritten t (hphase t ht)⟩
  single t u ht hu := h.single t u (hphase t ht) (hphase u hu)
  pending t ht := hcount ▸ h.pending t (hphase t ht)

omit [DecidableEq T] in
theorem Inv.quiet (h : Inv s) (hquiet : Quiet s s') : Inv s' := by
  refine h.kept (hquiet.passwordHash ▸ id) hquiet.phase hquiet.count_eq fun answer hanswer => ?_
  rcases hquiet.answers with heq | ⟨request, status, hstatus, heq⟩ <;> rw [heq] at hanswer
  · exact (h.revoked answer hanswer).mono hquiet.sessions
  rcases mem_append.mp hanswer with hold | hnew
  · exact (h.revoked answer hold).mono hquiet.sessions
  · obtain rfl := mem_singleton.mp hnew
    exact Answer.holds_of_status hstatus

/-- A login opens its session. -/
theorem Inv.loginInsert (h : Inv s) (t : T) {version : Nat}
    (hcurrent : ∀ answer ∈ s.answers, answer.NotAfter version) :
    Inv ((s.open (.login version)).answer t .login .ok) := by
  have hne : (⟨.login, .ok⟩ : Answer) ≠ setupSucceeded := by decide
  refine h.kept id (fun u hu => (update_setupWritten (by simp) hu).2)
    (by simp [State.open, hne]) fun answer hanswer => ?_
  rcases mem_append.mp hanswer with hold | hnew
  · exact (h.revoked answer hold).login (hcurrent answer hold)
  · obtain rfl := mem_singleton.mp hnew
    trivial

/-- A setup writes the first hash. -/
theorem Inv.setupWrite (h : Inv s) (t : T) (hash : H)
    (hnone : s.passwordHash = none) : Inv ((s.write hash).enter t .setupWritten) where
  __ := h
  fresh hwritten := by simp at hwritten
  single u v hu hv := by
    -- before the write no request had written a first password, so both are this one
    have honly (w : T) (hw : ((s.write hash).enter t .setupWritten).phase w = .setupWritten) :
        w = t := by
      by_contra hwt
      apply (h.fresh hnone).2 w
      simpa [hwt] using hw
    rw [honly u hu, honly v hv]
  pending u _ := (h.fresh hnone).1

/-- A setup opens its session and succeeds. -/
theorem Inv.setupInsert (h : Inv s) (t : T) (ht : s.phase t = .setupWritten)
    (hcurrent : ∀ answer ∈ s.answers, answer.NoChange) :
    Inv ((s.open .setup).answer t .setup .ok) := by
  -- the only setup past its write is this one
  have hnone (u : T) (hu : update s.phase t .idle u = .setupWritten) : False := by
    obtain ⟨hut, hphase⟩ := update_setupWritten (by simp) hu
    exact hut (h.single u t hphase ht)
  refine { revoked := ?_, once := ?_, fresh := ?_, single := ?_, pending := ?_ }
  · intro answer hanswer
    rcases mem_append.mp hanswer with hold | hnew
    · exact (hcurrent answer hold).holds
    · obtain rfl := mem_singleton.mp hnew
      trivial
  · have hcount := h.pending t ht
    show (s.answers ++ [setupSucceeded]).count setupSucceeded ≤ 1
    rw [count_append, hcount]
    simp
  · intro hhash
    exact absurd ht ((h.fresh hhash).2 t)
  · intro u v hu
    exact (hnone u hu).elim
  · intro u hu
    exact (hnone u hu).elim

theorem Inv.changeWrite (h : Inv s) (t : T) (hash : H) (caller version : Nat) :
    Inv ((s.write hash).enter t (.changeWritten caller version)) :=
  h.kept (by simp) (fun _ hu => (update_setupWritten (by simp) hu).2) rfl h.revoked

/-- A change of the password revokes the other sessions and succeeds. -/
theorem Inv.changeRetain (h : Inv s) (t : T) (caller version : Nat) :
    Inv (changeRetain s t caller version) := by
  have hne : (⟨.changePassword version caller, .ok⟩ : Answer) ≠ setupSucceeded := by
    simp [setupSucceeded]
  refine h.kept id (fun u hu => (update_setupWritten (by simp) hu).2)
    (by simp [Sessions.changeRetain, hne]) fun answer hanswer => ?_
  rcases mem_append.mp hanswer with hold | hnew
  · exact (h.revoked answer hold).mono fun session hs => (mem_filter.mp hs).1
  · obtain rfl := mem_singleton.mp hnew
    -- only the caller's session is left
    intro session hsession hother
    exact absurd (of_decide_eq_true (mem_filter.mp hsession).2) hother

/-- **Every current step keeps the invariant.** -/
theorem Inv.step {hashing : Hashing H} {a : Action T} (h : Inv s)
    (hcurrent : Current s a) (hstep : step hashing s a = some s') : Inv s' := by
  cases step_effect hstep with
  | quiet hquiet => exact h.quiet hquiet
  | @loginInsert t version ht =>
    simp only [Current, ht] at hcurrent
    exact h.loginInsert t hcurrent
  | @setupWrite t hash ht => exact h.setupWrite t hash (Option.isNone_iff_eq_none.mp hcurrent)
  | @setupInsert t ht => exact h.setupInsert t ht hcurrent
  | @changeWrite t caller hash ht => exact h.changeWrite t hash caller _
  | @changeRetain t caller version ht => exact h.changeRetain t caller version

/-- **A password change ends every session of the old password, and setup happens once**, along
every run in which no session is opened after a completed change for a password older than it and
no setup writes its hash over another. -/
theorem safe_of_current (hashing : Hashing H) (passwordDisabled : Bool) (stored : Option H)
    (actions : List (Action T)) (s : State T H)
    (hcurrent : Along (step hashing) Current (State.init passwordDisabled stored) actions)
    (hrun : run (step hashing) (State.init passwordDisabled stored) actions = some s) : Safe s := by
  have hinv : Inv s := Along.run_invariant (fun s a s' hs hc hnext => hs.step hc hnext) actions _ s
      (Inv.init passwordDisabled stored) hcurrent hrun
  exact hinv.toSafe

def plainHashing : Hashing Text := ⟨fun password _ => some password, fun p hash => some (p = hash)⟩

/-- A login of thread `t`, up to its session. -/
def loginVerified (t : Nat) (password : Text) : List (Action Nat) :=
  [.login t password, .loginLimit t, .loginVerify t]

/-- A change of the password by thread `t`. -/
def wholeChange (t caller : Nat) (oldPassword newPassword : Text) : List (Action Nat) :=
  [.changePassword t (some caller) oldPassword newPassword, .changeRead t, .changeSave t 0 true,
    .changeWrite t, .changeRetain t]

/-- A first setup, a change of its password by its session, and a login with the new password. -/
def setupThenChange : List (Action Nat) :=
  [.setup 0 ['a'], .setupSave 0 0 true, .setupWrite 0, .setupInsert 0] ++
    wholeChange 1 0 ['a'] ['b'] ++ loginVerified 2 ['b'] ++ [.loginInsert 2]

theorem safe_setupThenChange :
    ∃ s, run (step plainHashing) (State.init false none) setupThenChange = some s ∧
      s.sessions.length = 2 ∧ Safe s := by
  refine ⟨_, rfl, rfl, ?_⟩
  exact safe_of_current plainHashing false none setupThenChange _ (by decide) rfl

/-- A login verifies the old password, and opens its session after the change has returned. -/
def staleLogin : List (Action Nat) :=
  loginVerified 0 ['a'] ++ [.loginInsert 0] ++ loginVerified 1 ['a'] ++
    wholeChange 2 0 ['a'] ['b'] ++ [.loginInsert 1]

/-- Two setups find no hash, and both go on to succeed. -/
def twoSetups : List (Action Nat) :=
  [.setup 0 ['a'], .setup 1 ['b'], .setupSave 0 0 true, .setupSave 1 0 true, .setupWrite 0,
    .setupInsert 0, .setupWrite 1, .setupInsert 1]

theorem not_safe_staleLogin_twoSetups :
    (∃ s, run (step plainHashing) (State.init false (some ['a'])) staleLogin = some s ∧ ¬ Safe s) ∧
    (∃ s, run (step plainHashing) (State.init false none) twoSetups = some s ∧ ¬ Safe s) := by
  refine ⟨⟨_, rfl, ?_⟩, ⟨_, rfl, ?_⟩⟩
  · intro hsafe
    exact absurd hsafe.revoked (by decide)
  · intro hsafe
    exact absurd hsafe.once (by decide)

end Dbx.Web.Sessions
