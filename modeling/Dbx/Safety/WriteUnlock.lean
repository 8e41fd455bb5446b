import Dbx.Text.Basic
import Dbx.Transition.Basic

/-!
# Write-unlock windows

A read-only connection accepts the writes of a session for one or five minutes after a confirmed
unlock. The windows are a map from the owner and the connection to an instant of expiry, behind a
lock of its own. An unlock reads the clock, waits for the lock and writes its window. A check
reads the map, reads the clock, and where the window it read is over takes the lock once more to
remove it. Each access to the map is one action here, so a run is any interleaving of the calls of
any number of threads. Instants and durations count nanoseconds.
-/

namespace Dbx.Safety

open Transition

/-- `WRITE_UNLOCK_ONE_MINUTE_SECS`. -/
def writeUnlockOneMinuteSecs : Nat := 60

/-- `WRITE_UNLOCK_FIVE_MINUTES_SECS`. -/
def writeUnlockFiveMinutesSecs : Nat := 300

/-- `Duration::from_secs`. -/
def fromSecs (secs : Nat) : Nat := secs * 1000000000

/-- `Duration::as_millis`, as a `u64`. -/
def asMillis (duration : Nat) : Nat := duration / 1000000 % 2 ^ 64

/-- `WriteUnlockKey`. -/
structure WriteUnlockKey where
  ownerScope : Text
  connectionId : Text
  deriving DecidableEq, Repr

/-- `WriteUnlockKey::current`, for the owner of the calling task. -/
def WriteUnlockKey.current (owner : Option Text) (connectionId : Text) : WriteUnlockKey :=
  ⟨owner.getD [], connectionId⟩

/-- `parse_duration_secs`. -/
def parseDurationSecs (secs : Nat) : Except String Nat :=
  if secs = writeUnlockOneMinuteSecs then .ok (fromSecs writeUnlockOneMinuteSecs)
  else if secs = writeUnlockFiveMinutesSecs then .ok (fromSecs writeUnlockFiveMinutesSecs)
  else .error "Write unlock duration must be 1 minute or 5 minutes."

/-- What `unlock` checks before it reads the clock. -/
def unlockDuration (connectionId : Text) (durationSecs : Nat) : Except String Nat :=
  if (Text.trim connectionId).isEmpty then .error "Connection id is required."
  else parseDurationSecs durationSecs

/-- A completed `unlock` with its expiry, or a completed `lock`. -/
inductive Write
  | unlocked (key : WriteUnlockKey) (expiresAt : Nat)
  | locked (key : WriteUnlockKey)
  deriving DecidableEq, Repr

/-- Where a thread stands. A check remembers the writes before its read for the statements only. -/
inductive Phase
  | idle
  /-- `unlock` has read the clock and waits for the write lock. -/
  | unlocking (key : WriteUnlockKey) (expiresAt : Nat)
  /-- `remaining_ms` has read a window. -/
  | deciding (key : WriteUnlockKey) (expiresAt : Nat) (seen : List Write)
  /-- `remaining_ms_from` has found the window over at `now` and waits for the write lock. -/
  | cleaning (key : WriteUnlockKey) (expiresAt now : Nat) (seen : List Write)
  deriving DecidableEq, Repr

/-- The clock, the map and the threads, and the writes so far. -/
structure State (T : Type) where
  clock : Nat
  inner : WriteUnlockKey → Option Nat
  phase : T → Phase
  history : List Write

/-- The steps of the threads, and of the clock. -/
inductive Action (T : Type)
  | tick (elapsed : Nat)
  | unlock (t : T) (owner : Option Text) (connectionId : Text) (durationSecs : Nat)
  | insert (t : T)
  | lock (t : T) (owner : Option Text) (connectionId : Text)
  | read (t : T) (owner : Option Text) (connectionId : Text)
  | decide (t : T)
  | cleanup (t : T)
  deriving DecidableEq, Repr

/-- A check is over: the pair, the writes before its read, the instant and the answer. -/
structure Report where
  key : WriteUnlockKey
  seen : List Write
  now : Nat
  remainingMs : Nat
  deriving DecidableEq, Repr

/-- `is_active`. -/
def Report.isActive (report : Report) : Bool := 0 < report.remainingMs

variable {T : Type} [DecidableEq T]

open Function

/-- The effect of an action, where the thread can take it. -/
def step (s : State T) : Action T → Option (State T)
  | .tick elapsed => some { s with clock := s.clock + elapsed }
  | .unlock t owner connectionId durationSecs =>
    match s.phase t, unlockDuration connectionId durationSecs with
    | .idle, .ok duration =>
      let key := .current owner connectionId
      some { s with phase := update s.phase t (.unlocking key (s.clock + duration)) }
    | .idle, .error _ => some s
    | _, _ => none
  | .insert t =>
    match s.phase t with
    | .unlocking key expiresAt =>
      some { s with inner := update s.inner key (some expiresAt)
                    phase := update s.phase t .idle
                    history := s.history ++ [.unlocked key expiresAt] }
    | _ => none
  | .lock t owner connectionId =>
    match s.phase t with
    | .idle =>
      let key := .current owner connectionId
      some { s with inner := update s.inner key none
                    history := s.history ++ [.locked key] }
    | _ => none
  | .read t owner connectionId =>
    match s.phase t, s.inner (.current owner connectionId) with
    | .idle, some expiresAt =>
      let key := .current owner connectionId
      some { s with phase := update s.phase t (.deciding key expiresAt s.history) }
    | .idle, none => some s
    | _, _ => none
  | .decide t =>
    match s.phase t with
    | .deciding key expiresAt seen =>
      let next := if expiresAt ≤ s.clock then .cleaning key expiresAt s.clock seen else .idle
      some { s with phase := update s.phase t next }
    | _ => none
  | .cleanup t =>
    match s.phase t with
    | .cleaning key _ _ _ =>
      some { s with inner := update s.inner key none
                    phase := update s.phase t .idle }
    | _ => none

/-- The answer of `remaining_ms` that an action gives. -/
def reported (s : State T) : Action T → Option Report
  | .read t owner connectionId =>
    match s.phase t, s.inner (.current owner connectionId) with
    | .idle, none => some ⟨.current owner connectionId, s.history, s.clock, 0⟩
    | _, _ => none
  | .decide t =>
    match s.phase t with
    | .deciding key expiresAt seen =>
      if expiresAt ≤ s.clock then none
      else some ⟨key, seen, s.clock, asMillis (expiresAt - s.clock)⟩
    | _ => none
  | .cleanup t =>
    match s.phase t with
    | .cleaning key _ now seen => some ⟨key, seen, now, 0⟩
    | _ => none
  | _ => none

variable (clock : Nat)

def State.init : State T := ⟨clock, fun _ => none, fun _ => .idle, []⟩

/-- A window is open for the check: an unlock of the pair precedes it that is neither over nor
locked. -/
def Report.Open (report : Report) : Prop :=
  ∃ before expiresAt after, report.seen = before ++ .unlocked report.key expiresAt :: after ∧
    .locked report.key ∉ after ∧ report.now < expiresAt

/-- The window that is open is not replaced by an unlock of the pair with an earlier expiry. -/
def Report.OpenStill (report : Report) : Prop :=
  ∃ before expiresAt after, report.seen = before ++ .unlocked report.key expiresAt :: after ∧
    .locked report.key ∉ after ∧
    (∀ later, .unlocked report.key later ∈ after → expiresAt ≤ later) ∧ report.now < expiresAt

/-- The check answers that a window is active exactly when one is open. -/
def Answers (s : State T) (a : Action T) : Prop :=
  ∀ report, reported s a = some report → (report.isActive ↔ report.Open)

/-- The clock is not within the last partial millisecond of the window the thread has read. -/
def Phase.ReadsWhole : Phase → Prop
  | .deciding _ expiresAt _ => expiresAt ≤ clock ∨ clock + 1000000 ≤ expiresAt
  | _ => True

/-- The map holds no running window of the pair whose window the thread is about to remove. -/
def Phase.RemovesOver (s : State T) : Phase → Prop
  | .cleaning key _ _ _ => ∀ expiresAt ∈ s.inner key, expiresAt ≤ s.clock
  | _ => True

/-- The window the thread is about to write replaces no running window of the pair that ends
later. -/
def Phase.Extends (s : State T) : Phase → Prop
  | .unlocking key expiresAt => ∀ held ∈ s.inner key, held ≤ s.clock ∨ held ≤ expiresAt
  | _ => True

/-- An unlock does not cut a running window of its pair short, a cleanup finds none, and a check
does not read the clock within the last partial millisecond of the window it has read. -/
def Undisturbed (s : State T) : Action T → Prop
  | .insert t => (s.phase t).Extends s
  | .decide t => (s.phase t).ReadsWhole s.clock
  | .cleanup t => (s.phase t).RemovesOver s
  | _ => True

/-! ### The window the writes leave -/

/-- The window of a pair after one more write. -/
def windowAfter (key : WriteUnlockKey) (window : Option Nat) : Write → Option Nat
  | .unlocked key' expiresAt => if key' = key then some expiresAt else window
  | .locked key' => if key' = key then none else window

def lastWindow (key : WriteUnlockKey) (history : List Write) : Option Nat :=
  history.foldl (windowAfter key) none

theorem lastWindow_concat (key : WriteUnlockKey) (history : List Write) (write : Write) :
    lastWindow key (history ++ [write]) = windowAfter key (lastWindow key history) write := by
  simp [lastWindow]

attribute [local simp] windowAfter

/-- Without a lock and an earlier expiry, a window only moves on. -/
theorem foldl_windowAfter_le {key : WriteUnlockKey} {least : Nat} {after : List Write}
    (hlocked : .locked key ∉ after)
    (hlater : ∀ later, .unlocked key later ∈ after → least ≤ later) :
    ∀ window, least ≤ window → ∃ last, after.foldl (windowAfter key) (some window) = some last ∧
      least ≤ last := by
  induction after with
  | nil => exact fun window hw => ⟨window, rfl, hw⟩
  | cons write after ih =>
    intro window hw
    have ih := ih (fun h => hlocked (by simp [h])) (fun later h => hlater later (by simp [h]))
    -- only an unlock of the pair itself changes the window
    cases write with
    | unlocked key' expiresAt =>
      by_cases hkey : key' = key
      · subst hkey
        simpa using ih expiresAt (hlater expiresAt (by simp))
      · simpa [hkey] using ih window hw
    | locked key' =>
      have hkey : key' ≠ key := by
        rintro rfl
        simp at hlocked
      simpa [hkey] using ih window hw

/-- The window that is left comes from the last unlock of the pair, with no lock behind it. -/
theorem exists_of_lastWindow {key : WriteUnlockKey} {expiresAt : Nat} (history : List Write)
    (h : lastWindow key history = some expiresAt) :
    ∃ before after, history = before ++ .unlocked key expiresAt :: after ∧
      .locked key ∉ after ∧ ∀ later, .unlocked key later ∉ after := by
  induction history using List.reverseRecOn with
  | nil => simp [lastWindow] at h
  | append_singleton history write ih =>
    rw [lastWindow_concat] at h
    -- a write of another pair extends what follows the last unlock
    have other (hwrite : ∀ window, windowAfter key window write = window)
        (hl : write ≠ .locked key) (hu : ∀ later, write ≠ .unlocked key later) :
        ∃ before after, history ++ [write] = before ++ .unlocked key expiresAt :: after ∧
          .locked key ∉ after ∧ ∀ later, .unlocked key later ∉ after := by
      rw [hwrite] at h
      obtain ⟨before, after, rfl, hlocked, hlater⟩ := ih h
      refine ⟨before, after ++ [write], by simp, ?_, fun later => ?_⟩
      · simpa [hlocked] using hl.symm
      · simpa [hlater later] using (hu later).symm
    cases write with
    | unlocked key' expiresAt' =>
      by_cases hkey : key' = key
      · subst hkey
        obtain rfl : expiresAt' = expiresAt := by simpa using h
        exact ⟨history, [], rfl, by simp, by simp⟩
      · exact other (by simp [hkey]) (by simp) (by simp [hkey])
    | locked key' =>
      by_cases hkey : key' = key
      · simp [hkey] at h
      · exact other (by simp [hkey]) (by simp [hkey]) (by simp)

/-- A window is still open exactly when the writes leave one that is not over. -/
theorem Report.openStill_iff (report : Report) :
    report.OpenStill ↔ ∃ expiresAt, lastWindow report.key report.seen = some expiresAt ∧
      report.now < expiresAt := by
  constructor
  · rintro ⟨before, expiresAt, after, hseen, hlocked, hlater, hnow⟩
    obtain ⟨last, hlast, hle⟩ := foldl_windowAfter_le hlocked hlater expiresAt le_rfl
    refine ⟨last, ?_, by omega⟩
    rw [hseen, lastWindow, List.foldl_append]
    simpa using hlast
  · rintro ⟨expiresAt, hlast, hnow⟩
    obtain ⟨before, after, hseen, hlocked, hlater⟩ := exists_of_lastWindow _ hlast
    exact ⟨before, expiresAt, after, hseen, hlocked, fun later h => absurd h (hlater later), hnow⟩

/-! ### The windows since the last lock -/

def standingAfter (key : WriteUnlockKey) (standing : List Nat) : Write → List Nat
  | .unlocked key' expiresAt => if key' = key then expiresAt :: standing else standing
  | .locked key' => if key' = key then [] else standing

/-- The windows of a pair that have been opened since its last lock. -/
def standing (key : WriteUnlockKey) (history : List Write) : List Nat :=
  history.foldl (standingAfter key) []

theorem standing_concat (key : WriteUnlockKey) (history : List Write) (write : Write) :
    standing key (history ++ [write]) = standingAfter key (standing key history) write := by
  simp [standing]

theorem mem_standing_iff {key : WriteUnlockKey} {expiresAt : Nat} (history : List Write) :
    expiresAt ∈ standing key history ↔ ∃ before after,
      history = before ++ .unlocked key expiresAt :: after ∧ .locked key ∉ after := by
  induction history using List.reverseRecOn with
  | nil => simp [standing]
  | append_singleton history write ih =>
    -- the unlock is the last write, or the last write is no lock
    have hlast : (∃ before after, history ++ [write] = before ++ .unlocked key expiresAt :: after ∧
          .locked key ∉ after) ↔
        write = .unlocked key expiresAt ∨ write ≠ .locked key ∧
          expiresAt ∈ standing key history := by
      rw [ih]
      constructor
      · rintro ⟨before, after, heq, hlocked⟩
        rcases after.eq_nil_or_concat' with rfl | ⟨after, last, rfl⟩
        · exact .inl (by simpa using (List.append_inj' heq rfl).2)
        · rw [← List.cons_append, ← List.append_assoc] at heq
          obtain ⟨hhistory, hwrite⟩ := List.append_inj' heq rfl
          simp only [List.mem_append, not_or] at hlocked
          refine .inr ⟨?_, before, after, hhistory, hlocked.1⟩
          rintro rfl
          exact hlocked.2 (by simpa using hwrite)
      · rintro (rfl | ⟨hwrite, before, after, rfl, hlocked⟩)
        · exact ⟨history, [], rfl, List.not_mem_nil⟩
        · exact ⟨before, after ++ [write], by simp, by simpa [hlocked] using hwrite.symm⟩
    rw [hlast, standing_concat]
    cases write with
    | unlocked key' expiresAt' =>
      by_cases hkey : key' = key
      · simp [standingAfter, hkey, eq_comm]
      · simp [standingAfter, hkey]
    | locked key' => by_cases hkey : key' = key <;> simp [standingAfter, hkey]

theorem Report.open_iff (report : Report) :
    report.Open ↔ ∃ expiresAt ∈ standing report.key report.seen, report.now < expiresAt := by
  simp only [mem_standing_iff]
  constructor
  · rintro ⟨before, expiresAt, after, hseen, hlocked, hnow⟩
    exact ⟨expiresAt, ⟨before, after, hseen, hlocked⟩, hnow⟩
  · rintro ⟨expiresAt, ⟨before, after, hseen, hlocked⟩, hnow⟩
    exact ⟨before, expiresAt, after, hseen, hlocked, hnow⟩

/-! ### The invariant -/

/-- No window is longer than the longest duration. -/
def Bounded (expiresAt : Nat) : Prop :=
  expiresAt ≤ clock + fromSecs writeUnlockFiveMinutesSecs

/-- What the phase of a thread says about the writes and the clock: a window that has been read is
one of those that stand, and the others end before it or are over. -/
def Phase.Holds : Phase → Prop
  | .idle => True
  | .unlocking _ expiresAt => Bounded clock expiresAt
  | .deciding key expiresAt seen =>
    Bounded clock expiresAt ∧ expiresAt ∈ standing key seen ∧
      ∀ other ∈ standing key seen, other ≤ clock ∨ other ≤ expiresAt
  | .cleaning key _ now seen => ∀ other ∈ standing key seen, other ≤ now

/-- The map holds windows that stand, and those it does not hold are over or end before the one it
holds. -/
structure Inv (s : State T) : Prop where
  phase : ∀ t, (s.phase t).Holds s.clock
  bounded : ∀ key expiresAt, s.inner key = some expiresAt → Bounded s.clock expiresAt
  written : ∀ key expiresAt, s.inner key = some expiresAt → expiresAt ∈ standing key s.history
  kept : ∀ key, ∀ expiresAt ∈ standing key s.history,
    expiresAt ≤ s.clock ∨ ∃ held ∈ s.inner key, expiresAt ≤ held

omit [DecidableEq T] in
theorem Inv.init : Inv (.init clock : State T) where
  phase _ := trivial
  bounded := by simp [State.init]
  written := by simp [State.init]
  kept := by simp [State.init, standing]

theorem Phase.Holds.mono {clock clock' : Nat} (hle : clock ≤ clock') {phase : Phase}
    (h : phase.Holds clock) : phase.Holds clock' := by
  cases phase with
  | idle => trivial
  | unlocking key expiresAt => exact Nat.le_trans h (by omega)
  | deciding key expiresAt seen =>
    obtain ⟨hbounded, hmem, hothers⟩ := h
    exact ⟨Nat.le_trans hbounded (by omega), hmem, fun other ho => by grind⟩
  | cleaning key expiresAt now seen => exact h

variable {s : State T}

omit [DecidableEq T] in
theorem Inv.holds (h : Inv s) {t : T} {phase : Phase} (hphase : s.phase t = phase) :
    phase.Holds s.clock := hphase ▸ h.phase t

theorem Inv.setPhase (h : Inv s) (t : T) {phase : Phase}
    (hphase : phase.Holds s.clock) : Inv { s with phase := update s.phase t phase } where
  __ := h
  phase t' := by
    by_cases ht : t' = t
    · subst ht
      simpa using hphase
    · simpa [ht] using h.phase t'

omit [DecidableEq T] in
/-- An unlock that cuts no running window short. -/
theorem Inv.insert (h : Inv s) {key : WriteUnlockKey} {expiresAt : Nat}
    (hbounded : Bounded s.clock expiresAt)
    (hextends : ∀ held ∈ s.inner key, held ≤ s.clock ∨ held ≤ expiresAt) :
    Inv { s with inner := update s.inner key (some expiresAt)
                 history := s.history ++ [.unlocked key expiresAt] } where
  phase := h.phase
  bounded key' e := by
    have := h.bounded key' e
    grind [update_apply]
  written key' e := by
    have := h.written key' e
    simp only [standing_concat, standingAfter]
    grind [update_apply]
  kept key' e := by
    have hkept := h.kept key' e
    rw [standing_concat]
    by_cases hkey : key = key'
    · subst hkey
      simp only [standingAfter, if_true, List.mem_cons, update_self, Option.mem_some_iff,
        exists_eq_left']
      rintro (rfl | he)
      · exact .inr le_rfl
      · rcases hkept he with hover | ⟨held, hheld, hle⟩
        · exact .inl hover
        · have := hextends held hheld
          omega
    · simpa only [standingAfter, hkey, if_false, update_of_ne (Ne.symm hkey)] using hkept

omit [DecidableEq T] in
theorem Inv.lock (h : Inv s) (key : WriteUnlockKey) :
    Inv { s with inner := update s.inner key none
                 history := s.history ++ [.locked key] } where
  phase := h.phase
  bounded key' e := by
    have := h.bounded key' e
    grind [update_apply]
  written key' e := by
    have := h.written key' e
    simp only [standing_concat, standingAfter]
    grind [update_apply]
  kept key' e := by
    have hkept := h.kept key' e
    simp only [standing_concat, standingAfter]
    grind [update_apply]

omit [DecidableEq T] in
/-- A removal that the history does not record, of a window that is over. -/
theorem Inv.remove (h : Inv s) (key : WriteUnlockKey)
    (hover : ∀ expiresAt ∈ s.inner key, expiresAt ≤ s.clock) :
    Inv { s with inner := update s.inner key none } where
  phase := h.phase
  bounded key' e := by
    have := h.bounded key' e
    grind [update_apply]
  written key' e := by
    have := h.written key' e
    grind [update_apply]
  kept key' e := by
    -- what the map held was over already
    have hkept := h.kept key' e
    grind [update_apply]

theorem bounded_of_unlockDuration {connectionId : Text} {secs duration clock : Nat}
    (h : unlockDuration connectionId secs = .ok duration) : Bounded clock (clock + duration) := by
  unfold unlockDuration parseDurationSecs at h
  split at h
  · cases h
  split at h
  · cases h
    exact Nat.add_le_add_left (by decide) _
  · split at h <;> cases h
    exact Nat.le_refl _

/-- **Every undisturbed step keeps the invariant.** -/
theorem Inv.step {s s' : State T} {a : Action T} (h : Inv s) (hquiet : Undisturbed s a)
    (hstep : step s a = some s') : Inv s' := by
  cases a with (simp only [Safety.step] at hstep; try split at hstep <;> try cases hstep)
  | tick elapsed =>
    cases hstep
    refine ⟨fun t => (h.phase t).mono (by simp),
      fun key e he => Nat.le_trans (h.bounded key e he) (by simp), h.written, fun key e he => ?_⟩
    exact (h.kept key e he).imp_left fun hover => Nat.le_trans hover (by simp)
  | unlock t owner connectionId secs =>
    first
      | next duration _ hduration => exact h.setPhase t (bounded_of_unlockDuration hduration)
      | exact h
  | insert t =>
    next key expiresAt hphase =>
      -- the new window replaces none that ends later
      have hbounded : Bounded s.clock expiresAt := h.holds hphase
      refine Inv.setPhase (h.insert hbounded ?_) t trivial
      simpa [Undisturbed, Phase.Extends, hphase] using hquiet
  | lock t owner connectionId => exact h.lock _
  | read t owner connectionId =>
    first
      | next expiresAt _ hinner =>
        refine h.setPhase t ⟨h.bounded _ _ hinner, h.written _ _ hinner, fun other hother => ?_⟩
        exact (h.kept _ other hother).imp_right fun ⟨held, hheld, hle⟩ => by grind
      | exact h
  | decide t =>
    next key expiresAt seen hphase =>
      -- a window that is over for the thread is so for all unlocks that it has seen
      obtain ⟨-, -, hothers⟩ := h.holds hphase
      apply h.setPhase t
      split
      · next hover => exact fun other ho => by grind
      · trivial
  | cleanup t =>
    next hphase =>
      refine Inv.setPhase (h.remove _ ?_) t trivial
      simpa [Undisturbed, Phase.RemovesOver, hphase] using hquiet

theorem asMillis_pos {clock expiresAt : Nat} (hbounded : Bounded clock expiresAt)
    (hms : clock + 1000000 ≤ expiresAt) : 0 < asMillis (expiresAt - clock) := by
  unfold Bounded fromSecs writeUnlockFiveMinutesSecs at hbounded
  have hlow : 1 ≤ (expiresAt - clock) / 1000000 := by omega
  have hhigh : (expiresAt - clock) / 1000000 < 2 ^ 64 := by omega
  rwa [asMillis, Nat.mod_eq_of_lt hhigh]

omit [DecidableEq T] in
/-- Under the invariant an undisturbed step answers rightly. -/
theorem Inv.answers {a : Action T} (h : Inv s) (hquiet : Undisturbed s a) : Answers s a := by
  intro report hreport
  rw [report.open_iff]
  cases a with
  | read t owner connectionId =>
    simp only [reported] at hreport
    split at hreport <;> cases hreport
    next hinner =>
      simp only [Report.isActive, Nat.lt_irrefl, decide_false, Bool.false_eq_true, false_iff]
      -- an unlock that is not over would be in the map
      rintro ⟨expiresAt, hmem, hnow⟩
      rcases h.kept _ _ hmem with hover | ⟨held, hheld, -⟩
      · omega
      · simp [hinner] at hheld
  | decide t =>
    simp only [reported] at hreport
    split at hreport
    · next key expiresAt seen hphase =>
      obtain ⟨hbounded, hmem, -⟩ := h.holds hphase
      -- at least one millisecond is left, or none at all
      have hms : expiresAt ≤ s.clock ∨ s.clock + 1000000 ≤ expiresAt := by
        simpa [Undisturbed, Phase.ReadsWhole, hphase] using hquiet
      split at hreport <;> cases hreport
      next hnow =>
        have hpos := asMillis_pos hbounded (by omega)
        simp only [Report.isActive, hpos, decide_true, true_iff]
        exact ⟨expiresAt, hmem, by omega⟩
    · cases hreport
  | cleanup t =>
    simp only [reported] at hreport
    split at hreport
    · next key expiresAt now seen hphase =>
      have hover := h.holds hphase
      cases hreport
      simp only [Report.isActive, Nat.lt_irrefl, decide_false, Bool.false_eq_true, false_iff]
      rintro ⟨other, hmem, hnow⟩
      exact absurd (hover other hmem) (by omega)
    · cases hreport
  | tick elapsed | unlock t owner connectionId secs | insert t | lock t owner connectionId =>
    simp [reported] at hreport

/-- **Checks answer rightly along undisturbed runs**: along every run of any number of threads, in
which no unlock cuts a running window of its pair short, no cleanup meets one and no clock reading
falls into the last partial millisecond of a window, a check is told of an active window exactly
when an unlock of its pair precedes its read that is neither over nor locked. -/
theorem answers_of_undisturbed (clock : Nat) (as : List (Action T))
    (hquiet : Along step Undisturbed (State.init clock) as) :
    Along step Answers (State.init clock) as :=
  Along.of_invariant (I := Inv) (fun _ _ _ h hq hs => h.step hq hs) (fun _ _ h hq => h.answers hq)
    as _ (Inv.init clock) hquiet

/-! ### Checking a run -/

instance (report : Report) : Decidable report.Open :=
  decidable_of_iff (∃ expiresAt ∈ standing report.key report.seen, report.now < expiresAt)
    report.open_iff.symm

instance (s : State T) (a : Action T) : Decidable (Answers s a) :=
  inferInstanceAs (Decidable (∀ report ∈ reported s a, (report.isActive ↔ report.Open)))

instance Phase.decidableReadsWhole : (phase : Phase) → Decidable (phase.ReadsWhole clock)
  | .deciding .. => inferInstanceAs (Decidable (_ ∨ _))
  | .idle | .unlocking .. | .cleaning .. => isTrue trivial

instance Phase.decidableRemovesOver (s : State T) : (phase : Phase) →
    Decidable (phase.RemovesOver s)
  | .cleaning key _ _ _ =>
    inferInstanceAs (Decidable (∀ expiresAt ∈ s.inner key, expiresAt ≤ s.clock))
  | .idle | .unlocking .. | .deciding .. => isTrue trivial

instance Phase.decidableExtends (s : State T) : (phase : Phase) → Decidable (phase.Extends s)
  | .unlocking key expiresAt =>
    inferInstanceAs (Decidable (∀ held ∈ s.inner key, held ≤ s.clock ∨ held ≤ expiresAt))
  | .idle | .deciding .. | .cleaning .. => isTrue trivial

instance (s : State T) : (a : Action T) → Decidable (Undisturbed s a)
  | .insert t => Phase.decidableExtends s (s.phase t)
  | .decide t => Phase.decidableReadsWhole s.clock (s.phase t)
  | .cleanup t => Phase.decidableRemovesOver s (s.phase t)
  | .tick _ | .unlock .. | .lock .. | .read .. => isTrue trivial

/-- A session unlocks a connection for a minute; another of its requests finds the window over,
and the session unlocks again once the window is cleaned up. -/
def unlockAgainAfterCleanup : List (Action Bool) :=
  [.unlock true (some "s".toList) "prod".toList 60, .insert true,
    .read false (some "s".toList) "prod".toList, .decide false, .tick (fromSecs 60),
    .read false (some "s".toList) "prod".toList, .decide false, .cleanup false,
    .unlock true (some "s".toList) "prod".toList 300, .insert true,
    .read false (some "s".toList) "prod".toList, .decide false]

theorem answers_unlockAgainAfterCleanup :
    Along step Undisturbed (State.init 0) unlockAgainAfterCleanup ∧
      Along step Answers (State.init 0) unlockAgainAfterCleanup :=
  have hquiet : Along step Undisturbed (State.init 0) unlockAgainAfterCleanup := by decide +kernel
  ⟨hquiet, answers_of_undisturbed 0 unlockAgainAfterCleanup hquiet⟩

/-- The same, but the session unlocks again between the decision of the other request and its
cleanup, which then removes the new window. -/
def unlockAgainBeforeCleanup : List (Action Bool) :=
  [.unlock true (some "s".toList) "prod".toList 60, .insert true, .tick (fromSecs 60),
    .read false (some "s".toList) "prod".toList, .decide false,
    .unlock true (some "s".toList) "prod".toList 300, .insert true, .cleanup false,
    .read false (some "s".toList) "prod".toList]

/-- A session unlocks a connection for five minutes and then for one, and checks after 100 s. -/
def unlockShorter : List (Action Bool) :=
  [.unlock true (some "s".toList) "prod".toList 300, .insert true,
    .unlock true (some "s".toList) "prod".toList 60, .insert true, .tick (fromSecs 100),
    .read true (some "s".toList) "prod".toList, .decide true, .cleanup true]

/-- **A cleanup removes a window that was opened after its decision**: the check after it reports no
window, right after an unlock for five minutes. And **an unlock cuts a window short**: the check
reports none, within the five minutes of an unlock. There is no lock in the runs. -/
theorem not_answers_cleanup_shorter :
    ¬ Along step Answers (State.init 0) unlockAgainBeforeCleanup ∧
      ¬ Along step Answers (State.init 0) unlockShorter := by
  decide +kernel

/-! ### Disturbed runs -/

/-- The windows in the map, and those read from it, are the ones that the writes have left. -/
structure Sound (s : State T) : Prop where
  read : ∀ t key expiresAt seen, s.phase t = .deciding key expiresAt seen →
    lastWindow key seen = some expiresAt
  written : ∀ key expiresAt, s.inner key = some expiresAt →
    lastWindow key s.history = some expiresAt

theorem Sound.step {s' : State T} {a : Action T} (h : Sound s) (hstep : step s a = some s') :
    Sound s' := by
  obtain ⟨hread, hwritten⟩ := h
  cases a with (simp only [Safety.step] at hstep)
  | tick =>
    cases hstep
    exact ⟨hread, hwritten⟩
  | unlock | read | decide | cleanup =>
    split at hstep <;> cases hstep <;> constructor <;> grind [update_apply]
  | insert | lock =>
    split at hstep <;> cases hstep
    constructor <;> simp only [lastWindow_concat, windowAfter] <;> grind [update_apply]

/-- **No check is told of a window that is not open**, however the calls are interleaved: a cleanup
that meets a new window removes one too many, and never leaves one. -/
theorem open_of_isActive (as : List (Action T)) :
    Along step (fun s a => ∀ report, reported s a = some report → report.isActive →
      report.OpenStill) (State.init clock) as := by
  have hinit : Sound (State.init clock : State T) := ⟨by simp [State.init], by simp [State.init]⟩
  refine Along.of_invariant (I := Sound) (C := fun _ _ => True) ?_ ?_ as _ hinit
    (.of_forall (fun _ _ => trivial) ..)
  · exact fun s a s' h _ hs => h.step hs
  · intro s a h _ report hreport hactive
    cases a with (simp only [reported] at hreport)
    | decide t =>
      split at hreport
      · next key expiresAt seen hphase =>
        split at hreport <;> cases hreport
        next hnow =>
        exact (Report.openStill_iff _).mpr ⟨expiresAt, h.read t _ _ _ hphase, Nat.lt_of_not_le hnow⟩
      · cases hreport
    | read | cleanup =>
      split at hreport <;> cases hreport
      simp [Report.isActive] at hactive
    | tick | unlock | insert | lock => cases hreport

end Dbx.Safety
