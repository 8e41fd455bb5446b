import Dbx.Web.Sessions
import Mathlib.Algebra.BigOperators.Fin
import Mathlib.Algebra.Order.BigOperators.Group.Finset

/-!
# The lockout of the login

A login looks for a lockout, verifies its password without a lock and records what it found. Other
requests run between these three steps, so all that are past the first one verify their passwords,
whatever the others record.

## Main results

* `bounded_iff`: the lockout holds in the runs in which logins do not overlap
* `along_wrong_lt`: what it still bounds where they do
-/

namespace Dbx.Web.Lockout

open Transition Sessions Function

/-- Where a login stands. -/
inductive Phase
  | idle
  | admitted
  /-- The password is verified, and the outcome is not recorded. -/
  | checked (right : Bool)
  deriving DecidableEq

structure State (T : Type) where
  clock : Nat := 0
  rateLimit : RateLimit := ⟨0, none⟩
  phase : T → Phase := fun _ => .idle
  /-- The wrong passwords checked since the last success or the end of a lockout, for the
  statements only. -/
  wrong : Nat := 0

inductive Action (T H : Type)
  | tick (elapsed : Nat)
  | look (t : T)
  | verify (t : T) (password : Text) (hash : H)
  | record (t : T)

variable {T H : Type}

/-- A lockout is on at the given time. -/
def State.lockedAt (s : State T) (clock : Nat) : Bool := s.rateLimit.lockedUntil.any (clock < ·)

/-- A lockout is on. -/
def State.locked (s : State T) : Bool := s.lockedAt s.clock

def State.tick (s : State T) (elapsed : Nat) : State T := { s with
  clock := s.clock + elapsed
  wrong := if s.locked && !s.lockedAt (s.clock + elapsed) then 0 else s.wrong }

/-- `login`, against any hash that it may have copied. A login that is refused is back to where it
was. -/
def step [DecidableEq T] (hashing : Hashing H) (s : State T) : Action T H → Option (State T)
  | .tick elapsed => some (s.tick elapsed)
  | .look t =>
    match s.phase t with
    | .idle => some (if s.locked then s else { s with phase := update s.phase t .admitted })
    | _ => none
  | .verify t password hash =>
    match s.phase t with
    | .admitted =>
      match hashing.verifyPassword password hash with
      | none => some { s with phase := update s.phase t .idle }
      | some right => some { s with
        phase := update s.phase t (.checked right)
        wrong := if right then s.wrong else s.wrong + 1 }
    | _ => none
  | .record t =>
    match s.phase t with
    | .checked true =>
      some { s with rateLimit := ⟨0, none⟩, phase := update s.phase t .idle, wrong := 0 }
    | .checked false =>
      some { s with rateLimit := s.rateLimit.fail s.clock, phase := update s.phase t .idle }
    | _ => none

/-- No wrong password is checked after `maxAttempts` of them: the last one of these locks the login
for `lockout`, and no login is admitted. -/
def Bounded (hashing : Hashing H) (s : State T) : Action T H → Prop
  | .tick _ => True
  | .look t => s.phase t = .idle → s.wrong = maxAttempts → s.locked
  | .verify t password hash => s.phase t = .admitted →
    hashing.verifyPassword password hash = some false → s.wrong < maxAttempts
  | .record t => s.phase t = .checked false → s.wrong = maxAttempts →
    (s.rateLimit.fail s.clock).lockedUntil = some (s.clock + lockout)

/-- No login starts while another is under way. -/
def Apart (s : State T) : Action T H → Prop
  | .look t => ∀ u, u ≠ t → s.phase u = .idle
  | _ => True

/-- What is counted, where at most one login is under way. -/
structure Inv (s : State T) : Prop where
  apart : ∀ t u, s.phase t ≠ .idle → s.phase u ≠ .idle → t = u
  locked : s.locked → s.wrong = maxAttempts ∧ s.rateLimit.failCount = 0 ∧ ∀ t, s.phase t = .idle
  limit : s.rateLimit.failCount < maxAttempts
  checked : ∀ t, s.phase t = .checked false → s.wrong = s.rateLimit.failCount + 1
  settled : ¬s.locked → (∀ t, s.phase t ≠ .checked false) → s.wrong = s.rateLimit.failCount

variable {hashing : Hashing H} {s s' : State T} {t : T}

theorem locked_of_lt {lockedUntil : Nat} (h : s.rateLimit.lockedUntil = some lockedUntil)
    (hlt : s.clock < lockedUntil) : s.locked := by
  simpa [State.locked, State.lockedAt, h] using hlt

theorem locked_of_tick {elapsed : Nat} (h : s.lockedAt (s.clock + elapsed)) : s.locked := by
  obtain ⟨lockedUntil, hmem, hlt⟩ := (Option.any_eq_true ..).mp h
  exact locked_of_lt hmem (Nat.lt_of_le_of_lt (Nat.le_add_right ..) (of_decide_eq_true hlt))

theorem Inv.free (h : Inv s) (hphase : s.phase t ≠ .idle) : ¬s.locked :=
  fun hon => hphase ((h.locked hon).2.2 t)

/-- The other logins are idle while one is under way. -/
theorem Inv.idle (h : Inv s) (hphase : s.phase t ≠ .idle) {u : T} (hu : u ≠ t) :
    s.phase u = .idle := by
  by_contra hne
  exact hu (h.apart u t hne hphase)

theorem Inv.wrong_of_admitted (h : Inv s) (hphase : s.phase t = .admitted) :
    s.wrong = s.rateLimit.failCount := by
  have hne : s.phase t ≠ .idle := by simp [hphase]
  refine h.settled (h.free hne) fun u hu => ?_
  obtain rfl := h.apart u t (by simp [hu]) hne
  simp [hphase] at hu

theorem Inv.tick (h : Inv s) (elapsed : Nat) : Inv (s.tick elapsed) where
  apart := h.apart
  locked hlater := by
    have hon : s.locked := locked_of_tick hlater
    have hlater : s.lockedAt (s.clock + elapsed) := hlater
    simpa [State.tick, hon, hlater] using h.locked hon
  limit := h.limit
  checked t hchecked := by
    have hfree := h.free (t := t) (by rw [show s.phase t = _ from hchecked]; nofun)
    simpa [State.tick, hfree] using h.checked t hchecked
  settled hfree hnone := by
    have hfree : s.lockedAt (s.clock + elapsed) = false := Bool.not_eq_true _ ▸ hfree
    by_cases hon : s.locked
    · simp [State.tick, hon, hfree, h.locked hon]
    · simpa [State.tick, hon] using h.settled hon hnone

attribute [local simp] maxAttempts

section Apart

variable [DecidableEq T]

/-- A login that moves on while the others are idle is the only one under way. -/
theorem apart_update {phases : T → Phase} {next : Phase} (h : ∀ u, u ≠ t → phases u = .idle)
    (u v : T) (hu : update phases t next u ≠ .idle) (hv : update phases t next v ≠ .idle) :
    u = v := by
  have hown : ∀ w, update phases t next w ≠ .idle → w = t := by
    intro w hw
    by_contra hne
    exact hw (by rw [update_of_ne hne, h w hne])
  rw [hown u hu, hown v hv]

/-- A login that fails or is refused is back to where it was, as the others are. -/
theorem update_idle {phases : T → Phase} (h : ∀ u, u ≠ t → phases u = .idle) (u : T) :
    update phases t .idle u = .idle := by
  by_cases hu : u = t
  · rw [hu, update_self]
  · rw [update_of_ne hu, h u hu]

theorem Inv.step {a : Action T H} (h : Inv s) (happart : Apart s a)
    (hs : step hashing s a = some s') : Inv s' := by
  cases a with
  | tick elapsed =>
    cases hs
    exact h.tick elapsed
  | look t =>
    simp only [Lockout.step] at hs
    split at hs <;> cases hs
    next hidle =>
    split
    · exact h
    next hfree =>
    -- no other login is under way, so all failures are counted
    have hall : ∀ u, s.phase u = .idle := fun u =>
      if hu : u = t then hu ▸ hidle else happart u hu
    have hwrong : s.wrong = s.rateLimit.failCount := h.settled hfree fun u => by simp [hall u]
    refine ⟨apart_update happart, fun hon => absurd hon hfree, h.limit, fun u hu => ?_,
      fun _ _ => hwrong⟩
    by_cases heq : u = t <;> simp [heq, hall] at hu
  | verify t password hash =>
    simp only [Lockout.step] at hs
    split at hs
    case h_2 => cases hs
    next hadmitted =>
    have hne : s.phase t ≠ .idle := by simp [hadmitted]
    have hothers : ∀ u, u ≠ t → s.phase u = .idle := fun u hu => h.idle hne hu
    have hfree : ¬s.locked := h.free hne
    have hwrong := h.wrong_of_admitted hadmitted
    split at hs <;> cases hs
    · refine ⟨apart_update hothers, fun hon => absurd hon hfree, h.limit, fun u hu => ?_,
        fun _ _ => hwrong⟩
      simp [update_idle hothers] at hu
    next right _ =>
    refine ⟨apart_update hothers, fun hon => absurd hon hfree, h.limit, fun u hu => ?_,
      fun _ hnone => ?_⟩
    · obtain rfl : u = t := by
        by_contra hut
        simp [hut, hothers u hut] at hu
      obtain rfl : right = false := by simpa using hu
      simpa using hwrong
    · have hright : right = true := by simpa using hnone t
      simpa [hright] using hwrong
  | record t =>
    simp only [Lockout.step] at hs
    split at hs <;> cases hs
    · next hchecked =>
      have hothers : ∀ u, u ≠ t → s.phase u = .idle := fun u hu => h.idle (by simp [hchecked]) hu
      exact ⟨apart_update hothers, by simp [State.locked, State.lockedAt], by simp,
        fun u hu => by simp [update_idle hothers] at hu, fun _ _ => rfl⟩
    next hchecked =>
    have hne : s.phase t ≠ .idle := by simp [hchecked]
    have hothers : ∀ u, u ≠ t → s.phase u = .idle := fun u hu => h.idle hne hu
    have hfree : ¬s.locked := h.free hne
    have hwrong := h.checked t hchecked
    have hlimit := h.limit
    have hidle : ∀ u, update s.phase t .idle u = .idle := update_idle hothers
    -- the last failure that is allowed starts the lockout
    by_cases hlast : maxAttempts ≤ s.rateLimit.failCount + 1
    · rw [RateLimit.fail, if_pos hlast]
      refine ⟨apart_update hothers, fun _ => ⟨?_, rfl, hidle⟩, by simp,
        fun u hu => by simp [hidle] at hu, fun hfree => absurd ?_ hfree⟩
      · change s.wrong = maxAttempts
        omega
      · exact locked_of_lt rfl (Nat.lt_add_of_pos_right (by decide))
    · rw [RateLimit.fail, if_neg hlast]
      exact ⟨apart_update hothers, fun hon => absurd hon hfree, Nat.not_le.mp hlast,
        fun u hu => by simp [hidle] at hu, fun _ _ => hwrong⟩

omit [DecidableEq T] in
theorem Inv.bounded (h : Inv s) {a : Action T H} (happart : Apart s a) : Bounded hashing s a := by
  have hlimit := h.limit
  cases a with
  | tick => trivial
  | look t =>
    intro hidle hwrong
    by_contra hfree
    have hsettled := h.settled hfree fun u => by
      by_cases hu : u = t
      · simp [hu, hidle]
      · simp [happart u hu]
    omega
  | verify t password hash =>
    intro hadmitted _
    have hwrong := h.wrong_of_admitted hadmitted
    omega
  | record t =>
    intro hchecked hwrong
    have hcount := h.checked t hchecked
    rw [RateLimit.fail, if_pos (by omega)]

/-- The lockout bounds guessing in every run in which no login starts while another is under
way. -/
theorem along_bounded_of_apart (hashing : Hashing H) (actions : List (Action T H))
    (happart : Along (step hashing) Apart ({} : State T) actions) :
    Along (step hashing) (Bounded hashing) ({} : State T) actions := by
  have hinit : Inv ({} : State T) := by
    constructor <;> simp [State.locked, State.lockedAt]
  refine Along.of_invariant (I := Inv) ?_ ?_ actions _ hinit happart
  · exact fun s a s' h happart hs => h.step happart hs
  · exact fun s a h happart => h.bounded happart

/-- Two logins check six passwords. -/
def sixChecks (t u : T) (password : Text) (hash : H) : List (Action T H) :=
  let failed := [.look t, .verify t password hash, .record t]
  failed ++ failed ++ failed ++ failed ++
    [.look t, .look u, .verify t password hash, .verify u password hash]

/-- **The lockout bounds guessing where logins do not overlap**: in every run in which no login
starts while another is under way, and in all runs only where there are no two requests. -/
theorem bounded_iff (hashing : Hashing H) {password : Text} {hash : H}
    (hwrong : hashing.verifyPassword password hash = some false) :
    (∀ actions, Along (step hashing) Apart ({} : State T) actions →
      Along (step hashing) (Bounded hashing) ({} : State T) actions) ∧
    ((∀ actions, Along (step hashing) (Bounded hashing) ({} : State T) actions) ↔
      Subsingleton T) := by
  refine ⟨along_bounded_of_apart hashing, fun h => ⟨fun t u => ?_⟩, fun _ actions => ?_⟩
  · by_contra hne
    have hsix := h (sixChecks t u password hash)
    simp [sixChecks, Along, step, Bounded, hwrong, State.locked, State.lockedAt, RateLimit.fail,
      hne, Ne.symm hne] at hsix
  · refine along_bounded_of_apart hashing actions (.of_forall (fun s a => ?_) ..)
    cases a with
    | look t => exact fun u hu => absurd (Subsingleton.elim u t) hu
    | tick | verify | record => trivial

end Apart

/-- A hash that no password belongs to. -/
def mismatch : Hashing Unit := ⟨fun _ _ => none, fun _ _ => some false⟩

/-- Two clients that take turns: five wrong passwords, and the sixth login is refused. -/
def takeTurns : List (Action Bool Unit) :=
  [false, true, false, true, false].flatMap (fun t =>
    [.look t, .verify t "guess".toList (), .record t]) ++ [.look true]

theorem bounded_iff_takeTurns :
    Along (step mismatch) (Bounded mismatch) ({} : State Bool) takeTurns ∧
      ¬ ∀ actions, Along (step mismatch) (Bounded mismatch) ({} : State Bool) actions := by
  have hiff := @bounded_iff Bool Unit _ mismatch [] () rfl
  refine ⟨hiff.1 takeTurns ?_, fun h => ?_⟩
  · simp [takeTurns, Along, step, Apart, mismatch, State.locked, State.lockedAt, RateLimit.fail]
  · exact absurd ((hiff.2.mp h).elim true false) (by decide)

/-- Two logins are admitted after four failures, and both check a wrong password. -/
theorem not_bounded_overlap : ¬Along (step mismatch) (Bounded mismatch) ({} : State Bool)
    (sixChecks false true "guess".toList ()) := by
  simp [sixChecks, Along, step, Bounded, mismatch, State.locked, State.lockedAt, RateLimit.fail]

/-! ### Logins that overlap -/

section Overlap

variable [Fintype T]

/-- How many logins are in a phase. -/
def inPhase (phases : T → Phase) (phase : Phase) : Nat :=
  ∑ t, if phases t = phase then 1 else 0

/-- What is counted, where any number of logins is under way. -/
structure Shared (s : State T) : Prop where
  limit : s.rateLimit.failCount < maxAttempts
  free : ¬s.locked → s.wrong ≤ s.rateLimit.failCount + inPhase s.phase (.checked false)
  bound : s.wrong + inPhase s.phase .admitted < maxAttempts + Fintype.card T

/-- Where no lockout is on, the count of failures and the logins under way bound the wrong
passwords. -/
theorem Shared.of_free (hlimit : s.rateLimit.failCount < maxAttempts)
    (h : s.wrong ≤ s.rateLimit.failCount + inPhase s.phase (.checked false)) : Shared s where
  limit := hlimit
  free _ := h
  bound := by
    have hcard : inPhase s.phase (.checked false) + inPhase s.phase .admitted ≤
        Fintype.card T := by
      rw [inPhase, inPhase, ← Finset.sum_add_distrib, Fintype.card_eq_sum_ones]
      refine Finset.sum_le_sum fun t _ => ?_
      rcases s.phase t with _ | _ | _ | _ <;> decide
    omega

variable [DecidableEq T]

/-- A login moves from a phase to another. -/
theorem inPhase_update (phases : T → Phase) (t : T) (next phase : Phase) :
    inPhase (update phases t next) phase + (if phases t = phase then 1 else 0) =
      inPhase phases phase + if next = phase then 1 else 0 := by
  have hrest : ∀ u ∈ Finset.univ.erase t, (if update phases t next u = phase then 1 else 0) =
      if phases u = phase then 1 else 0 := by
    intro u hu
    rw [update_of_ne (Finset.ne_of_mem_erase hu)]
  have hmem := Finset.mem_univ t
  rw [inPhase, inPhase, ← Finset.add_sum_erase _ _ hmem, ← Finset.add_sum_erase _ _ hmem,
    Finset.sum_congr rfl hrest, update_self]
  omega

theorem Shared.step {a : Action T H} (h : Shared s) (hs : step hashing s a = some s') :
    Shared s' := by
  obtain ⟨hlimit, hfree, hbound⟩ := id h
  -- a login that moves on leaves one count and enters another
  have hchecked (t : T) (next : Phase) := inPhase_update s.phase t next (.checked false)
  have hadmitted (t : T) (next : Phase) := inPhase_update s.phase t next .admitted
  cases a with
  | tick elapsed =>
    cases hs
    by_cases hlater : s.lockedAt (s.clock + elapsed)
    · have hwrong : (s.tick elapsed).wrong = s.wrong := by simp [State.tick, hlater]
      exact ⟨hlimit, fun hopen => absurd hlater hopen, hwrong ▸ hbound⟩
    · refine .of_free hlimit ?_
      by_cases hon : s.locked
      · simp [State.tick, hon, hlater]
      · simpa [State.tick, hon] using hfree hon
  | look t =>
    simp only [Lockout.step] at hs
    split at hs <;> cases hs
    split
    · exact h
    · refine .of_free hlimit ?_
      grind
  | verify t password hash =>
    simp only [Lockout.step] at hs
    split at hs
    · split at hs <;> cases hs
      · exact ⟨hlimit, fun hopen => by have := hfree hopen; grind, by grind⟩
      · exact ⟨hlimit, fun hopen => by have := hfree hopen; grind, by grind⟩
    · cases hs
  | record t =>
    simp only [Lockout.step] at hs
    split at hs <;> cases hs
    · exact .of_free (by simp) (by simp)
    by_cases hlast : maxAttempts ≤ s.rateLimit.failCount + 1
    · rw [RateLimit.fail, if_pos hlast]
      refine ⟨by simp, fun hopen => absurd ?_ hopen, by grind⟩
      exact locked_of_lt rfl (Nat.lt_add_of_pos_right (by decide))
    · rw [RateLimit.fail, if_neg hlast]
      exact ⟨Nat.not_le.mp hlast, fun hopen => by have := hfree hopen; grind, by grind⟩

/-- **Overlapping logins weaken the lockout by their number, and by no more**: between two resets
fewer than `maxAttempts` wrong passwords are checked, and one more for each login. -/
theorem along_wrong_lt (hashing : Hashing H) (actions : List (Action T H)) :
    Along (step hashing) (fun s _ => s.wrong < maxAttempts + Fintype.card T) ({} : State T)
      actions := by
  have hinit : Shared ({} : State T) := .of_free (by simp) (by simp)
  refine Along.of_invariant (I := Shared) (C := fun _ _ => True) ?_ ?_ actions _ hinit
    (.of_forall (fun _ _ => trivial) ..)
  · exact fun s a s' h _ hs => h.step hs
  · exact fun s a h _ => (Nat.le_add_right ..).trans_lt h.bound

end Overlap

end Dbx.Web.Lockout
