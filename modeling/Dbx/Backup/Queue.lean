import Dbx.Backup.Runs
import Dbx.Transition.Basic

/-!
# The backup queue

Any number of processes perform the operations of the store, each one transaction, in any order.
A worker finishes only runs that it was handed, with the status of a run that is over. Whatever
the order, a schedule has at most one queued or running run, no run is handed out twice, and none
that was cancelled in the queue.
-/

namespace Dbx.Backup

open Transition Keyed List

variable {chrono : Chrono}

/-! ### Interleavings -/

/-- The operations, with what they read from the clock and draw. -/
inductive Op
  | enqueue (draw : Draw) (request : RunRequest)
  | enqueueDue (now : Int) (draw : Text → Draw)
  | claim
  | cancel (now : Int) (id : Text)
  | progress (run : BackupRun)
  | finish (now : Int) (run : BackupRun)
  | saveSchedule (now : Int) (value : BackupSchedule)
  | deleteSchedule (id : Text)
  | recover (now : Int)
  | markDeleting (ids : List Text)
  | removeRun (id : Text)

/-- What has happened to due times. -/
inductive Event
  /-- A call of `enqueue_due` has inserted runs of schedules, at their due times. -/
  | started (now : Int) (starts : List (Text × Int))
  /-- The due time of a schedule was computed anew as its timing was saved. -/
  | timed (id : Text) (now : Int)
  deriving DecidableEq, Repr

/-- The store, and what the statements speak of: the identifiers of all runs so far, the runs that
were handed out and those that were cancelled in the queue, and the due times, the last first. -/
structure World where
  store : Store
  seen : List Text
  handed : List Text
  withdrawn : List Text
  history : List Event

def World.initial : World := ⟨.empty, [], [], [], []⟩

def World.commit (w : World) (store : Store) : World :=
  { w with store, seen := w.seen ++ store.runs.rows.map (·.id) }

/-- A transaction is committed, or rolled back. -/
def World.attempt {α : Type} (w : World) (result : Except String α) (commit : α → World) : World :=
  match result with
  | .ok a => commit a
  | .error _ => w

/-- The schedules that have become active, with their due times. -/
def startedBy (chrono : Chrono) (before after : Store) : List (Text × Int) :=
  before.schedules.rows.filterMap fun row =>
    if !before.active row.id && after.active row.id then
      (chrono.parseFromRfc3339 row.payload.nextRunAt).map (row.id, ·)
    else none

open Store

/-- Saving a schedule computes its due time anew. -/
def retimes (store : Store) (value : BackupSchedule) : Bool :=
  (store.schedules.find value.id).all fun row => timingChanged row.payload value

/-- What an operation does. -/
def perform (chrono : Chrono) (w : World) : Op → World
  | .enqueue draw request =>
    w.attempt (w.store.enqueue chrono draw request) fun result => w.commit result.2
  | .enqueueDue now draw =>
    w.attempt (w.store.enqueueDue chrono now draw) fun store =>
      { w.commit store with
        history := .started now (startedBy chrono w.store store) :: w.history }
  | .claim =>
    w.attempt w.store.claim fun result =>
      { w.commit result.2 with
        handed := w.handed ++ (result.1.map (·.run.id)).toList }
  | .cancel now id =>
    { w.commit (w.store.cancel chrono now id).2 with
      withdrawn := if w.store.isQueued id then id :: w.withdrawn else w.withdrawn }
  | .progress run => w.commit (w.store.progress run)
  | .finish now run => w.attempt (w.store.finish chrono now run) w.commit
  | .saveSchedule now value =>
    w.attempt (w.store.saveSchedule chrono now value) fun result =>
      { w.commit result.2 with
        history := if retimes w.store value then .timed value.id now :: w.history
          else w.history }
  | .deleteSchedule id => w.attempt (w.store.deleteSchedule id) w.commit
  | .recover now => w.attempt (w.store.recover chrono now) w.commit
  | .markDeleting ids => w.attempt (w.store.markDeleting ids) fun result => w.commit result.2
  | .removeRun id => w.commit (w.store.removeRun id)

def step (chrono : Chrono) (w : World) (op : Op) : Option World := some (perform chrono w op)

/-- What is known of the operations: identifiers that are drawn are new, and a worker finishes a
run that it was handed, with one of the statuses of a run that is over. -/
def Permitted (w : World) : Op → Prop
  | .enqueue draw _ => draw.id ∉ w.seen
  | .enqueueDue _ draw => ∀ row ∈ w.store.schedules.rows, (draw row.id).id ∉ w.seen
  | .finish _ run => run.id ∈ w.handed ∧ run.status.isTerminal
  | _ => True

instance (w : World) : ∀ op, Decidable (Permitted w op)
  | .enqueue draw _ => inferInstanceAs (Decidable (draw.id ∉ w.seen))
  | .enqueueDue _ draw =>
    inferInstanceAs (Decidable (∀ row ∈ w.store.schedules.rows, (draw row.id).id ∉ w.seen))
  | .finish _ run => inferInstanceAs (Decidable (run.id ∈ w.handed ∧ run.status.isTerminal))
  | .claim | .cancel .. | .progress .. | .saveSchedule .. | .deleteSchedule .. | .recover ..
  | .markDeleting .. | .removeRun .. => isTrue trivial

/-- The calls of `enqueue_due` that have inserted a run of a schedule. Once its timing is saved,
only those count that the clock has reached by then: all, if it does not go back. -/
def pastStarts (id : Text) : List Event → List Int
  | [] => []
  | .started now starts :: history =>
    if id ∈ starts.map Prod.fst then now :: pastStarts id history else pastStarts id history
  | .timed other now :: history =>
    if other = id then (pastStarts id history).filter (· ≤ now) else pastStarts id history

/-- The due time of every run lies behind the calls that inserted the earlier runs of its
schedule, so that these calls have dealt with everything due until then. -/
def Spaced : List Event → Prop
  | [] => True
  | .started now starts :: history =>
    (∀ start ∈ starts, start.2 ≤ now ∧ ∀ earlier ∈ pastStarts start.1 history, earlier < start.2) ∧
      Spaced history
  | .timed _ _ :: history => Spaced history

/-- What holds at every point. -/
structure World.Safe (w : World) : Prop where
  single : ∀ id, (w.store.runs.rows.countP fun row => row.activeFor id) ≤ 1
  handed_once : w.handed.Nodup
  withdrawn : ∀ id ∈ w.withdrawn, id ∉ w.handed
  settled : ∀ row ∈ w.store.runs.rows, row.state.isTerminal → row.payload.status = row.state
  deleting : ∀ row ∈ w.store.runs.rows, row.state = .deleting → row.payload.status.isTerminal
  spaced : Spaced w.history

/-- A schedule without the times and the outcome that the store keeps of its runs. -/
def ScheduleRow.settings (row : ScheduleRow) : BackupSchedule :=
  { row.payload with nextRunAt := [], lastRunAt := none, lastRunStatus := none }

open ScheduleRow

/-- What every operation respects: schedules that have an active run are neither edited nor
deleted, and due times move together with the runs they are the due times of. -/
structure StepSafe (chrono : Chrono) (w : World) (op : Op) : Prop where
  safe : w.Safe
  kept : ∀ id, w.store.active id →
    ((perform chrono w op).store.schedules.find id).map settings =
      (w.store.schedules.find id).map settings
  due : ∀ now draw, op = .enqueueDue now draw →
    ∀ id, DueEffect chrono now w.store (perform chrono w op).store id

/-! ### The invariant -/

/-- The invariant of all interleavings. -/
structure Inv (chrono : Chrono) (w : World) : Prop where
  store : StoreInv (fun id => id ∈ w.handed ∨ id ∈ w.withdrawn) w.store
  seen : ∀ row ∈ w.store.runs.rows, row.id ∈ w.seen
  handed_seen : ∀ id ∈ w.handed, id ∈ w.seen
  withdrawn_seen : ∀ id ∈ w.withdrawn, id ∈ w.seen
  handed_once : w.handed.Nodup
  disjoint : ∀ id ∈ w.withdrawn, id ∉ w.handed
  ahead : ∀ row ∈ w.store.schedules.rows, ∀ start ∈ pastStarts row.id w.history,
    ∀ t, chrono.parseFromRfc3339 row.payload.nextRunAt = some t → start < t
  spaced : Spaced w.history

theorem Inv.initial : Inv chrono .initial := by
  constructor
  · constructor <;> simp [World.initial, empty, Table.empty]
  all_goals simp [World.initial, empty, Table.empty, Spaced]

/-- No row of a list without repetitions occurs twice. -/
theorem countP_le_one {α : Type} {p : α → Bool} {l : List α} (hnodup : l.Nodup)
    (h : ∀ a ∈ l, ∀ b ∈ l, p a → p b → a = b) : l.countP p ≤ 1 := by
  induction l with
  | nil => simp
  | cons a l ih =>
    obtain ⟨hnotin, hnodup⟩ := nodup_cons.mp hnodup
    have hrest := ih hnodup fun b hb c hc =>
      h b (mem_cons_of_mem _ hb) c (mem_cons_of_mem _ hc)
    by_cases ha : p a
    · -- any further match would be the first one
      have hzero : l.countP p = 0 := by
        refine countP_eq_zero.mpr fun b hb hpb => hnotin ?_
        exact h a mem_cons_self b (mem_cons_of_mem _ hb) ha hpb ▸ hb
      simp [ha, hzero]
    · simpa [countP_cons, ha] using hrest

variable {w : World} (h : Inv chrono w)

include h

/-- The invariant says what is to hold at every point. -/
theorem Inv.safe : w.Safe where
  single id := countP_le_one w.store.runs.nodup.of_map fun r hr s hs =>
    h.store.single id r hr s hs
  handed_once := h.handed_once
  withdrawn := h.disjoint
  settled row hrow := (h.store.wellFormed row hrow).settled
  deleting row hrow := (h.store.wellFormed row hrow).deleting
  spaced := h.spaced

variable {store : Store} {id : Text}

/-- A transaction keeps the invariant if it keeps that of the store, and the due times ahead of the
starts that count. -/
theorem Inv.record {history : List Event}
    (hstore : StoreInv (fun id => id ∈ w.handed ∨ id ∈ w.withdrawn) store)
    (hahead : ∀ row ∈ store.schedules.rows, ∀ start ∈ pastStarts row.id history,
      ∀ t, chrono.parseFromRfc3339 row.payload.nextRunAt = some t → start < t)
    (hspaced : Spaced history) : Inv chrono { w.commit store with history } where
  __ := h
  store := hstore
  seen _ hrow := mem_append_right _ (mem_map_of_mem hrow)
  handed_seen id hid := mem_append_left _ (h.handed_seen id hid)
  withdrawn_seen id hid := mem_append_left _ (h.withdrawn_seen id hid)
  ahead := hahead
  spaced := hspaced

theorem Inv.commit (hstore : StoreInv (fun id => id ∈ w.handed ∨ id ∈ w.withdrawn) store)
    (hahead : ∀ row ∈ store.schedules.rows, ∀ start ∈ pastStarts row.id w.history,
      ∀ t, chrono.parseFromRfc3339 row.payload.nextRunAt = some t → start < t) :
    Inv chrono (w.commit store) :=
  h.record hstore hahead h.spaced

/-- An identifier that is new belongs to no run that is blocked. -/
theorem Inv.not_blocked_of_fresh (hfresh : id ∉ w.seen) : ¬ (id ∈ w.handed ∨ id ∈ w.withdrawn) := by
  rintro (hh | hw)
  · exact hfresh (h.handed_seen _ hh)
  · exact hfresh (h.withdrawn_seen _ hw)

/-- A transaction that revises runs and leaves the schedules keeps the invariant. -/
theorem Inv.revise
    (hrev : store.Revised w.store) (hschedules : store.schedules = w.store.schedules) :
    Inv chrono (w.commit store) := by
  apply h.commit
  · apply h.store.of_revised hrev
    rw [hschedules]
    exact h.store.payload_id
  · rw [hschedules]
    exact h.ahead

theorem Inv.attempt {α : Type} {result : Except String α} {commit : α → World}
    (hcommit : ∀ a, result = .ok a → Inv chrono (commit a)) :
    Inv chrono (w.attempt result commit) := by
  cases result with
  | error e => exact h
  | ok a => exact hcommit a rfl

omit h

theorem StoreInv.block {blocked blocked' : Text → Prop}
    (h : StoreInv blocked store) (hid : store.isQueued id = false)
    (hsub : ∀ x, blocked' x → blocked x ∨ x = id) : StoreInv blocked' store where
  __ := h
  blocked row hrow hblocked hqueued := by
    rcases hsub row.id hblocked with hold | rfl
    · exact h.blocked row hrow hold hqueued
    · have hfind := store.runs.find_eq_some_iff.mpr ⟨hrow, rfl⟩
      simp [isQueued, hfind, hqueued] at hid

theorem Inv.not_blocked (h : Inv chrono w)
    (hid : w.store.isQueued id) : id ∉ w.handed ∧ id ∉ w.withdrawn ∧ id ∈ w.seen := by
  obtain ⟨row, hfind, hqueued⟩ := (Option.any_eq_true _ _).mp hid
  obtain ⟨hrow, rfl⟩ := w.store.runs.find_eq_some_iff.mp hfind
  have hblocked := fun hb => h.store.blocked row hrow hb (by simpa using hqueued)
  exact ⟨fun hh => hblocked (.inl hh), fun hw => hblocked (.inr hw), h.seen row hrow⟩

/-! ### Schedules -/

section Schedules

variable {now : Int} {store after : Store}

/-- A due time that is computed anew lies behind the present. -/
theorem Store.renewRunAt_eq_ok {renew : Bool} {schedule : BackupSchedule} {nextRunAt : Text}
    (h : renewRunAt chrono now renew schedule = .ok nextRunAt) :
    (renew ∧ ∃ next, now < next ∧ nextRunAt = chrono.toRfc3339 next) ∨
      (renew = false ∧ nextRunAt = schedule.nextRunAt) := by
  unfold renewRunAt at h
  cases renew with
  | true =>
    cases hafter : schedule.nextAfter chrono now with
    | error e => simp [hafter, Except.map] at h
    | ok next =>
      simp only [hafter, Except.map, if_true, Except.ok.injEq] at h
      exact .inl ⟨rfl, next, BackupSchedule.nextAfter_gt hafter, h.symm⟩
  | false =>
    cases h
    exact .inr ⟨rfl, rfl⟩

variable {value result : BackupSchedule}

/-- What `save_schedule` does: no run of the schedule is active, and its due time is computed anew
or kept. -/
theorem Store.saveSchedule_eq_ok (h : store.saveSchedule chrono now value = .ok (result, after)) :
    store.active value.id = false ∧ after.runs = store.runs ∧ ∃ saved : BackupSchedule,
      saved.id = value.id ∧
      after.schedules = store.schedules.upsert ⟨saved.id, saved⟩ ({ · with payload := saved })
        (fun _ => rfl) ∧
      ((retimes store value ∧ ∃ next, now < next ∧ saved.nextRunAt = chrono.toRfc3339 next) ∨
        (retimes store value = false ∧ ∃ row, store.schedules.find value.id = some row ∧
          saved.nextRunAt = row.payload.nextRunAt)) := by
  simp only [saveSchedule, bind_eq_ok_iff] at h
  obtain ⟨-, -, _, hidle, ⟨timing, carried⟩, hcarry, nextRunAt, hnext, ⟨⟩⟩ := h
  have hid : carried.id = value.id ∧ retimes store value = timing ∧
      (timing = false → ∃ row, store.schedules.find value.id = some row ∧
        carried.nextRunAt = row.payload.nextRunAt) := by
    cases hfind : store.schedules.find value.id with
    | none =>
      simp only [hfind, Option.map_none] at hcarry
      cases hcarry
      exact ⟨rfl, by simp [retimes, hfind], fun htiming => by cases htiming⟩
    | some row =>
      simp only [hfind, Option.map_some] at hcarry
      obtain ⟨-, -, hcarry⟩ := bind_eq_ok_iff.mp hcarry
      cases hcarry
      exact ⟨rfl, by simp [retimes, hfind], fun _ => ⟨row, rfl, rfl⟩⟩
  refine ⟨by simpa using ensure_eq_ok_iff.mp hidle, rfl,
    { carried with nextRunAt, updatedAt := chrono.toRfc3339 now }, hid.1, rfl, ?_⟩
  rcases renewRunAt_eq_ok hnext with ⟨htiming, next, hlt, hnext⟩ | ⟨htiming, hnext⟩
  · exact .inl ⟨hid.2.1.trans htiming, next, hlt, hnext⟩
  · obtain ⟨row, hfind, hkept⟩ := hid.2.2 htiming
    exact .inr ⟨hid.2.1.trans htiming, row, hfind, hnext.trans hkept⟩

/-- What `finish` notes: a due time that is over moves behind the present, and the settings of the
schedule stay. -/
theorem Store.noteOutcome_eq_ok {run : BackupRun} {schedule noted : BackupSchedule}
    (h : noteOutcome chrono now run schedule = .ok noted) :
    settings ⟨schedule.id, noted⟩ = settings ⟨schedule.id, schedule⟩ ∧
      (noted.nextRunAt = schedule.nextRunAt ∨
        ∃ due next, chrono.parseFromRfc3339 schedule.nextRunAt = some due ∧ due ≤ now ∧
          now < next ∧ noted.nextRunAt = chrono.toRfc3339 next) := by
  obtain ⟨nextRunAt, hnext, h⟩ := bind_eq_ok_iff.mp h
  cases h
  refine ⟨rfl, ?_⟩
  rcases renewRunAt_eq_ok hnext with ⟨hoverdue, next, hlt, hnext⟩ | ⟨-, hnext⟩
  · obtain ⟨due, hdue, hle⟩ := (Option.any_eq_true _ _).mp hoverdue
    exact .inr ⟨due, next, hdue, by simpa using hle, hlt, hnext⟩
  · exact .inl hnext

end Schedules

theorem ScheduleRow.payload_id_eq {r s : ScheduleRow} (h : r.settings = s.settings) :
    r.payload.id = s.payload.id := by
  have := congrArg BackupSchedule.id h
  exact this

/-! ### One operation -/

section Step

/-- What `enqueue` does: it inserts a run without a schedule, or of a stored schedule that has no
active run. -/
theorem Store.enqueue_eq_ok {draw : Draw} {request : RunRequest} {run : BackupRun}
    {store after : Store} (h : store.enqueue chrono draw request = .ok (run, after)) :
    ∃ config schedule name timeZone,
      insertJob chrono draw config schedule name "manual".toList timeZone store = .ok (run, after) ∧
      ∀ s ∈ schedule, ∃ row ∈ store.schedules.rows, row.payload = s ∧ store.active row.id =
        false := by
  unfold enqueue at h
  split at h
  · obtain ⟨_, hidle, hinsert⟩ := bind_eq_ok_iff.mp h
    split at hinsert
    · cases hinsert
    rename_i id _ row hfind
    obtain ⟨hrow, rfl⟩ := (Table.find_eq_some_iff _).mp hfind
    refine ⟨_, some row.payload, _, none, hinsert, ?_⟩
    rintro s ⟨⟩
    exact ⟨row, hrow, rfl, by simpa using ensure_eq_ok_iff.mp hidle⟩
  · split at h
    · cases h
    · obtain ⟨-, -, h⟩ := bind_eq_ok_iff.mp h
      obtain ⟨-, -, h⟩ := bind_eq_ok_iff.mp h
      exact ⟨_, none, _, _, h, nofun⟩

include h

theorem Inv.enqueue {draw : Draw} {request : RunRequest} {run : BackupRun}
    (hfresh : draw.id ∉ w.seen)
    (hok : w.store.enqueue chrono draw request = .ok (run, store)) :
    Inv chrono (w.commit store) := by
  obtain ⟨config, schedule, name, timeZone, hinsert, hidle⟩ := enqueue_eq_ok hok
  obtain ⟨-, -, -, -, -, -, -, hschedules⟩ := insertJob_eq_ok hinsert
  apply h.commit
  · refine h.store.insertJob hinsert (h.not_blocked_of_fresh hfresh) fun s hs => ?_
    obtain ⟨row, hrow, rfl, hidle⟩ := hidle s hs
    rw [h.store.payload_id row hrow]
    exact hidle
  · rw [hschedules]
    exact h.ahead

theorem Inv.claim {job : Option Job} (hok : w.store.claim = .ok (job, store)) :
    Inv chrono { w.commit store with handed := w.handed ++ (job.map (·.run.id)).toList } := by
  cases job with
  | none =>
    obtain rfl := claim_none hok
    rw [Option.map_none, Option.toList_none, append_nil]
    exact h.revise (.of_runs_eq rfl) rfl
  | some job =>
    obtain ⟨hqueued, hrev, hclaimed, hschedules⟩ := h.store.claim_eq_ok hok
    -- a run that is queued has neither been handed out nor withdrawn
    obtain ⟨hnothanded, hnotwithdrawn, hseen⟩ := h.not_blocked hqueued
    have hcommit := h.revise hrev hschedules
    exact
      { hcommit with
        store := hcommit.store.block hclaimed fun x hx => by
          simp only [Option.map_some, Option.toList_some, mem_append, mem_singleton] at hx
          exact or_right_comm.mp hx
        handed_seen := fun id hid => by
          rcases mem_append.mp hid with hid | hid
          · exact hcommit.handed_seen id hid
          · obtain rfl : id = job.run.id := by simpa using hid
            exact mem_append_left _ hseen
        handed_once := nodup_append.mpr ⟨h.handed_once, nodup_singleton _, by
          rintro a ha b hb rfl
          obtain rfl : a = job.run.id := by simpa using hb
          exact hnothanded ha⟩
        disjoint := fun id hid hmem => by
          rcases mem_append.mp hmem with hmem | hmem
          · exact h.disjoint id hid hmem
          · obtain rfl : id = job.run.id := by simpa using hmem
            exact hnotwithdrawn hid }

variable {now : Int}

theorem Inv.cancel : Inv chrono (perform chrono w (.cancel now id)) := by
  have hrev : (w.store.cancel chrono now id).2.Revised w.store := cancel_revised now id
  have hcommit := h.revise hrev (cancel_schedules now id)
  unfold perform
  by_cases hqueued : w.store.isQueued id
  · obtain ⟨hnothanded, -, hseen⟩ := h.not_blocked hqueued
    simp only [hqueued, if_true]
    exact
      { hcommit with
        store := hcommit.store.block (cancel_isQueued now id) fun x hx => by
          rcases hx with hx | hx
          · exact .inl (.inl hx)
          · rcases mem_cons.mp hx with rfl | hx
            · exact .inr rfl
            · exact .inl (.inr hx)
        withdrawn_seen := forall_mem_cons.mpr ⟨mem_append_left _ hseen, hcommit.withdrawn_seen⟩
        disjoint := forall_mem_cons.mpr ⟨hnothanded, h.disjoint⟩ }
  · simp only [hqueued, Bool.false_eq_true, if_false]
    exact hcommit

theorem Inv.finish {run : BackupRun} (hchrono : chrono.Faithful) (hstatus : run.status.isTerminal)
    (hok : w.store.finish chrono now run = .ok store) : Inv chrono (w.commit store) := by
  obtain ⟨hrev, hschedules | ⟨row, hrow, schedule, hnote, hschedules⟩⟩ := finish_eq_ok hstatus hok
  · exact h.revise hrev hschedules
  obtain ⟨hsettings, hnext⟩ := noteOutcome_eq_ok hnote
  have hid : schedule.id = row.id := (payload_id_eq hsettings).trans (h.store.payload_id row hrow)
  have hsaved := h.store.setSchedule hid
  apply h.commit
  · apply h.store.of_revised hrev
    rw [hschedules]
    exact hsaved.payload_id
  · -- a due time only moves forward
    rw [hschedules]
    intro new hnew start hstart t ht
    simp only [setSchedule, Table.mem_update, decide_eq_true_eq] at hnew
    obtain ⟨old, hold, rfl⟩ := hnew
    split at hstart <;> split at ht
    · rename_i hkey _
      obtain rfl := w.store.schedules.eq_of_key_eq hold hrow hkey
      rcases hnext with hsame | ⟨due, next, hdue, hle, hlt, hmoved⟩
      · exact h.ahead old hold start hstart t (hsame ▸ ht)
      · obtain rfl := hchrono next t (hmoved ▸ ht)
        have := h.ahead old hold start hstart due hdue
        omega
    · contradiction
    · contradiction
    · exact h.ahead old hold start hstart t ht

theorem Inv.saveSchedule (hchrono : chrono.Faithful)
    (hok : w.store.saveSchedule chrono now value = .ok (result, store)) :
    Inv chrono { w.commit store with
      history := if retimes w.store value then .timed value.id now :: w.history
        else w.history } := by
  obtain ⟨-, hruns, saved, hid, hschedules, hnext⟩ := saveSchedule_eq_ok hok
  have hpayload : ∀ row ∈ store.schedules.rows, row.payload.id = row.id := by
    rw [hschedules]
    intro row hrow
    rcases Table.mem_upsert hrow with ⟨hrow, -⟩ | rfl | ⟨old, -, hkey, rfl⟩
    · exact h.store.payload_id row hrow
    · rfl
    · exact hkey.symm
  -- the due time of every schedule is ahead of the starts that still count
  have hahead : ∀ row ∈ store.schedules.rows, ∀ start ∈ pastStarts row.id
      (if retimes w.store value then .timed value.id now :: w.history else w.history),
      ∀ t, chrono.parseFromRfc3339 row.payload.nextRunAt = some t → start < t := by
    rw [hschedules]
    intro row hrow start hstart t ht
    have hcases : (row ∈ w.store.schedules.rows ∧ row.id ≠ value.id) ∨
        (row.id = value.id ∧ row.payload.nextRunAt = saved.nextRunAt) := by
      rcases Table.mem_upsert hrow with ⟨hrow, hne⟩ | rfl | ⟨old, -, hkey, rfl⟩
      · exact .inl ⟨hrow, hid ▸ hne⟩
      · exact .inr ⟨hid, rfl⟩
      · exact .inr ⟨hkey.trans hid, rfl⟩
    rcases hcases with ⟨hrow, hne⟩ | ⟨hkey, hsaved⟩
    · refine h.ahead row hrow start ?_ t ht
      split at hstart
      · simpa [pastStarts, hne.symm] using hstart
      · exact hstart
    rw [hkey] at hstart
    rcases hnext with ⟨hretimes, next, hlt, hmoved⟩ | ⟨hretimes, old, hfind, hkept⟩
    · obtain rfl := hchrono next t (by rw [← hmoved, ← hsaved]; exact ht)
      simp only [hretimes, if_true, pastStarts, mem_filter, decide_eq_true_eq] at hstart
      omega
    · obtain ⟨hold, hkey⟩ := (Table.find_eq_some_iff _).mp hfind
      rw [hretimes] at hstart
      exact h.ahead old hold start (hkey ▸ hstart) t (by rw [← hkept, ← hsaved]; exact ht)
  refine h.record (h.store.of_revised (.of_runs_eq hruns) hpayload) hahead ?_
  split
  · exact h.spaced
  · exact h.spaced

omit h

/-- The schedules that `enqueue_due` reads stand in the store, and each once. -/
theorem StoreInv.scheduleList {blocked : Text → Prop} (h : StoreInv blocked store) :
    (store.scheduleList.map (·.id)).Nodup ∧
      ∀ s ∈ store.scheduleList, store.schedules.find s.id = some ⟨s.id, s⟩ := by
  have hperm := perm_insertionSort (fun r s : ScheduleRow => r.id ≤ s.id) store.schedules.rows
  have hrows : ∀ row ∈ store.schedules.rows.insertionSort (fun r s => r.id ≤ s.id),
      row.payload.id = row.id := fun row hrow => h.payload_id row (hperm.mem_iff.mp hrow)
  constructor
  · have hids : store.scheduleList.map (·.id) =
        (store.schedules.rows.insertionSort fun r s => r.id ≤ s.id).map (·.id) := by
      rw [Store.scheduleList, map_map]
      exact map_congr_left hrows
    rw [hids]
    exact (hperm.map _).nodup_iff.mpr store.schedules.nodup
  · intro s hs
    obtain ⟨row, hrow, rfl⟩ := mem_map.mp hs
    refine (Table.find_eq_some_iff _).mpr ⟨?_, rfl⟩
    rw [hrows row hrow]
    exact hperm.mem_iff.mp hrow

theorem Inv.enqueueDue_effect {draw : Text → Draw}
    (h : Inv chrono w) (hok : w.store.enqueueDue chrono now draw = .ok store) (id : Text) :
    DueEffect chrono now w.store store id :=
  (enqueueAll_effect h.store.scheduleList.1 h.store.scheduleList.2 hok id).1

/-- A schedule of which nothing has changed was not started. -/
theorem not_mem_startedBy {before after : Store} (h : after.runsOf id = before.runsOf id) :
    id ∉ (startedBy chrono before after).map Prod.fst := by
  intro hid
  obtain ⟨start, hstart, rfl⟩ := mem_map.mp hid
  obtain ⟨row, -, hrow⟩ := mem_filterMap.mp hstart
  split at hrow
  · rename_i hactive
    obtain ⟨due, -, rfl⟩ := Option.map_eq_some_iff.mp hrow
    rw [active_eq_any_runsOf after, h, ← active_eq_any_runsOf] at hactive
    simp at hactive
  · cases hrow

theorem Inv.enqueueDue {draw : Text → Draw} (h : Inv chrono w) (hchrono : chrono.Faithful)
    (hfresh : ∀ row ∈ w.store.schedules.rows, (draw row.id).id ∉ w.seen)
    (hok : w.store.enqueueDue chrono now draw = .ok store) :
    Inv chrono { w.commit store with
      history := .started now (startedBy chrono w.store store) :: w.history } := by
  have heffect := h.enqueueDue_effect hok
  have hstore : StoreInv (fun id => id ∈ w.handed ∨ id ∈ w.withdrawn) store := by
    refine h.store.enqueueAll (fun s hs => ?_) hok
    have hmem := ((Table.find_eq_some_iff _).mp (h.store.scheduleList.2 s hs)).1
    exact h.not_blocked_of_fresh (hfresh _ hmem)
  refine h.record hstore ?_ ⟨?_, h.spaced⟩
  · intro new hnew start hstart t ht
    have hfind : store.schedules.find new.id = some new :=
      (Table.find_eq_some_iff _).mpr ⟨hnew, rfl⟩
    rcases heffect new.id with ⟨hsame, hruns⟩ |
      ⟨row, due, next, run, hrow, -, -, hdue, hle, hlt, hmoved, -⟩
    · -- nothing has happened to the schedule
      rw [hfind] at hsame
      simp only [pastStarts, if_neg (not_mem_startedBy hruns)] at hstart
      exact h.ahead new ((Table.find_eq_some_iff _).mp hsame.symm).1 start hstart t ht
    -- its due time was over, and is now behind the present
    obtain rfl := Option.some.inj (hfind.symm.trans hmoved)
    obtain rfl := hchrono next t ht
    obtain ⟨hmem, hkey⟩ := (Table.find_eq_some_iff _).mp hrow
    have hold : ∀ earlier ∈ pastStarts row.id w.history, earlier < due :=
      fun earlier hearlier => h.ahead row hmem earlier hearlier due hdue
    simp only [pastStarts] at hstart
    split at hstart
    · rcases mem_cons.mp hstart with rfl | hstart
      · exact hlt
      · have := hold start hstart
        omega
    · have := hold start hstart
      omega
  · -- a schedule that was started was due, and not started since it was
    intro start hstart
    obtain ⟨row, hrow, hstarted⟩ := mem_filterMap.mp hstart
    split at hstarted
    · obtain ⟨due, hdue, rfl⟩ := Option.map_eq_some_iff.mp hstarted
      rcases heffect row.id with ⟨-, hruns⟩ | ⟨row', due', -, -, hrow', -, -, hdue', hle, -⟩
      · exact (not_mem_startedBy hruns (mem_map_of_mem hstart)).elim
      · obtain ⟨hmem', hkey'⟩ := (Table.find_eq_some_iff _).mp hrow'
        obtain rfl := w.store.schedules.eq_of_key_eq hmem' hrow hkey'
        obtain rfl := Option.some.inj (hdue.symm.trans hdue')
        exact ⟨hle, fun earlier hearlier => h.ahead row' hrow earlier hearlier due hdue⟩
    · cases hstarted

theorem Inv.deleteSchedule (h : Inv chrono w)
    (hok : w.store.deleteSchedule id = .ok store) : Inv chrono (w.commit store) := by
  obtain ⟨_, -, hok⟩ := bind_eq_ok_iff.mp hok
  cases hok
  apply h.commit
  · refine h.store.of_revised (.of_runs_eq rfl) fun row hrow => ?_
    exact h.store.payload_id row (Table.mem_erase.mp hrow).1
  · intro row hrow
    exact h.ahead row (Table.mem_erase.mp hrow).1

/-- **Every permitted operation keeps the invariant.** -/
theorem Inv.perform {op : Op} (h : Inv chrono w) (hchrono : chrono.Faithful)
    (hop : Permitted w op) : Inv chrono (perform chrono w op) := by
  cases op with
  | enqueue draw request => exact h.attempt fun result hok => h.enqueue hop hok
  | enqueueDue now draw => exact h.attempt fun store hok => h.enqueueDue hchrono hop hok
  | claim => exact h.attempt fun result hok => h.claim hok
  | cancel now id => exact h.cancel
  | progress run => exact h.revise (progress_revised run) rfl
  | finish now run => exact h.attempt fun store hok => h.finish hchrono hop.2 hok
  | saveSchedule now value => exact h.attempt fun result hok => h.saveSchedule hchrono hok
  | deleteSchedule id => exact h.attempt fun store hok => h.deleteSchedule hok
  | recover now =>
    exact h.attempt fun store hok =>
      h.revise (recoverAll_eq_ok hok).1 (recoverAll_eq_ok hok).2
  | markDeleting ids =>
    exact h.attempt fun result hok =>
      h.revise (markDeleting_eq_ok hok).1 (markDeleting_eq_ok hok).2
  | removeRun id => exact h.revise (removeRun_revised id) rfl

theorem attempt_schedules {α : Type} {result : Except String α} {commit : α → World}
    (h : ∀ a, result = .ok a → ((commit a).store.schedules.find id).map settings =
        (w.store.schedules.find id).map settings) :
    ((w.attempt result commit).store.schedules.find id).map settings =
      (w.store.schedules.find id).map settings := by
  cases result with
  | error e => rfl
  | ok a => exact h a rfl

/-- `finish` notes outcomes and leaves the settings. -/
theorem finish_settings {run : BackupRun} {store after : Store}
    (hstatus : run.status.isTerminal) (hok : store.finish chrono now run = .ok after) :
    (after.schedules.find id).map settings = (store.schedules.find id).map settings := by
  obtain ⟨-, hschedules | ⟨row, hrow, schedule, hnote, hschedules⟩⟩ := finish_eq_ok hstatus hok
  · rw [hschedules]
  have hsettings := (noteOutcome_eq_ok hnote).1
  rw [hschedules, setSchedule, Table.find_update]
  cases hfind : store.schedules.find id with
  | none => rfl
  | some old =>
    obtain ⟨hold, rfl⟩ := (Table.find_eq_some_iff _).mp hfind
    by_cases hkey : old.id = row.id
    · obtain rfl := store.schedules.eq_of_key_eq hold hrow hkey
      simpa [settings] using hsettings
    · simp [hkey]

/-- **A schedule that has an active run is neither edited nor deleted.** -/
theorem Inv.kept {op : Op} (h : Inv chrono w) (hop : Permitted w op) (hactive : w.store.active id) :
    ((Backup.perform chrono w op).store.schedules.find id).map settings =
      (w.store.schedules.find id).map settings := by
  cases op with
  | enqueue draw request =>
    refine attempt_schedules fun result hok => ?_
    obtain ⟨_, _, _, _, hinsert, -⟩ := enqueue_eq_ok hok
    obtain ⟨-, -, -, -, -, -, -, hschedules⟩ := insertJob_eq_ok hinsert
    exact congrArg (fun t : Table ScheduleRow.id => (t.find id).map _) hschedules
  | enqueueDue now draw =>
    refine attempt_schedules fun store hok => ?_
    rcases h.enqueueDue_effect hok id with ⟨hsame, -⟩ | ⟨-, -, -, -, -, -, hidle, -⟩
    · exact congrArg (Option.map _) hsame
    · simp [hactive] at hidle
  | claim =>
    refine attempt_schedules fun result hok => ?_
    obtain ⟨job, store⟩ := result
    cases job with
    | none =>
      obtain rfl := claim_none hok
      rfl
    | some job =>
      obtain ⟨-, -, -, hschedules⟩ := h.store.claim_eq_ok hok
      exact congrArg (fun t : Table ScheduleRow.id => (t.find id).map _) hschedules
  | cancel now other =>
    exact congrArg (fun t : Table ScheduleRow.id => (t.find id).map _) (cancel_schedules now other)
  | progress run => rfl
  | finish now run => exact attempt_schedules fun store hok => finish_settings hop.2 hok
  | saveSchedule now value =>
    refine attempt_schedules fun result hok => ?_
    obtain ⟨hidle, -, saved, hid, hschedules, -⟩ := saveSchedule_eq_ok hok
    -- the schedule that is saved has no active run, so it is another one
    have hne : id ≠ saved.id := by
      rintro rfl
      rw [hid, hidle] at hactive
      cases hactive
    change (result.2.schedules.find id).map _ = _
    rw [hschedules]
    exact congrArg (Option.map _) (Table.find_upsert_of_ne _ hne)
  | deleteSchedule other =>
    refine attempt_schedules fun store hok => ?_
    obtain ⟨_, hidle, hok⟩ := bind_eq_ok_iff.mp hok
    cases hok
    have hne : id ≠ other := by
      rintro rfl
      simpa [hactive] using ensure_eq_ok_iff.mp hidle
    refine congrArg (Option.map _) (Table.find_erase_of_not ?_)
    rintro row rfl
    simpa using hne
  | recover now =>
    refine attempt_schedules fun store hok => ?_
    exact congrArg (fun t : Table ScheduleRow.id => (t.find id).map _) (recoverAll_eq_ok hok).2
  | markDeleting ids =>
    refine attempt_schedules fun result hok => ?_
    exact congrArg (fun t : Table ScheduleRow.id => (t.find id).map _) (markDeleting_eq_ok hok).2
  | removeRun other => rfl

theorem Inv.stepSafe {op : Op} (h : Inv chrono w) (hop : Permitted w op) :
    StepSafe chrono w op where
  safe := h.safe
  kept _ hactive := h.kept hop hactive
  due now draw heq id := by
    subst heq
    change DueEffect chrono now w.store (w.attempt _ _).store id
    cases hok : w.store.enqueueDue chrono now draw with
    | error e => exact .inl ⟨rfl, rfl⟩
    | ok store => exact h.enqueueDue_effect hok id

end Step

/-- **Every interleaving of permitted operations is safe.** -/
theorem stepSafe_of_permitted (hchrono : chrono.Faithful) (ops : List Op)
    (hops : Along (step chrono) Permitted .initial ops) :
    Along (step chrono) (StepSafe chrono) .initial ops ∧
      ∀ w, run (step chrono) .initial ops = some w → w.Safe := by
  have hstep : ∀ w op w', Inv chrono w → Permitted w op → step chrono w op = some w' →
      Inv chrono w' := by
    rintro w op w' h hop ⟨⟩
    exact h.perform hchrono hop
  constructor
  · exact Along.of_invariant hstep (fun w op h hop => h.stepSafe hop) ops _ .initial hops
  · intro w hrun
    exact (Along.run_invariant hstep ops _ w .initial hops hrun).safe

/-! ### A schedule of every hour -/

/-- The first hours of the year 2026, as `chrono` writes them. -/
def newYear : List (Int × Text) :=
  [(1767225600000000000, "2026-01-01T00:00:00+00:00".toList),
    (1767229200000000000, "2026-01-01T01:00:00+00:00".toList),
    (1767232800000000000, "2026-01-01T02:00:00+00:00".toList),
    (1767236400000000000, "2026-01-01T03:00:00+00:00".toList)]

/-- `chrono` on these instants, with the time zone that has no offset. -/
def newYearChrono : Chrono where
  parseTz name := if name = "UTC".toList then
    some ⟨(· / 86400000000000), fun reading => .single (reading * 1000000000)⟩ else none
  parseTime text := if text = "02:00".toList then some 120 else none
  toRfc3339 t := ((newYear.find? fun entry => entry.1 = t).map (·.2)).getD []
  parseFromRfc3339 text := (newYear.find? fun entry => entry.2 = text).map (·.1)

theorem newYearChrono_faithful : newYearChrono.Faithful := by
  intro t u h
  cases hfind : newYear.find? fun entry => entry.1 = t with
  | none =>
    -- what has no timestamp is written as no text, which is none either
    have hnone : newYearChrono.parseFromRfc3339 [] = none := by decide +kernel
    simp only [newYearChrono, hfind, Option.map_none, Option.getD_none] at h hnone
    cases h
  | some entry =>
    -- each entry is read back
    have hread : ∀ entry ∈ newYear, newYearChrono.parseFromRfc3339 entry.2 = some entry.1 := by
      decide +kernel
    have hmem := mem_of_find?_eq_some hfind
    have hentry : entry.1 = t := by simpa using find?_some hfind
    simp only [newYearChrono, hfind, Option.map_some, Option.getD_some] at h hread
    rw [hread entry hmem, hentry] at h
    exact (Option.some.inj h).symm

/-- A backup of every hour. -/
def hourly : BackupSchedule where
  id := "s".toList
  name := "Hourly".toList
  enabled := true
  config :=
    { connectionId := "c".toList, databases := [], tableFilterMode := "all".toList
      tablePatterns := [], selectedTables := [], destinationDirectory := "/backups".toList
      includeStructure := true, includeData := true, includeObjects := false
      dropTableIfExists := false, outputCompression := "none".toList, fileNamePattern := none }
  frequency := "hourly".toList
  intervalHours := 1
  timeOfDay := "02:00".toList
  weekday := 0
  retentionCount := 0
  runDirectoryPattern := none
  timeZone := "UTC".toList
  createdAt := []
  updatedAt := []
  nextRunAt := []
  lastRunAt := none
  lastRunStatus := none

/-- The run that a worker is handed, as it finishes it. -/
def finishedRun : BackupRun :=
  { newRun newYearChrono ⟨"r1".toList, 1767229200000000000⟩ hourly.config (some hourly)
      hourly.name "scheduled".toList with
    status := .success
    completedAt := some "2026-01-01T01:00:00+00:00".toList }

/-- The schedule is saved, started, edited in vain, worked on and finished; then it is run by hand
and cancelled in the queue, its first run is deleted, and it is started again. -/
def hourlyOps : List Op :=
  [.saveSchedule 1767225600000000000 hourly,
    .enqueueDue 1767229200000000000 fun _ => ⟨"r1".toList, 1767229200000000000⟩,
    .saveSchedule 1767229200000000000 hourly,
    .claim,
    .enqueue ⟨"r0".toList, 1767229200000000000⟩ ⟨some "s".toList, none, none, none⟩,
    .progress { finishedRun with status := .running },
    .finish 1767229200000000000 finishedRun,
    .enqueue ⟨"r2".toList, 1767229200000000000⟩ ⟨some "s".toList, none, none, none⟩,
    .cancel 1767229200000000000 "r2".toList,
    .claim,
    .markDeleting ["r1".toList],
    .removeRun "r1".toList,
    .enqueueDue 1767232800000000000 fun _ => ⟨"r3".toList, 1767232800000000000⟩,
    .recover 1767232800000000000]

theorem stepSafe_hourlyOps :
    Along (step newYearChrono) (StepSafe newYearChrono) .initial hourlyOps ∧
      (run (step newYearChrono) .initial hourlyOps).map
          (fun w => (w.handed, w.withdrawn, w.store.runs.rows.map (·.id))) =
        some (["r1".toList], ["r2".toList], ["r2".toList, "r3".toList]) :=
  ⟨(stepSafe_of_permitted newYearChrono_faithful hourlyOps (by decide +kernel)).1,
    by decide +kernel⟩

end Dbx.Backup
