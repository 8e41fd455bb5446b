import Dbx.Backup.Store

/-!
# What the operations do to runs and schedules

Every operation revises the runs that exist or inserts queued ones. What each of them can do is
said here once: the invariant of the store follows, and so does what `enqueue_due` does for a
schedule.

## Main results

* `StoreInv.of_revised`, `StoreInv.insertJob`: the changes of runs that keep the invariant
* `StoreInv.claim_eq_ok`: what `claim` does
* `StoreInv.enqueueAll`: the loop of `enqueue_due` keeps the invariant
* `Store.enqueueAll_effect`: a run is inserted exactly where a due time moves behind the present
-/

namespace Dbx.Backup

open Keyed List Table

variable {chrono : Chrono}

/-! ### The runs of a store -/

/-- The run is a queued or running run of the schedule. -/
def RunRow.activeFor (id : Text) (row : RunRow) : Bool :=
  row.scheduleId = some id && row.state.isActive

variable {id : Text}

open Store

theorem Store.active_eq_true_iff {store : Store} :
    store.active id ↔ ∃ row ∈ store.runs.rows, row.activeFor id := by
  simp [active, RunRow.activeFor]

/-- What holds of every row of `runs`. -/
structure RunRow.WellFormed (row : RunRow) : Prop where
  queued_job : row.state = .queued → ∀ job ∈ row.job, job.run.id = row.id
  settled : row.state.isTerminal → row.payload.status = row.state
  deleting : row.state = .deleting → row.payload.status.isTerminal

/-- What an operation may make of a run that exists. -/
structure RunRow.Revises (new old : RunRow) : Prop where
  id_eq : new.id = old.id
  scheduleId_eq : new.scheduleId = old.scheduleId
  active : new.state.isActive → old.state.isActive
  queued : new.state = .queued → old.state = .queued
  wellFormed : old.WellFormed → new.WellFormed

theorem RunRow.Revises.refl (row : RunRow) : row.Revises row :=
  ⟨rfl, rfl, fun h => h, fun h => h, fun h => h⟩

theorem RunRow.Revises.trans {r s t : RunRow} (h : r.Revises s) (h' : s.Revises t) : r.Revises t :=
  ⟨h.id_eq.trans h'.id_eq, h.scheduleId_eq.trans h'.scheduleId_eq, h'.active ∘ h.active,
    h'.queued ∘ h.queued, h.wellFormed ∘ h'.wellFormed⟩

open RunState

theorem RunRow.Revises.of_inactive {new old : RunRow} (hid : new.id = old.id)
    (hschedule : new.scheduleId = old.scheduleId) (hactive : new.state.isActive = false)
    (hwell : old.WellFormed → new.WellFormed) : new.Revises old where
  id_eq := hid
  scheduleId_eq := hschedule
  active h := by simp [hactive] at h
  queued h := by simp [h, isActive] at hactive
  wellFormed := hwell

def Store.Revised (after before : Store) : Prop :=
  ∀ row ∈ after.runs.rows, ∃ old ∈ before.runs.rows, row.Revises old

theorem Store.Revised.of_runs_eq {after before : Store} (h : after.runs = before.runs) :
    after.Revised before := by
  intro row hrow
  exact ⟨row, h ▸ hrow, .refl row⟩

theorem Store.Revised.trans {r s t : Store} (h : r.Revised s) (h' : s.Revised t) : r.Revised t := by
  intro row hrow
  obtain ⟨mid, hmid, hrev⟩ := h row hrow
  obtain ⟨old, hold, hrev'⟩ := h' mid hmid
  exact ⟨old, hold, hrev.trans hrev'⟩

/-- An update of runs revises the store if it revises each run. -/
theorem Store.setRuns_revised {store : Store} {p : RunRow → Bool} {f : RunRow → RunRow}
    {hf : ∀ row, (f row).id = row.id}
    (h : ∀ row ∈ store.runs.rows, p row → (f row).Revises row) :
    (store.setRuns p f hf).Revised store := by
  intro row hrow
  obtain ⟨old, hold, rfl⟩ := (mem_update _ p f hf).mp hrow
  refine ⟨old, hold, ?_⟩
  split
  · exact h old hold ‹_›
  · exact .refl old

/-! ### The invariant of a store -/

/-- What holds of a store at every point, where `blocked` are runs that were handed out or
cancelled in the queue. -/
structure StoreInv (blocked : Text → Prop) (store : Store) : Prop where
  wellFormed : ∀ row ∈ store.runs.rows, row.WellFormed
  payload_id : ∀ row ∈ store.schedules.rows, row.payload.id = row.id
  single : ∀ id, ∀ r ∈ store.runs.rows, ∀ s ∈ store.runs.rows,
    r.activeFor id → s.activeFor id → r = s
  blocked : ∀ row ∈ store.runs.rows, blocked row.id → row.state ≠ .queued

theorem RunRow.Revises.activeFor {new old : RunRow} (h : new.Revises old)
    (hnew : new.activeFor id) : old.activeFor id := by
  simp only [RunRow.activeFor, Bool.and_eq_true, decide_eq_true_eq] at hnew ⊢
  exact ⟨h.scheduleId_eq ▸ hnew.1, h.active hnew.2⟩

variable {before after : Store}

/-- Revising runs keeps the invariant. -/
theorem StoreInv.of_revised {blocked : Text → Prop}
    (h : StoreInv blocked before) (hrev : after.Revised before)
    (hpayload : ∀ row ∈ after.schedules.rows, row.payload.id = row.id) :
    StoreInv blocked after where
  wellFormed row hrow := by
    obtain ⟨old, hold, hr⟩ := hrev row hrow
    exact hr.wellFormed (h.wellFormed old hold)
  payload_id := hpayload
  single id r hr s hs hractive hsactive := by
    -- two active runs come from two active runs, which are one
    obtain ⟨r', hr', hrr⟩ := hrev r hr
    obtain ⟨s', hs', hss⟩ := hrev s hs
    have heq := h.single id r' hr' s' hs' (hrr.activeFor hractive) (hss.activeFor hsactive)
    exact after.runs.eq_of_key_eq hr hs (hrr.id_eq.trans (heq ▸ hss.id_eq.symm))
  blocked row hrow hblocked hqueued := by
    obtain ⟨old, hold, hr⟩ := hrev row hrow
    exact h.blocked old hold (hr.id_eq ▸ hblocked) (hr.queued hqueued)

variable {config : BackupConfig} {run : BackupRun} {timeZone : Option Text} {name trigger : Text}

variable {schedule : Option BackupSchedule}

/-- What `insert_job` does: it inserts one queued run. -/
theorem Store.insertJob_eq_ok {draw : Draw}
    (h : insertJob chrono draw config schedule name trigger timeZone before = .ok (run, after)) :
    ∃ row : RunRow, row.id = draw.id ∧ row.scheduleId = schedule.map (·.id) ∧
      row.state = .queued ∧ row.payload.trigger = trigger ∧ row.WellFormed ∧
      before.runs.insert row = some after.runs ∧ after.schedules = before.schedules := by
  obtain ⟨-, -, h⟩ := bind_eq_ok_iff.mp h
  obtain ⟨-, -, h⟩ := bind_eq_ok_iff.mp h
  simp only at h
  split at h
  · rename_i runs hinsert
    cases h
    refine ⟨_, rfl, rfl, rfl, rfl, ?_, hinsert, rfl⟩
    -- the new run is queued, so that only its job matters
    constructor
    · rintro - job ⟨⟩
      rfl
    · rintro ⟨⟩
    · rintro ⟨⟩
  · cases h

/-- Inserting a new run keeps the invariant where its schedule has no active run. -/
theorem StoreInv.insertJob {blocked : Text → Prop} {draw : Draw} (h : StoreInv blocked before)
    (hinsert : insertJob chrono draw config schedule name trigger timeZone before =
      .ok (run, after))
    (hfresh : ¬ blocked draw.id)
    (hidle : ∀ s ∈ schedule, before.active s.id = false) : StoreInv blocked after := by
  obtain ⟨row, hid, hschedule, hstate, -, hwell, hruns, hschedules⟩ := insertJob_eq_ok hinsert
  -- no run before is an active run of the schedule of the new one
  have hother : ∀ id, ∀ r ∈ before.runs.rows, r.activeFor id → row.activeFor id → False := by
    intro id r hr hactive hrow
    simp only [RunRow.activeFor, hschedule, Bool.and_eq_true, decide_eq_true_eq,
      Option.map_eq_some_iff] at hrow
    obtain ⟨⟨s, hs, rfl⟩, -⟩ := hrow
    have := active_eq_true_iff.mpr ⟨r, hr, hactive⟩
    rw [hidle s hs] at this
    cases this
  constructor
  · intro r hr
    rcases (mem_insert hruns).mp hr with hr | rfl
    · exact h.wellFormed r hr
    · exact hwell
  · rw [hschedules]
    exact h.payload_id
  · intro id r hr s hs hractive hsactive
    rcases (mem_insert hruns).mp hr with hr | rfl <;>
      rcases (mem_insert hruns).mp hs with hs | rfl
    · exact h.single id r hr s hs hractive hsactive
    · exact (hother id r hr hractive hsactive).elim
    · exact (hother id s hs hsactive hractive).elim
    · rfl
  · intro r hr hblocked
    rcases (mem_insert hruns).mp hr with hr | rfl
    · exact h.blocked r hr hblocked
    · exact (hfresh (hid ▸ hblocked)).elim

/-! ### The operations on runs -/

section Operations

variable {blocked : Text → Prop} {store after : Store}

variable {row : RunRow}

theorem Store.eq_of_find {row r : RunRow} (h : store.runs.find id = some row)
    (hr : r ∈ store.runs.rows) (hid : r.id = id) : r = row := by
  obtain ⟨hrow, rfl⟩ := store.runs.find_eq_some_iff.mp h
  exact store.runs.eq_of_key_eq hr hrow hid

theorem Store.nextQueued_mem (h : store.nextQueued = some row) :
    row ∈ store.runs.rows ∧ row.state = .queued := by
  have hmem := (mem_insertionSort _).mp (mem_of_head? h)
  simpa using hmem

/-- What `claim` does: it hands out the job of a queued run, which is running from then on. -/
theorem StoreInv.claim_eq_ok (h : StoreInv blocked store) {job : Job}
    (hclaim : store.claim = .ok (some job, after)) :
    store.isQueued job.run.id ∧ after.Revised store ∧ after.isQueued job.run.id = false ∧
      after.schedules = store.schedules := by
  unfold claim at hclaim
  split at hclaim
  · cases hclaim
  rename_i row hrow
  obtain ⟨hmem, hqueued⟩ := nextQueued_mem hrow
  split at hclaim
  · cases hclaim
  rename_i found hjob
  cases hclaim
  -- the job names the row it was read from
  have hid : job.run.id = row.id := (h.wellFormed row hmem).queued_job hqueued job hjob
  have hfind : store.runs.find job.run.id = some row :=
    store.runs.find_eq_some_iff.mpr ⟨hmem, hid.symm⟩
  refine ⟨by simp [isQueued, hfind, hqueued], ?_, ?_, rfl⟩
  · apply setRuns_revised
    intro r hr hrid
    obtain rfl := eq_of_find hfind hr (by simpa using hrid)
    refine ⟨rfl, rfl, fun _ => by simp [isActive, hqueued], nofun, fun _ => ?_⟩
    exact ⟨nofun, nofun, nofun⟩
  · rw [hid] at hfind ⊢
    simp [isQueued, setRuns, find_update, hfind]

theorem Store.claim_none (hclaim : store.claim = .ok (none, after)) : after = store := by
  unfold claim at hclaim
  split at hclaim
  · cases hclaim
    rfl
  · split at hclaim <;> cases hclaim

theorem Store.cancel_revised (now : Int) (id : Text) :
    (store.cancel chrono now id).2.Revised store := by
  unfold cancel
  split
  · apply setRuns_revised
    intro row _ _
    exact .of_inactive rfl rfl rfl fun _ => ⟨nofun, fun _ => rfl, nofun⟩
  · apply setRuns_revised
    intro row _ _
    exact ⟨rfl, rfl, fun h => h, fun h => h, fun h => ⟨h.queued_job, h.settled, h.deleting⟩⟩

theorem Store.cancel_schedules (now : Int) (id : Text) :
    (store.cancel chrono now id).2.schedules = store.schedules := by
  unfold cancel
  split <;> rfl

/-- A run cancelled in the queue is not in the queue. -/
theorem Store.cancel_isQueued (now : Int) (id : Text) :
    (store.cancel chrono now id).2.isQueued id = false := by
  unfold cancel
  split
  case isTrue h =>
    cases hfind : store.runs.find id with
    | none => simp [isQueued, hfind] at h
    | some row =>
      obtain ⟨-, rfl⟩ := store.runs.find_eq_some_iff.mp hfind
      simp [isQueued, setRuns, find_update, hfind]
  case isFalse h =>
    simp only [isQueued, setRuns, find_update, Option.any_map] at h ⊢
    cases hfind : store.runs.find id with
    | none => rfl
    | some row =>
      simp only [hfind, Option.any_some, decide_eq_true_eq] at h
      simp only [Option.any_some]
      split <;> simpa using h

theorem Store.progress_revised (run : BackupRun) : (store.progress run).Revised store := by
  apply setRuns_revised
  intro row _ hrow
  simp only [Bool.and_eq_true, decide_eq_true_eq] at hrow
  refine ⟨rfl, rfl, fun h => h, fun h => h, fun h => ⟨h.queued_job, fun ht => ?_, fun hd => ?_⟩⟩
  -- the payload of a running run is not yet settled
  · simp [hrow.2, isTerminal] at ht
  · simp [hrow.2] at hd

theorem RunState.isActive_of_isTerminal {state : RunState} (h : state.isTerminal) :
    state.isActive = false := by
  cases state <;> first | rfl | cases h

theorem RunRow.Revises.settle (run : BackupRun) (h : run.status.isTerminal) :
    ({ row with state := run.status, payload := run, job := none } : RunRow).Revises row := by
  refine .of_inactive rfl rfl (isActive_of_isTerminal h) fun _ => ⟨?_, fun _ => rfl, ?_⟩
  · rintro - job ⟨⟩
  · intro hd
    have hd : run.status = .deleting := hd
    simp [hd, isTerminal] at h

/-- What `finish` does: the run is settled, and its schedule notes the outcome. -/
theorem Store.finish_eq_ok {now : Int} (h : run.status.isTerminal)
    (hfinish : store.finish chrono now run = .ok after) :
    after.Revised store ∧ (after.schedules = store.schedules ∨
      ∃ row ∈ store.schedules.rows, ∃ schedule, noteOutcome chrono now run row.payload =
        .ok schedule ∧ after.schedules = (store.setSchedule row.id schedule).schedules) := by
  have hrev : (store.setRuns (fun row => row.id = run.id)
      ({ · with state := run.status, payload := run, job := none }) fun _ => rfl).Revised store :=
    setRuns_revised fun row _ _ => .settle run h
  unfold finish at hfinish
  simp only at hfinish
  split at hfinish
  · cases hfinish
    exact ⟨hrev, .inl rfl⟩
  rename_i row hrow
  obtain ⟨id, -, hfind⟩ := Option.bind_eq_some_iff.mp hrow
  have hmem := ((find_eq_some_iff _).mp hfind).1
  obtain ⟨schedule, hnote, hfinish⟩ := bind_eq_ok_iff.mp hfinish
  cases hfinish
  exact ⟨(Store.Revised.of_runs_eq rfl).trans hrev, .inr ⟨row, hmem, schedule, hnote, rfl⟩⟩

/-- The loop of `recover` settles runs. -/
theorem Store.recoverAll_eq_ok {now : Int} {runs : List BackupRun}
    (h : recoverAll chrono now runs store = .ok after) :
    after.Revised store ∧ after.schedules = store.schedules := by
  induction runs generalizing store with
  | nil =>
    cases h
    exact ⟨.of_runs_eq rfl, rfl⟩
  | cons run rest ih =>
    unfold recoverAll at h
    split at h
    · cases h
    split at h
    · exact ih h
    · obtain ⟨hrev, hschedules⟩ := ih h
      refine ⟨hrev.trans (setRuns_revised fun row _ _ => ?_), hschedules⟩
      exact .settle { run with
        status := .failed
        error := some interrupted
        completedAt := some (chrono.toRfc3339 now) } rfl

/-- The loop of `mark_deleting` marks runs that are over. -/
theorem Store.markDeleting_eq_ok {ids : List Text} {runs : List BackupRun}
    (h : markDeleting ids store = .ok (runs, after)) :
    after.Revised store ∧ after.schedules = store.schedules := by
  induction ids generalizing store runs with
  | nil =>
    cases h
    exact ⟨.of_runs_eq rfl, rfl⟩
  | cons id ids ih =>
    unfold markDeleting at h
    split at h
    · cases h
    rename_i row hfind
    split at h
    · rename_i hstate
      obtain ⟨⟨marked, rest⟩, hrest, h⟩ := bind_eq_ok_iff.mp h
      cases h
      obtain ⟨hrev, hschedules⟩ := ih hrest
      refine ⟨hrev.trans (setRuns_revised fun r hr hid => ?_), hschedules⟩
      obtain rfl := eq_of_find hfind hr (by simpa using hid)
      refine .of_inactive rfl rfl rfl fun hwell => ⟨nofun, nofun, fun _ => ?_⟩
      -- the payload keeps the status with which the run was settled
      rcases Bool.or_eq_true _ _ ▸ hstate with hterminal | hdeleting
      · exact hwell.settled hterminal ▸ hterminal
      · exact hwell.deleting (by simpa using hdeleting)
    · cases h

theorem Store.removeRun_revised (id : Text) : (store.removeRun id).Revised store := by
  intro row hrow
  exact ⟨row, (mem_erase.mp hrow).1, .refl row⟩

end Operations

/-! ### The schedules that are due -/

section Due

variable {blocked : Text → Prop} {now : Int} {draw : Text → Draw} {store after : Store}

theorem StoreInv.setSchedule (h : StoreInv blocked store) {payload : BackupSchedule}
    (hid : payload.id = id) : StoreInv blocked (store.setSchedule id payload) := by
  refine h.of_revised (.of_runs_eq rfl) fun row hrow => ?_
  simp only [Store.setSchedule, mem_update, decide_eq_true_eq] at hrow
  obtain ⟨old, hold, rfl⟩ := hrow
  split
  case isTrue hkey => exact hid.trans hkey.symm
  case isFalse => exact h.payload_id old hold

/-- What the loop does with a schedule: it skips the schedule, stops, or inserts its run and moves
its due time. -/
theorem Store.enqueueAll_cons {schedule : BackupSchedule} {rest : List BackupSchedule}
    (h : enqueueAll chrono now draw (schedule :: rest) store = .ok after) :
    enqueueAll chrono now draw rest store = .ok after ∨ after = store ∨
      ∃ due next run mid, schedule.enabled ∧
        chrono.parseFromRfc3339 schedule.nextRunAt = some due ∧ due ≤ now ∧
        store.active schedule.id = false ∧
        insertJob chrono (draw schedule.id) schedule.config (some schedule) schedule.name
          "scheduled".toList none store = .ok (run, mid) ∧
        schedule.nextAfter chrono now = .ok next ∧
        enqueueAll chrono now draw rest (mid.setSchedule schedule.id
          { schedule with nextRunAt := chrono.toRfc3339 next }) = .ok after := by
  unfold enqueueAll at h
  split at h
  · exact .inl h
  rename_i henabled
  split at h
  · cases h
    exact .inr (.inl rfl)
  split at h
  · cases h
  rename_i due hdue
  split at h
  · exact .inl h
  rename_i hready
  simp only [Bool.or_eq_true, decide_eq_true_eq, not_or, Bool.not_eq_true, not_lt] at hready
  obtain ⟨⟨run, mid⟩, hinsert, h⟩ := bind_eq_ok_iff.mp h
  obtain ⟨next, hnext, h⟩ := bind_eq_ok_iff.mp h
  exact .inr (.inr ⟨due, next, run, mid, by simpa using henabled, hdue, hready.1, hready.2,
    hinsert, hnext, h⟩)

variable {schedules : List BackupSchedule}

/-- The loop keeps the invariant. -/
theorem StoreInv.enqueueAll (h : StoreInv blocked store)
    (hfresh : ∀ s ∈ schedules, ¬ blocked (draw s.id).id)
    (hok : enqueueAll chrono now draw schedules store = .ok after) :
    StoreInv blocked after := by
  induction schedules generalizing store with
  | nil =>
    cases hok
    exact h
  | cons schedule rest ih =>
    have hrest : ∀ s ∈ rest, ¬ blocked (draw s.id).id := fun s hs =>
      hfresh s (mem_cons_of_mem _ hs)
    rcases enqueueAll_cons hok with
      hok | rfl | ⟨due, next, run, mid, -, -, -, hidle, hinsert, -, hok⟩
    · exact ih h hrest hok
    · exact h
    · have hmid : StoreInv blocked mid :=
        h.insertJob hinsert (hfresh schedule mem_cons_self) (by simpa using hidle)
      refine ih (hmid.setSchedule ?_) hrest hok
      rfl

def Store.runsOf (store : Store) (id : Text) : List RunRow :=
  store.runs.rows.filter fun row => row.scheduleId = some id

theorem Store.active_eq_any_runsOf (store : Store) (id : Text) :
    store.active id = (store.runsOf id).any fun row => row.state.isActive := by
  simp [active, runsOf, any_filter]

/-- What `enqueue_due` may do for a schedule: nothing, or both insert one queued run and move the
due time of the schedule, which is over, behind the present. -/
def DueEffect (chrono : Chrono) (now : Int) (before after : Store) (id : Text) : Prop :=
  (after.schedules.find id = before.schedules.find id ∧ after.runsOf id = before.runsOf id) ∨
  ∃ row due next run,
    before.schedules.find id = some row ∧ row.payload.enabled ∧ before.active id = false ∧
    chrono.parseFromRfc3339 row.payload.nextRunAt = some due ∧ due ≤ now ∧ now < next ∧
    after.schedules.find id =
      some ⟨row.id, { row.payload with nextRunAt := chrono.toRfc3339 next }⟩ ∧
    after.runsOf id = before.runsOf id ++ [run] ∧ run.state = .queued ∧
    run.payload.trigger = "scheduled".toList

/-- An update of one schedule leaves what other identifiers find. -/
theorem Store.find_setSchedule_of_ne {id other : Text} {payload : BackupSchedule} (h : other ≠ id) :
    (store.setSchedule id payload).schedules.find other = store.schedules.find other := by
  rw [Store.setSchedule, find_update]
  cases hfind : store.schedules.find other with
  | none => rfl
  | some row =>
    obtain ⟨-, rfl⟩ := (find_eq_some_iff _).mp hfind
    simp [h]

theorem Store.insertJob_runsOf {schedule : BackupSchedule} {drawn : Draw}
    (h : insertJob chrono drawn config (some schedule) name trigger timeZone store =
      .ok (run, after)) :
    (∃ row : RunRow, row.state = .queued ∧ row.payload.trigger = trigger ∧
      after.runsOf schedule.id = store.runsOf schedule.id ++ [row]) ∧
    ∀ id, id ≠ schedule.id → after.runsOf id = store.runsOf id := by
  obtain ⟨row, -, hschedule, hstate, htrigger, -, hinsert, -⟩ := insertJob_eq_ok h
  have hrows := ((insert_eq_some_iff _ _).mp hinsert).2
  refine ⟨⟨row, hstate, htrigger, ?_⟩, fun id hid => ?_⟩
  · simp [runsOf, hrows, hschedule]
  · simp [runsOf, hrows, hschedule, hid.symm]

/-- **A run is inserted exactly where the due time moves behind the present.** The loop does so
for schedules it has read only, and at most once for each. -/
theorem Store.enqueueAll_effect (hnodup : (schedules.map (·.id)).Nodup)
    (hread : ∀ s ∈ schedules, store.schedules.find s.id = some ⟨s.id, s⟩)
    (hok : enqueueAll chrono now draw schedules store = .ok after) (id : Text) :
    DueEffect chrono now store after id ∧
      (id ∉ schedules.map (·.id) → after.schedules.find id = store.schedules.find id ∧
        after.runsOf id = store.runsOf id) := by
  induction schedules generalizing store with
  | nil =>
    cases hok
    exact ⟨.inl ⟨rfl, rfl⟩, fun _ => ⟨rfl, rfl⟩⟩
  | cons schedule rest ih =>
    obtain ⟨hnotin, hnodup⟩ := List.nodup_cons.mp hnodup
    rcases enqueueAll_cons hok with
      hok | rfl | ⟨due, next, run, mid, henabled, hdue, hle, hidle, hinsert, hnext, hok⟩
    · obtain ⟨heffect, hother⟩ := ih hnodup (fun s hs => hread s (mem_cons_of_mem _ hs)) hok
      exact ⟨heffect, fun h => hother fun hmem => h (mem_cons_of_mem _ hmem)⟩
    · exact ⟨.inl ⟨rfl, rfl⟩, fun _ => ⟨rfl, rfl⟩⟩
    · obtain ⟨-, -, -, -, -, -, -, hschedules⟩ := insertJob_eq_ok hinsert
      obtain ⟨⟨row, hstate, htrigger, hnew⟩, hruns⟩ := insertJob_runsOf hinsert
      -- the other schedules stand in the store as they were read
      have hread' : ∀ s ∈ rest, (mid.setSchedule schedule.id
          { schedule with nextRunAt := chrono.toRfc3339 next }).schedules.find s.id =
            some ⟨s.id, s⟩ := by
        intro s hs
        rw [find_setSchedule_of_ne, hschedules]
        · exact hread s (mem_cons_of_mem _ hs)
        · intro heq
          exact hnotin (List.mem_map.mpr ⟨s, hs, heq⟩)
      obtain ⟨heffect, hother⟩ := ih hnodup hread' hok
      by_cases hid : id = schedule.id
      · subst hid
        obtain ⟨hfind, hafter⟩ := hother hnotin
        refine ⟨.inr ⟨⟨schedule.id, schedule⟩, due, next, row, hread _ mem_cons_self,
          henabled, hidle, hdue, hle, BackupSchedule.nextAfter_gt hnext, ?_, hafter.trans hnew,
          hstate, htrigger⟩, fun h => (h mem_cons_self).elim⟩
        rw [hfind, setSchedule, find_update, hschedules, hread _ mem_cons_self]
        simp
      · -- neither the insert nor the update concerns another schedule
        have hsame : (mid.setSchedule schedule.id
            { schedule with nextRunAt := chrono.toRfc3339 next }).schedules.find id =
              store.schedules.find id := by
          rw [find_setSchedule_of_ne hid, hschedules]
        have hsameRuns : (mid.setSchedule schedule.id
            { schedule with nextRunAt := chrono.toRfc3339 next }).runsOf id = store.runsOf id :=
          hruns id hid
        have hactive : (mid.setSchedule schedule.id
            { schedule with nextRunAt := chrono.toRfc3339 next }).active id = store.active id := by
          rw [active_eq_any_runsOf, active_eq_any_runsOf, hsameRuns]
        refine ⟨?_, fun h => ?_⟩
        · simpa only [DueEffect, hsame, hsameRuns, hactive] using heffect
        · have := hother fun hmem => h (mem_cons_of_mem _ hmem)
          rwa [hsame, hsameRuns] at this

end Due

end Dbx.Backup
