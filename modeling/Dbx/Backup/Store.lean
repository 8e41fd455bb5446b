import Dbx.Backup.Schedule
import Dbx.Keyed.Table
import Mathlib.Data.Char
import Mathlib.Data.List.Lex
import Mathlib.Data.List.Sort

/-!
# The backup store

Schedules and runs are rows of two tables with a primary key. Every operation is one immediate
transaction: it commits the store it returns, or reports an error and leaves the store as it was.
A payload is the value that its JSON text decodes to. What an operation reads from the clock and
draws as a new identifier is an argument.

## Main definitions

* `ScheduleRow`, `RunRow`, `Store`: the tables
* `Store.insertJob`: a new run with its job
* `Store.saveSchedule`, `Store.deleteSchedule`, `Store.enqueue`, `Store.enqueueDue`, `Store.claim`,
  `Store.cancel`, `Store.progress`, `Store.finish`, `Store.recover`, `Store.markDeleting`,
  `Store.removeRun`: the operations
-/

namespace Dbx.Backup

open Keyed

/-- A row of `schedules`. -/
structure ScheduleRow where
  id : Text
  payload : BackupSchedule
  deriving DecidableEq, Repr

/-- A row of `runs`. -/
structure RunRow where
  id : Text
  scheduleId : Option Text
  state : RunState
  payload : BackupRun
  job : Option Job
  createdAt : Text
  cancel : Bool
  deriving DecidableEq, Repr

/-- The state of the store. -/
structure Store where
  schedules : Table ScheduleRow.id
  runs : Table RunRow.id
  deriving DecidableEq

/-- What an insert draws: a new identifier, and the time. -/
structure Draw where
  id : Text
  now : Int
  deriving DecidableEq, Repr

namespace Store

def empty : Store := ⟨.empty _, .empty _⟩

/-- `schedules`: the payloads, ordered by the keys. -/
def scheduleList (store : Store) : List BackupSchedule :=
  (store.schedules.rows.insertionSort fun r s => r.id ≤ s.id).map (·.payload)

/-- The order of `created_at` and `id`. -/
def Precedes (r s : RunRow) : Prop :=
  r.createdAt < s.createdAt ∨ r.createdAt = s.createdAt ∧ r.id ≤ s.id

instance : DecidableRel Precedes := fun r s =>
  inferInstanceAs (Decidable (r.createdAt < s.createdAt ∨ r.createdAt = s.createdAt ∧ r.id ≤ s.id))

/-- `run_rows`: the payloads, the newest first. -/
def runRows (store : Store) : List BackupRun :=
  (store.runs.rows.insertionSort fun r s => Precedes s r).map (·.payload)

/-- `active`. -/
def active (store : Store) (scheduleId : Text) : Bool :=
  store.runs.rows.any fun row => row.scheduleId = some scheduleId && row.state.isActive

/-- The number of runs that are queued or running. -/
def pending (store : Store) : Nat := store.runs.rows.countP fun row => row.state.isActive

variable (chrono : Chrono)

/-- The run that `insert_job` makes. -/
def newRun (draw : Draw) (config : BackupConfig) (schedule : Option BackupSchedule)
    (name trigger : Text) : BackupRun where
  id := draw.id
  scheduleId := schedule.map (·.id)
  scheduleName := name
  displayName := none
  connectionId := config.connectionId
  connectionName := []
  destinationDirectory := config.destinationDirectory
  trigger := trigger
  source := if schedule.isSome then "scheduled".toList else "one-shot".toList
  status := .running
  startedAt := chrono.toRfc3339 draw.now
  completedAt := none
  error := none

/-- `insert_job`. -/
def insertJob (draw : Draw) (config : BackupConfig) (schedule : Option BackupSchedule)
    (name trigger : Text) (timeZone : Option Text) (store : Store) :
    Except String (BackupRun × Store) := do
  ensure (store.pending < 100) "Too many pending backups"
  let run := newRun chrono draw config schedule name trigger
  let timeZone := ((schedule.map (·.timeZone)).or timeZone).getD "UTC".toList
  ensure (chrono.parseTz timeZone).isSome "Invalid backup time zone"
  let directoryPattern := schedule.map fun s => s.runDirectoryPattern.getD defaultDirectory
  match store.runs.insert
      { id := run.id, scheduleId := run.scheduleId, state := .queued, payload := run,
        job := some ⟨run, config, directoryPattern, timeZone⟩, createdAt := run.startedAt,
        cancel := false } with
  | some runs => .ok (run, { store with runs })
  | none => .error "UNIQUE constraint failed: runs.id"

variable (store : Store) (id : Text)

/-- The payload of a schedule is replaced. -/
def setSchedule (payload : BackupSchedule) : Store :=
  { store with
    schedules := store.schedules.update (fun row => row.id = id) ({ · with payload })
      fun _ => rfl }

/-- The runs that meet a condition are changed. -/
def setRuns (p : RunRow → Bool) (f : RunRow → RunRow) (hf : ∀ row, (f row).id = row.id) : Store :=
  { store with runs := store.runs.update p f hf }

/-- The timing of a schedule is edited, or the schedule enabled. -/
def timingChanged (old value : BackupSchedule) : Bool :=
  old.frequency ≠ value.frequency || old.intervalHours ≠ value.intervalHours ||
    old.timeOfDay ≠ value.timeOfDay || old.weekday ≠ value.weekday ||
    old.timeZone ≠ value.timeZone || (!old.enabled && value.enabled)

/-- The due time of a schedule, computed anew from the present or kept. -/
def renewRunAt (now : Int) (renew : Bool) (schedule : BackupSchedule) : Except String Text :=
  if renew then (schedule.nextAfter chrono now).map chrono.toRfc3339 else .ok schedule.nextRunAt

/-- What a saved schedule keeps of the stored one, and whether its next run is computed anew. -/
def carryOver (now : Int) (value : BackupSchedule) :
    Option BackupSchedule → Except String (Bool × BackupSchedule)
  | some old => do
    ensure (old.updatedAt = value.updatedAt) "Backup schedule changed; reload before saving"
    return (timingChanged old value, { value with
        createdAt := old.createdAt
        lastRunAt := old.lastRunAt
        lastRunStatus := old.lastRunStatus
        nextRunAt := old.nextRunAt })
  | none =>
    return (true, { value with
        createdAt := chrono.toRfc3339 now
        lastRunAt := none
        lastRunStatus := none })

/-- `save_schedule`. -/
def saveSchedule (now : Int) (value : BackupSchedule) (store : Store) :
    Except String (BackupSchedule × Store) := do
  value.validate chrono
  ensure (!store.active value.id) "Cannot edit a running backup schedule"
  let carried ← carryOver chrono now value ((store.schedules.find value.id).map (·.payload))
  let nextRunAt ← renewRunAt chrono now carried.1 carried.2
  let value := { carried.2 with nextRunAt, updatedAt := chrono.toRfc3339 now }
  return (value, { store with
    schedules := store.schedules.upsert ⟨value.id, value⟩ ({ · with payload := value })
      fun _ => rfl })

/-- `delete_schedule`. -/
def deleteSchedule (store : Store) : Except String Store := do
  ensure (!store.active id) "Cannot delete a running backup schedule"
  return { store with schedules := store.schedules.erase fun row => row.id = id }

/-- `enqueue`. -/
def enqueue (draw : Draw) (request : RunRequest) (store : Store) :
    Except String (BackupRun × Store) :=
  match request.scheduleId with
  | some id => do
    ensure (!store.active id) "Backup schedule is already running"
    match store.schedules.find id with
    | none => .error "Query returned no rows"
    | some row =>
      insertJob chrono draw row.payload.config (some row.payload) row.payload.name
        "manual".toList none store
  | none =>
    match request.config with
    | none => .error "Backup configuration is required"
    | some config => do
      config.validate
      let name := request.displayName.getD "Database backup".toList
      boundedText name 256 "Backup name"
      insertJob chrono draw config none name "manual".toList request.timeZone store

/-- The loop of `enqueue_due` over the schedules it has read. -/
def enqueueAll (now : Int) (draw : Text → Draw) :
    List BackupSchedule → Store → Except String Store
  | [], store => .ok store
  | schedule :: rest, store =>
    if !schedule.enabled then enqueueAll now draw rest store
    else if 100 ≤ store.pending then .ok store
    else
      match chrono.parseFromRfc3339 schedule.nextRunAt with
      | none => .error "Invalid persisted backup time"
      | some next =>
        if now < next || store.active schedule.id then enqueueAll now draw rest store
        else do
          let (_, store) ← insertJob chrono (draw schedule.id) schedule.config (some schedule)
            schedule.name "scheduled".toList none store
          -- the advancement is persisted together with the queue entry
          let next ← schedule.nextAfter chrono now
          enqueueAll now draw rest (store.setSchedule schedule.id
            { schedule with nextRunAt := chrono.toRfc3339 next })

/-- `enqueue_due`, with what the insert of each schedule's run draws. -/
def enqueueDue (now : Int) (draw : Text → Draw) (store : Store) : Except String Store :=
  enqueueAll chrono now draw store.scheduleList store

def nextQueued : Option RunRow :=
  ((store.runs.rows.filter fun row => row.state = .queued).insertionSort Precedes).head?

/-- `claim`. -/
def claim : Except String (Option Job × Store) :=
  match store.nextQueued with
  | none => .ok (none, store)
  | some row =>
    match row.job with
    | none => .error "Invalid column type Null"
    | some job =>
      .ok (some job,
        store.setRuns (fun row => row.id = job.run.id) ({ · with state := .running }) fun _ => rfl)

def isQueued : Bool :=
  (store.runs.find id).any fun row => row.state = .queued

/-- `cancel`. -/
def cancel (now : Int) (id : Text) (store : Store) : Bool × Store :=
  if store.isQueued id then
    (true, store.setRuns (fun row => row.id = id) (fun row => { row with
        state := .cancelled
        cancel := true
        job := none
        payload := { row.payload with
          status := .cancelled
          completedAt := some (chrono.toRfc3339 now) } })
      fun _ => rfl)
  else
    ((store.runs.find id).any fun row => row.state = .running,
      store.setRuns (fun row => row.id = id && row.state = .running) ({ · with cancel := true })
        fun _ => rfl)

/-- `progress`. -/
def progress (run : BackupRun) (store : Store) : Store :=
  store.setRuns (fun row => row.id = run.id && row.state = .running) ({ · with payload := run })
    fun _ => rfl

/-- The schedule of a finished run: the outcome is noted, and a due time that has passed meanwhile
is skipped. -/
def noteOutcome (now : Int) (run : BackupRun) (schedule : BackupSchedule) :
    Except String BackupSchedule := do
  let overdue := (chrono.parseFromRfc3339 schedule.nextRunAt).any (· ≤ now)
  let nextRunAt ← renewRunAt chrono now overdue schedule
  return { schedule with
    lastRunAt := run.completedAt
    lastRunStatus := some run.status
    nextRunAt }

/-- `finish`. -/
def finish (now : Int) (run : BackupRun) (store : Store) : Except String Store :=
  let store := store.setRuns (fun row => row.id = run.id)
    ({ · with state := run.status, payload := run, job := none }) fun _ => rfl
  match run.scheduleId.bind store.schedules.find with
  | none => .ok store
  | some row => do
    let schedule ← noteOutcome chrono now run row.payload
    return store.setSchedule row.id schedule

/-- The message of an interrupted run. -/
def interrupted : Text :=
  ("Backup interrupted: the previous worker stopped. " ++
    "Retained files may be incomplete.").toList

/-- The loop of `recover` over the runs it has read. -/
def recoverAll (now : Int) : List BackupRun → Store → Except String Store
  | [], store => .ok store
  | run :: rest, store =>
    match store.runs.find run.id with
    | none => .error "Query returned no rows"
    | some row =>
      if row.state ≠ .running && row.state ≠ .deleting then recoverAll now rest store
      else
        let run := { run with
          status := .failed
          error := some interrupted
          completedAt := some (chrono.toRfc3339 now) }
        recoverAll now rest (store.setRuns (fun row => row.id = run.id)
          ({ · with state := .failed, payload := run, job := none }) fun _ => rfl)

/-- `recover`. -/
def recover (now : Int) (store : Store) : Except String Store :=
  recoverAll chrono now store.runRows store

/-- `mark_deleting`. -/
def markDeleting : List Text → Store → Except String (List BackupRun × Store)
  | [], store => .ok ([], store)
  | id :: ids, store =>
    match store.runs.find id with
    | none => .error "Query returned no rows"
    | some row =>
      if row.state.isTerminal || row.state = .deleting then do
        let (runs, store) ← markDeleting ids (store.setRuns (fun row => row.id = id)
          ({ · with state := .deleting }) fun _ => rfl)
        return (row.payload :: runs, store)
      else .error "Query returned no rows"

/-- `remove_run`. -/
def removeRun (store : Store) : Store :=
  { store with runs := store.runs.erase fun row => row.id = id && row.state = .deleting }

end Store

end Dbx.Backup
