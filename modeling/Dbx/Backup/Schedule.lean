import Dbx.Result.Basic
import Dbx.Text.Basic

/-!
# Backup schedules

A schedule says what to back up and when. `next_after` computes the instant of its next backup
behind a given one: a number of hours later, or the next day or weekday at which the wall clock of
the schedule's time zone shows its time of day. Time zones and timestamps are those of `chrono`.
Instants count nanoseconds, the readings of a wall clock seconds, and dates days.
-/

namespace Dbx.Backup

open Text

/-- `LocalResult`: the instants at which a wall clock shows a reading. -/
inductive LocalResult
  | single (value : Int)
  | ambiguous (first second : Int)
  | none
  deriving DecidableEq, Repr

/-- A time zone: the date of an instant, and `from_local_datetime`. -/
structure Tz where
  dateNaive : Int → Int
  fromLocalDatetime : Int → LocalResult

/-- The functions of `chrono` and `chrono_tz` that the store calls. -/
structure Chrono where
  parseTz : Text → Option Tz
  /-- `NaiveTime::parse_from_str` by `%H:%M`, as minutes. -/
  parseTime : Text → Option Nat
  toRfc3339 : Int → Text
  parseFromRfc3339 : Text → Option Int

/-- A timestamp reads back as the instant it was written from, if it reads back at all. Instants
behind the year 9999 are written in a form that does not. -/
def Chrono.Faithful (chrono : Chrono) : Prop :=
  ∀ t u, chrono.parseFromRfc3339 (chrono.toRfc3339 t) = some u → u = t

/-- `BackupTableTarget`. -/
structure BackupTableTarget where
  database : Text
  schema : Text
  table : Text
  deriving DecidableEq, Repr

/-- `BackupConfig`. -/
structure BackupConfig where
  connectionId : Text
  databases : List Text
  tableFilterMode : Text
  tablePatterns : List Text
  selectedTables : List BackupTableTarget
  destinationDirectory : Text
  includeStructure : Bool
  includeData : Bool
  includeObjects : Bool
  dropTableIfExists : Bool
  outputCompression : Text
  fileNamePattern : Option Text
  deriving DecidableEq, Repr

/-- The states of a run, in the store and in its payload. -/
inductive RunState
  | queued
  | running
  | success
  | failed
  | cancelled
  | deleting
  deriving DecidableEq, Repr

def RunState.isActive (state : RunState) : Bool := state = .queued || state = .running

def RunState.isTerminal (state : RunState) : Bool :=
  state = .success || state = .failed || state = .cancelled

/-- `BackupSchedule`. -/
structure BackupSchedule where
  id : Text
  name : Text
  enabled : Bool
  config : BackupConfig
  frequency : Text
  intervalHours : Nat
  timeOfDay : Text
  weekday : Nat
  retentionCount : Nat
  runDirectoryPattern : Option Text
  timeZone : Text
  createdAt : Text
  updatedAt : Text
  nextRunAt : Text
  lastRunAt : Option Text
  lastRunStatus : Option RunState
  deriving DecidableEq, Repr

/-- `BackupRun`, without the files and the percentage that only the worker reads. -/
structure BackupRun where
  id : Text
  scheduleId : Option Text
  scheduleName : Text
  displayName : Option Text
  connectionId : Text
  connectionName : Text
  destinationDirectory : Text
  trigger : Text
  source : Text
  status : RunState
  startedAt : Text
  completedAt : Option Text
  error : Option Text
  deriving DecidableEq, Repr

/-- `RunRequest`. -/
structure RunRequest where
  scheduleId : Option Text
  config : Option BackupConfig
  displayName : Option Text
  timeZone : Option Text
  deriving DecidableEq, Repr

/-- `Job`. -/
structure Job where
  run : BackupRun
  config : BackupConfig
  directoryPattern : Option Text
  timeZone : Text
  deriving DecidableEq, Repr

/-- `DEFAULT_DIRECTORY`. -/
def defaultDirectory : Text :=
  "dbx-backup__\x7bschedule\x7d__\x7btimestamp\x7d__\x7brunId\x7d".toList

/-- `DEFAULT_FILE`. -/
def defaultFile : Text :=
  "dbx-backup__\x7bschedule\x7d__\x7btimestamp\x7d__\x7bdatabase\x7d__\x7brunId\x7d".toList

/-! ### The checks of a schedule -/

def ensure (ok : Bool) (message : String) : Except String Unit :=
  if ok then .ok () else .error message

theorem ensure_eq_ok_iff {ok : Bool} {message : String} {u : Unit} :
    ensure ok message = .ok u ↔ ok := by
  cases ok <;> simp [ensure]

/-- `bounded_text`. -/
def boundedText (value : Text) (max : Nat) (label : String) : Except String Unit :=
  ensure (!((trim value).isEmpty || max < byteLen value || value.any isControl))
    ("Invalid " ++ label)

def isSlash (c : Char) : Bool := c = '/' || c = '\\'

/-- `validate_template`. -/
def validateTemplate (value : Text) (directory : Bool) : Except String Unit := do
  boundedText value 1024 "backup name template"
  let parts := splitOn isSlash value
  if directory then
    let drive := match value with
      | letter :: ':' :: _ => letter.isAlpha
      | _ => false
    ensure (!(value.head?.any isSlash || value.getLast?.any isSlash || drive ||
        parts.any fun part => part = ".".toList || part = "..".toList))
      "Invalid backup directory template"
  else
    ensure (!(trim value ≠ value || value.head?.any isSlash ||
        value.getLast?.any (fun c => isSlash c || c = '.' || c = ' ') ||
        value.any (fun c => c ∈ [':', '*', '?', '"', '<', '>', '|']) || value.any isSlash ||
        parts.any fun part => part.isEmpty || part = ".".toList || part = "..".toList))
      "Invalid backup name template"

/-- `BackupConfig::validate`, where absolute paths start with a slash. -/
def BackupConfig.validate (config : BackupConfig) : Except String Unit := do
  boundedText config.connectionId 256 "Connection"
  boundedText config.destinationDirectory 4096 "Backup directory"
  ensure (config.destinationDirectory.head? = some '/') "Backup directory must be absolute"
  ensure (config.includeStructure || config.includeData || config.includeObjects)
    "Select backup contents"
  ensure (config.outputCompression ∈ ["none".toList, "gzip".toList, "nb3".toList])
    "Unsupported backup compression"
  ensure (config.tableFilterMode ∈
      ["all".toList, "include".toList, "exclude".toList, "selected".toList])
    "Unsupported backup table filter"
  ensure (config.databases.length ≤ 10000 && config.tablePatterns.length ≤ 1000)
    "Too many backup targets or patterns"
  (config.databases ++ config.tablePatterns).forM fun value =>
    boundedText value 1024 "Backup target"
  ensure (!(config.tableFilterMode ∈ ["include".toList, "exclude".toList] &&
    config.tablePatterns.isEmpty)) "Select backup table patterns"
  if config.tableFilterMode = "selected".toList then do
    ensure (!(config.databases.isEmpty || config.selectedTables.isEmpty))
      "Select backup databases and tables"
    ensure (config.selectedTables.length ≤ 10000) "Too many selected backup tables"
    config.selectedTables.forM fun target => do
      boundedText target.database 1024 "Backup table database"
      boundedText target.schema 1024 "Backup table schema"
      boundedText target.table 1024 "Backup table name"
      ensure (target.database ∈ config.databases)
        "Selected backup table is outside the database scope"
  validateTemplate (config.fileNamePattern.getD defaultFile) false

variable (chrono : Chrono)

/-- `BackupSchedule::validate`. -/
def BackupSchedule.validate (schedule : BackupSchedule) : Except String Unit := do
  schedule.config.validate
  boundedText schedule.id 256 "Schedule ID"
  boundedText schedule.name 256 "Schedule name"
  ensure (schedule.frequency ∈ ["hourly".toList, "daily".toList, "weekly".toList] &&
      1 ≤ schedule.intervalHours && schedule.intervalHours ≤ 168 && schedule.weekday ≤ 6 &&
      schedule.retentionCount ≤ 1000)
    "Invalid backup schedule"
  ensure (chrono.parseTime schedule.timeOfDay).isSome "Invalid backup time"
  ensure (chrono.parseTz schedule.timeZone).isSome "Invalid backup time zone"
  validateTemplate (schedule.runDirectoryPattern.getD defaultDirectory) true

/-! ### The next backup -/

/-- The weekday of a date, counted from Sunday; the first date is a Thursday. -/
def numDaysFromSunday (date : Int) : Int := (date + 4) % 7

/-- The first instant at which a wall clock shows a reading. -/
def LocalResult.earliest : LocalResult → Option Int
  | .single value => some value
  | .ambiguous first _ => some first
  | .none => Option.none

/-- The instant of a time of day on a date: within a gap of the wall clock, the first valid minute
behind it. -/
def Tz.occurrence (tz : Tz) (date : Int) (time : Nat) : Option Int :=
  (List.range 180).findSome? fun minute =>
    (tz.fromLocalDatetime (date * 86400 + (time + minute) * 60)).earliest

/-- `next_after`. -/
def BackupSchedule.nextAfter (schedule : BackupSchedule) (after : Int) : Except String Int :=
  if schedule.frequency = "hourly".toList then
    .ok (after + max 1 (min schedule.intervalHours 168) * 3600000000000)
  else
    match chrono.parseTz schedule.timeZone, chrono.parseTime schedule.timeOfDay with
    | none, _ => .error "Invalid backup time zone"
    | some _, none => .error "Invalid backup time"
    | some tz, some time =>
      let today := tz.dateNaive after
      let next := (List.range 15).findSome? fun offset =>
        let date := today + offset
        if schedule.frequency = "weekly".toList ∧ numDaysFromSunday date ≠ schedule.weekday then
          none
        else (tz.occurrence date time).filter (after < ·)
      match next with
      | some next => .ok next
      | none => .error "Unable to calculate next backup time"

variable {chrono}

/-- **The next backup is strictly behind the given instant.** -/
theorem BackupSchedule.nextAfter_gt {schedule : BackupSchedule} {after next : Int}
    (h : schedule.nextAfter chrono after = .ok next) : after < next := by
  unfold nextAfter at h
  split at h
  · -- an hour at least is added
    simp only [Except.ok.injEq] at h
    omega
  split at h
  · cases h
  · cases h
  simp only at h
  split at h
  · -- an occurrence is taken only behind the instant
    rename_i found hfound
    cases h
    obtain ⟨offset, -, hoffset⟩ := List.exists_of_findSome?_eq_some hfound
    split at hoffset
    · cases hoffset
    · simpa using (Option.filter_eq_some_iff.mp hoffset).2
  · cases h

end Dbx.Backup
