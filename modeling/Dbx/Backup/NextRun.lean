import Dbx.Backup.Queue
import Dbx.Clock.Wall

/-!
# When a schedule is due next

`next_after` goes from date to date and takes the first occurrence behind the given instant. Where
the wall clock skips the time of day, the backup is due at the first minute that is shown behind the
gap, and where it is shown twice, at the first one. In a time zone whose offset changes by less than
three hours, at least two days apart, that is the least one of all occurrences: none is skipped and
none is met twice.

## Main definitions

* `Zone`, `Tz.Follows`: a time zone, and that `chrono` knows it
* `Zone.Occurs`: when a schedule is due on a date

## Main results

* `Tz.Follows.exists_first`: when a schedule is due on a date
* `BackupSchedule.nextAfter_visits`: the next backup is the next occurrence
-/

namespace Dbx.Backup

open Clock List

/-- A time zone: an offset in minutes and its changes, each by the minute from which on it holds.
Changes are at least two days apart, and shift the clock by less than three hours. -/
structure Zone where
  offset : Int
  changes : List (Int × Int)
  steady : Steady 2880 180 offset changes

/-- The minute that the wall clock shows in a minute. -/
def Zone.clock (zone : Zone) : Int → Int := reading zone.offset zone.changes

/-- The nanoseconds of a minute. -/
def minuteNanos : Int := 60000000000

/-- What the wall clock shows at an instant. -/
def Zone.shown (zone : Zone) (t : Int) : Int :=
  zone.clock (t / minuteNanos) * minuteNanos + t % minuteNanos

/-- The instants that `from_local_datetime` reports. -/
def LocalResult.Are (instants : Set Int) : LocalResult → Prop
  | .none => instants = ∅
  | .single t => instants = {t}
  | .ambiguous first second => first < second ∧ instants = {first, second}

/-- `chrono` knows the time zone. -/
structure Tz.Follows (tz : Tz) (zone : Zone) : Prop where
  date : ∀ t, tz.dateNaive t = zone.shown t / (1440 * minuteNanos)
  instants : ∀ reading, (tz.fromLocalDatetime reading).Are {t | zone.shown t = reading * 1000000000}

/-- The instant at which a backup is due on a date: the earliest one of the first minute that the
wall clock shows at the time of day or behind it. -/
def Zone.Occurs (zone : Zone) (date : Int) (time : Nat) (t : Int) : Prop :=
  ∃ minute : Nat, IsLeast {u | zone.shown u = (date * 1440 + time + minute) * minuteNanos} t ∧
    ∀ skipped < minute, ∀ u, zone.shown u ≠ (date * 1440 + time + skipped) * minuteNanos

/-- The schedule is due on the date. -/
def BackupSchedule.Matches (schedule : BackupSchedule) (date : Int) : Prop :=
  schedule.frequency = "weekly".toList → numDaysFromSunday date = schedule.weekday

/-- The instants behind a given one at which the schedule is due. -/
def BackupSchedule.occurrences (schedule : BackupSchedule) (zone : Zone) (time : Nat)
    (after : Int) : Set Int :=
  {t | after < t ∧ ∃ date, schedule.Matches date ∧ zone.Occurs date time t}

variable {zone : Zone} {tz : Tz} {date minute t : Int} {time : Nat}

open Zone

theorem Zone.shown_eq_iff : zone.shown t = minute * minuteNanos ↔
      ∃ m, t = m * minuteNanos ∧ zone.clock m = minute := by
  unfold shown minuteNanos
  constructor
  · intro h
    exact ⟨t / 60000000000, by omega, by omega⟩
  · rintro ⟨m, rfl, rfl⟩
    rw [Int.mul_ediv_cancel _ (by decide)]
    omega

theorem Zone.Occurs.unique {u : Int} (ht : zone.Occurs date time t) (hu : zone.Occurs date time u) :
    t = u := by
  obtain ⟨minute, hleast, hskipped⟩ := ht
  obtain ⟨minute', hleast', hskipped'⟩ := hu
  rcases Nat.lt_trichotomy minute minute' with hlt | rfl | hlt
  · exact absurd hleast.1 (hskipped' minute hlt t)
  · exact hleast.unique hleast'
  · exact absurd hleast'.1 (hskipped minute' hlt u)

/-- The first of a range that has a value. -/
theorem findSome?_range {β : Type} {f : Nat → Option β} {n k : Nat} {b : β} (hk : k < n)
    (hsome : f k = some b) (hnone : ∀ i < k, f i = none) : (range n).findSome? f = some b := by
  obtain ⟨m, rfl⟩ : ∃ m, n = k + 1 + m := ⟨n - k - 1, by omega⟩
  rw [findSome?_eq_some_iff]
  refine ⟨range k, k, (range m).map (k + 1 + ·), ?_, hsome, by simpa using hnone⟩
  rw [range_add, range_succ]
  simp

theorem LocalResult.Are.earliest_eq_none {result : LocalResult} {instants : Set Int}
    (h : result.Are instants) (hempty : ∀ t, t ∉ instants) : result.earliest = Option.none := by
  cases result with
  | none => rfl
  | single value => exact absurd (h ▸ rfl) (hempty value)
  | ambiguous first second => exact absurd (h.2 ▸ .inl rfl) (hempty first)

theorem LocalResult.Are.earliest_eq_some {result : LocalResult} {instants : Set Int}
    (h : result.Are instants) (hleast : IsLeast instants t) : result.earliest = some t := by
  obtain ⟨hmem, hle⟩ := hleast
  cases result with
  | none => exact absurd hmem (h ▸ id)
  | single value =>
    obtain rfl : instants = {value} := h
    rw [LocalResult.earliest, show t = value from hmem]
  | ambiguous first second =>
    obtain ⟨hlt, rfl⟩ := h
    rcases hmem with rfl | rfl
    · rfl
    · exact absurd (hle (.inl rfl)) (not_le.mpr hlt)

/-- The minute in which the wall clock first shows the time of day on a date, or a later one. -/
structure Zone.First (zone : Zone) (date : Int) (time : Nat) (first : Int) : Prop where
  reached : date * 1440 + time ≤ zone.clock first
  le : ∀ m, date * 1440 + time ≤ zone.clock m → first ≤ m
  close : zone.clock first < date * 1440 + time + 180

/-- **A schedule is due when the wall clock first shows its time or a later one.** -/
theorem Tz.Follows.exists_first (h : tz.Follows zone) (date : Int) (time : Nat) :
    ∃ first, zone.First date time first ∧ zone.Occurs date time (first * minuteNanos) ∧
      tz.occurrence date time = some (first * minuteNanos) := by
  obtain ⟨first, hleast, hclose, hgap⟩ :=
    zone.steady.exists_first (by decide) (by decide) (date * 1440 + time)
  have hfirst : zone.First date time first := ⟨hleast.1, fun m hm => hleast.2 hm, hclose⟩
  have hreached := hfirst.reached
  obtain ⟨minute, hminute⟩ : ∃ minute : Nat, zone.clock first = date * 1440 + time + minute :=
    ⟨(zone.clock first - (date * 1440 + time)).toNat, by omega⟩
  have hearliest : IsLeast {u | zone.shown u = (date * 1440 + time + minute) * minuteNanos}
      (first * minuteNanos) := by
    refine ⟨shown_eq_iff.mpr ⟨first, rfl, hminute⟩, fun u hu => ?_⟩
    obtain ⟨m, rfl, hm⟩ := shown_eq_iff.mp hu
    exact Int.mul_le_mul_of_nonneg_right (hfirst.le m (by omega)) (by decide)
  -- no reading is shown between the time of day and the minute
  have hskipped (skipped : Nat) (hlt : skipped < minute) (u : Int) :
      zone.shown u ≠ (date * 1440 + time + skipped) * minuteNanos := by
    intro hu
    obtain ⟨m, rfl, hm⟩ := shown_eq_iff.mp hu
    have : zone.clock m < date * 1440 + time ∨ zone.clock first ≤ zone.clock m := hgap m
    omega
  refine ⟨first, hfirst, ⟨minute, hearliest, hskipped⟩, ?_⟩
  have hinstants (k : Nat) : (tz.fromLocalDatetime (date * 86400 + (time + k) * 60)).Are
      {u | zone.shown u = (date * 1440 + time + k) * minuteNanos} := by
    have hscale : (date * 86400 + (time + k) * 60) * 1000000000 =
        (date * 1440 + time + k) * minuteNanos := by
      unfold minuteNanos
      omega
    exact hscale ▸ h.instants _
  rw [Tz.occurrence, bind_pure_comp, map_eq_map, findSome?_map]
  refine findSome?_range (k := minute) ?_ ?_ fun k hk => ?_
  · have := hfirst.close
    omega
  · exact (hinstants minute).earliest_eq_some hearliest
  · exact (hinstants k).earliest_eq_none (hskipped k hk)

section Dates

variable {first first' date' after : Int} (h : zone.First date time first)

include h

/-- A later date has a later occurrence. -/
theorem Zone.First.lt (h' : zone.First date' time first') (hlt : date < date') :
    first < first' := by
  have hclose := h.close
  have hreached := h'.reached
  have hle : first ≤ first' := h.le _ (by omega)
  have hne : first ≠ first' := by
    rintro rfl
    omega
  omega

/-- The occurrence on a date that is over is over. -/
theorem Zone.First.le_of_lt (htime : time < 1440)
    (hlt : date < zone.shown after / (1440 * minuteNanos)) : first * minuteNanos ≤ after := by
  have hle : first ≤ after / minuteNanos := by
    refine h.le _ ?_
    unfold shown minuteNanos at hlt
    unfold minuteNanos
    omega
  unfold minuteNanos at hle ⊢
  omega

/-- The occurrence on the day after tomorrow is still to come: the clock does not fall back by a
day. -/
theorem Zone.First.gt_of_le (hle : zone.shown after / (1440 * minuteNanos) + 2 ≤ date) :
    after < first * minuteNanos := by
  by_contra hlt
  have hminute : first ≤ after / minuteNanos := by
    unfold minuteNanos at hlt ⊢
    omega
  have hback : zone.clock first < zone.clock (after / minuteNanos) + 180 :=
    zone.steady.reading_lt (by decide) (by decide) hminute
  have hreached := h.reached
  unfold shown minuteNanos at hle
  unfold minuteNanos at hback
  omega

end Dates

/-- The schedule is due within two weeks, and not only today and tomorrow. -/
theorem BackupSchedule.exists_matches (schedule : BackupSchedule)
    (hweekday : schedule.weekday ≤ 6) (today : Int) :
    ∃ k : Nat, 2 ≤ k ∧ k < 15 ∧ schedule.Matches (today + k) := by
  refine ⟨(2 + (schedule.weekday - today - 6) % 7).toNat, by omega, by omega, fun _ => ?_⟩
  unfold numDaysFromSunday
  omega

section NextAfter

variable {chrono : Chrono} {schedule : BackupSchedule}
  (hfrequency : schedule.frequency = "daily".toList ∨ schedule.frequency = "weekly".toList)
  (hweekday : schedule.weekday ≤ 6) (htz : chrono.parseTz schedule.timeZone = some tz)
  (htime : chrono.parseTime schedule.timeOfDay = some time) (hday : time < 1440)
  (h : tz.Follows zone)

include hfrequency hweekday htz htime hday h

/-- **The next backup is the next occurrence.** -/
theorem BackupSchedule.nextAfter_least (after : Int) :
    ∃ next, schedule.nextAfter chrono after = .ok next ∧
      IsLeast (schedule.occurrences zone time after) next := by
  choose first hfirst hoccurs hoccurrence using fun date => h.exists_first date time
  have hhourly : schedule.frequency ≠ "hourly".toList := by
    rcases hfrequency with heq | heq <;> rw [heq] <;> decide
  obtain ⟨today, htoday⟩ : ∃ today, tz.dateNaive after = today := ⟨_, rfl⟩
  have hshown := (h.date after).symm.trans htoday
  -- a day that matches and is late enough is among the fifteen that the loop tries
  have hexists : ∃ k : Nat, k < 15 ∧ schedule.Matches (today + k) ∧
      after < first (today + k) * minuteNanos := by
    obtain ⟨k, hk, hlt, hmatches⟩ := schedule.exists_matches hweekday today
    exact ⟨k, hlt, hmatches, (hfirst _).gt_of_le (by omega)⟩
  classical
  obtain ⟨hk, hmatches, hlater⟩ := Nat.find_spec hexists
  generalize hfind : Nat.find hexists = k at hk hmatches hlater
  refine ⟨first (today + k) * minuteNanos, ?_, ⟨hlater, _, hmatches, hoccurs _⟩, ?_⟩
  · -- the loop stops at the first such day
    simp only [nextAfter, if_neg hhourly, htz, htime, bind_pure_comp, map_eq_map,
      findSome?_map, htoday]
    rw [findSome?_range hk]
    · rw [Function.comp_apply, if_neg (not_and_not_right.mpr hmatches), hoccurrence]
      simpa using hlater
    · intro i hi
      have hnot := Nat.find_min hexists (hfind ▸ hi)
      rw [Function.comp_apply, hoccurrence]
      split
      · rfl
      · next hmatch =>
        simpa using fun hlt => hnot ⟨by omega, not_and_not_right.mp hmatch, hlt⟩
  · -- any later occurrence is on that day or on one behind it
    rintro t ⟨hafter, date, hdate, hoccurs'⟩
    obtain rfl := hoccurs'.unique (hoccurs date)
    have hge : today ≤ date := by
      by_contra hlt
      exact absurd ((hfirst date).le_of_lt hday (by omega)) (not_le.mpr hafter)
    obtain ⟨i, rfl⟩ : ∃ i : Nat, date = today + i := ⟨(date - today).toNat, by omega⟩
    have hki : k ≤ i := by
      by_contra hlt
      exact Nat.find_min hexists (hfind ▸ not_le.mp hlt) ⟨by omega, hdate, hafter⟩
    rcases hki.eq_or_lt with rfl | hlt
    · rfl
    · have hfirsts := (hfirst (today + k)).lt (hfirst (today + i)) (by omega)
      exact Int.mul_le_mul_of_nonneg_right hfirsts.le (by decide)

/-- **The next backup is the next occurrence**, the least one behind the given instant: there is one
on every date, and going on from one to the next meets each matching date once. -/
theorem BackupSchedule.nextAfter_visits :
    (∀ after, ∃ next, schedule.nextAfter chrono after = .ok next ∧
      IsLeast (schedule.occurrences zone time after) next) ∧
    (∀ date, ∃ t, zone.Occurs date time t) ∧
    ∀ visit : Nat → Int, (∀ n, schedule.nextAfter chrono (visit n) = .ok (visit (n + 1))) →
      ∀ date t, schedule.Matches date → zone.Occurs date time t → visit 0 < t →
        ∃! n, zone.Occurs date time (visit (n + 1)) := by
  have hleast := schedule.nextAfter_least hfrequency hweekday htz htime hday h
  refine ⟨hleast, fun date => ?_, fun visit hvisit date t hmatches hoccurs hlt => ?_⟩
  · obtain ⟨first, -, hoccurs, -⟩ := h.exists_first date time
    exact ⟨_, hoccurs⟩
  have hstep (n : Nat) : IsLeast (schedule.occurrences zone time (visit n)) (visit (n + 1)) := by
    obtain ⟨next, hnext, hleast⟩ := hleast (visit n)
    cases (hvisit n).symm.trans hnext
    exact hleast
  have hmono : StrictMono visit := strictMono_nat_of_lt_succ fun n => (hstep n).1.1
  -- the last visit before the occurrence goes on to it
  have hreach (n : Nat) : visit 0 + n ≤ visit n := by
    induction n with
    | zero => simp
    | succ n ih =>
      have hlater := (hstep n).1.1
      push_cast
      omega
  obtain ⟨n, hbefore, hbehind⟩ : ∃ n, visit n < t ∧ t ≤ visit (n + 1) := by
    by_contra hnone
    have hall (n : Nat) : visit n < t := by
      induction n with
      | zero => exact hlt
      | succ n ih => exact not_le.mp fun hle => hnone ⟨n, ih, hle⟩
    have hfar := hreach (t - visit 0).toNat
    have hnear := hall (t - visit 0).toNat
    omega
  obtain rfl : visit (n + 1) = t :=
    le_antisymm ((hstep n).2 ⟨hbefore, date, hmatches, hoccurs⟩) hbehind
  refine ⟨n, hoccurs, fun m hm => ?_⟩
  simpa using hmono.injective (hm.unique hoccurs)

end NextAfter

/-- A time zone that goes from an hour ahead to two hours, at the 29th of March 2026 at 01:00. -/
def springZone : Zone where
  offset := 60
  changes := [(29579100, 120)]
  steady := by simp [Steady, Ahead]

/-- The time zone, as `chrono` has it. -/
def springTz : Tz where
  dateNaive t := springZone.shown t / (1440 * minuteNanos)
  fromLocalDatetime reading :=
    if reading - 3600 < 1774746000 then .single ((reading - 3600) * 1000000000)
    else if 1774746000 ≤ reading - 7200 then .single ((reading - 7200) * 1000000000)
    else .none

theorem springTz_follows : springTz.Follows springZone where
  date _ := rfl
  instants reading := by
    have hshown (t : Int) : springZone.shown t =
        if t < 1774746000000000000 then t + 3600000000000 else t + 7200000000000 := by
      simp only [shown, clock, springZone, Clock.reading, minuteNanos]
      split <;> split <;> omega
    simp only [hshown, springTz]
    split
    swap
    split
    all_goals
      refine Set.ext fun t => ?_
      simp only [Set.mem_ofPred_eq, Set.mem_singleton_iff, Set.mem_empty_iff_false, iff_false]
      split <;> omega

/-- `chrono` with this time zone. -/
def springChrono : Chrono := { newYearChrono with parseTz := fun _ => some springTz }

/-- A backup of every day at 02:00, which there is not on the day of the change. -/
def daily : BackupSchedule := { hourly with frequency := "daily".toList }

theorem BackupSchedule.nextAfter_visits_spring :
    ∃ next, daily.nextAfter springChrono 1774742400000000000 = .ok next ∧
      IsLeast (daily.occurrences springZone 120 1774742400000000000) next := by
  obtain ⟨hleast, -⟩ := @BackupSchedule.nextAfter_visits springZone springTz 120 springChrono daily
    (.inl rfl) (by decide) rfl (by decide +kernel) (by decide) springTz_follows
  exact hleast _

end Dbx.Backup
