import Mathlib.Algebra.Order.Group.Int
import Mathlib.Order.Bounds.Basic

/-!
# Wall clocks

A wall clock is ahead of the time by an offset that changes now and then, so that it skips readings
or shows them twice. Where the changes are small and far apart, it never falls back far, and there
is a first time at which it shows a reading or a later one.

## Main definitions

* `reading`: what a wall clock shows
* `Steady`: small changes that are far apart

## Main results

* `Steady.reading_lt`: a wall clock never falls back far
* `Steady.exists_first`: the first time at which it shows a reading or a later one
-/

namespace Dbx.Clock

/-- What a wall clock shows that is ahead by an offset, up to changes of it. -/
def reading (offset : Int) : List (Int × Int) → Int → Int
  | [], t => t + offset
  | (start, next) :: changes, t => if t < start then t + offset else reading next changes t

/-- The next change is far away. -/
def Ahead (apart t : Int) (changes : List (Int × Int)) : Prop :=
  ∀ change ∈ changes.head?, t + apart ≤ change.1

/-- Each change is a small one, and far from the next one. -/
def Steady (apart shift offset : Int) : List (Int × Int) → Prop
  | [] => True
  | (start, next) :: changes => (next < offset + shift ∧ offset < next + shift) ∧
      Ahead apart start changes ∧ Steady apart shift next changes

variable {apart shift offset s t : Int} {changes : List (Int × Int)}

theorem reading_of_ahead (hpos : 0 < apart) (h : Ahead apart t changes) :
    reading offset changes t = t + offset := by
  cases changes with
  | nil => rfl
  | cons change changes =>
    have hfar := h change rfl
    exact if_pos (by omega)

section Steady

variable (hshift : 0 < shift) (happart : shift ≤ apart)

include happart in
/-- From a time far from the next change on, the clock does not fall behind its reading. -/
theorem Steady.le_reading (h : Steady apart shift offset changes) (hahead : Ahead apart s changes)
    (hle : s ≤ t) : s + offset ≤ reading offset changes t := by
  induction changes generalizing offset s with
  | nil => exact Int.add_le_add_right hle offset
  | cons change changes ih =>
    obtain ⟨start, next⟩ := change
    obtain ⟨hsmall, hnext, hlater⟩ := h
    have hfar : s + apart ≤ start := hahead _ rfl
    rw [reading]
    split
    · omega
    next hstart =>
    -- the clock falls back by less than it has gone on
    have hread := ih hlater hnext (Int.not_lt.mp hstart)
    omega

include hshift happart

/-- **A wall clock never falls back far.** -/
theorem Steady.reading_lt (h : Steady apart shift offset changes) (hle : s ≤ t) :
    reading offset changes s < reading offset changes t + shift := by
  induction changes generalizing offset with
  | nil =>
    simp only [reading]
    omega
  | cons change changes ih =>
    obtain ⟨hsmall, hnext, hlater⟩ := h
    simp only [reading]
    split
    · split
      · omega
      · next hstart =>
        have hread := hlater.le_reading happart hnext (Int.not_lt.mp hstart)
        omega
    · rw [if_neg (by omega)]
      exact ih hlater

/-- **The first time at which a wall clock shows a reading or a later one.** It is not much later,
and what is between the two is never shown. -/
theorem Steady.exists_first (h : Steady apart shift offset changes) (wanted : Int) :
    ∃ first, IsLeast {t | wanted ≤ reading offset changes t} first ∧
      reading offset changes first < wanted + shift ∧
      ∀ t, reading offset changes t < wanted ∨
        reading offset changes first ≤ reading offset changes t := by
  induction changes generalizing offset with
  | nil =>
    have hread : reading offset [] (wanted - offset) = wanted := Int.sub_add_cancel _ _
    refine ⟨wanted - offset, ⟨hread.ge, fun t (ht : wanted ≤ t + offset) => ?_⟩, ?_, fun t => ?_⟩
    all_goals omega
  | cons change changes ih =>
    obtain ⟨start, next⟩ := change
    obtain ⟨hsmall, hnext, hlater⟩ := h
    by_cases hbefore : wanted - offset < start
    · -- the reading is shown before the change
      have hread : reading offset ((start, next) :: changes) (wanted - offset) = wanted := by
        rw [reading]
        omega
      refine ⟨wanted - offset, ⟨hread.ge, fun t (ht : wanted ≤ _) => ?_⟩, by omega,
        fun t => by omega⟩
      rw [reading] at ht
      split at ht <;> omega
    -- before the change an earlier reading is shown
    have hearly (t : Int) (ht : t < start) :
        reading offset ((start, next) :: changes) t < wanted := by
      rw [reading]
      omega
    have hlate (t : Int) (ht : start ≤ t) :
        reading offset ((start, next) :: changes) t = reading next changes t :=
      if_neg (by omega)
    by_cases hskip : wanted ≤ start + next
    · -- the change skips the reading
      have hstart : reading offset ((start, next) :: changes) start = start + next :=
        (hlate start le_rfl).trans (reading_of_ahead (by omega) hnext)
      refine ⟨start, ⟨hskip.trans hstart.ge, fun t ht => ?_⟩, by omega, fun t => ?_⟩
      · by_contra hlt
        exact absurd ht (not_le.mpr (hearly t (by omega)))
      · by_cases ht : t < start
        · exact .inl (hearly t ht)
        · rw [hstart, hlate t (by omega)]
          exact .inr (hlater.le_reading happart hnext (by omega))
    · obtain ⟨first, ⟨hreach, hleast⟩, hclose, hgap⟩ := ih hlater
      have hfirst : start ≤ first := by
        by_contra hlt
        have hahead : Ahead apart first changes := fun change hchange => by
          have := hnext change hchange
          omega
        have hreach : wanted ≤ reading next changes first := hreach
        rw [reading_of_ahead (by omega) hahead] at hreach
        omega
      refine ⟨first, ⟨?_, fun t ht => ?_⟩, ?_, fun t => ?_⟩
      · exact hreach.trans (hlate first hfirst).ge
      · by_cases hlt : t < start
        · exact absurd ht (not_le.mpr (hearly t hlt))
        · exact hleast (ht.trans (hlate t (by omega)).le)
      · rwa [hlate first hfirst]
      · by_cases hlt : t < start
        · exact .inl (hearly t hlt)
        · rw [hlate first hfirst, hlate t (by omega)]
          exact hgap t

end Steady

end Dbx.Clock
