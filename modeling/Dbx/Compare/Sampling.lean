import Mathlib.Order.Lattice.Nat

/-!
# Sampled rows

A sample is the union of several branches, and one row of the table may be in more than one of
them. Each sampled row ends with the marker of its branch. `dedupe_sampled_rows` drops the markers
and keeps as many copies of a row as the branch with the most copies has, in one pass over the rows
as they come. The values are those of JSON, with their equality.

## Main results

* `Counted.push`: what the counters hold, one row after the other
* `count_dedupeSampledRows`: every row is kept as often as the branch with the most copies has it
-/

namespace Dbx.Compare

open List
open Function (update)

variable {V : Type} [DecidableEq V]

/-- The variables of `dedupe_sampled_rows`; an entry that is missing in a map counts nothing. -/
structure Sampled (V : Type) where
  counts : List V → (V → Nat) × Nat := fun _ => (fun _ => 0, 0)
  sampledRows : List (List V) := []

variable (samples : List (List V × V)) (s : Sampled V)

/-- The pass over one row. A row without a marker is kept as it is. -/
def Sampled.push (row : List V) : Sampled V :=
  match row.getLast? with
  | none => { s with sampledRows := s.sampledRows ++ [row] }
  | some branch =>
    let row := row.dropLast
    let (branchCounts, retainedCount) := s.counts row
    let branchCount := branchCounts branch + 1
    let branchCounts := update branchCounts branch branchCount
    if branchCount > retainedCount then
      ⟨update s.counts row (branchCounts, branchCount), s.sampledRows ++ [row]⟩
    else { s with counts := update s.counts row (branchCounts, retainedCount) }

/-- `dedupe_sampled_rows`. -/
def dedupeSampledRows (rows : List (List V)) : List (List V) :=
  (rows.foldl Sampled.push {}).sampledRows

/-- A row as it is fetched, with the marker of its branch behind it. -/
def markedRow (sample : List V × V) : List V := sample.1 ++ [sample.2]

/-- The number of copies of a row in the branch that has the most of them. -/
def mostInBranch (row : List V) : Nat :=
  (samples.map Prod.snd).toFinset.sup fun branch => samples.count (row, branch)

/-- What the variables hold after some rows. -/
structure Counted : Prop where
  branch : ∀ row branch, (s.counts row).1 branch = samples.count (row, branch)
  retained : ∀ row, (s.counts row).2 = mostInBranch samples row
  kept : ∀ row, s.sampledRows.count row = mostInBranch samples row

variable {samples : List (List V × V)}

theorem mostInBranch_le_iff {row : List V} {n : Nat} :
    mostInBranch samples row ≤ n ↔ ∀ branch, samples.count (row, branch) ≤ n := by
  rw [mostInBranch, Finset.sup_le_iff]
  refine ⟨fun h branch => ?_, fun h branch _ => h branch⟩
  -- a branch without a row has no copy of this one
  by_cases hmem : (row, branch) ∈ samples
  · exact h branch (List.mem_toFinset.mpr (mem_map_of_mem hmem))
  · rw [count_eq_zero_of_not_mem hmem]
    exact Nat.zero_le n

/-- One more copy of a row counts for its branch. -/
theorem mostInBranch_concat (sample : List V × V) (row : List V) :
    mostInBranch (samples ++ [sample]) row =
      if row = sample.1 then max (mostInBranch samples row) (samples.count sample + 1)
      else mostInBranch samples row := by
  refine eq_of_forall_ge_iff fun n => ?_
  split
  · rename_i hrow
    subst hrow
    simp only [max_le_iff, mostInBranch_le_iff, count_append, count_singleton]
    constructor
    · intro h
      exact ⟨fun branch => le_trans (Nat.le_add_right _ _) (h branch), by simpa using h sample.2⟩
    · rintro ⟨hall, hone⟩ branch
      split
      · rename_i heq
        rwa [← eq_of_beq heq]
      · exact hall branch
  · rename_i hrow
    have hne : ∀ branch, (row, branch) ≠ sample := fun branch heq => hrow (heq ▸ rfl)
    simp [mostInBranch_le_iff, count_append, (hne _).symm]

/-- The pass over a row with a marker. -/
theorem Sampled.push_markedRow (row : List V) (branch : V) :
    s.push (markedRow (row, branch)) =
      { counts := update s.counts row
          (update (s.counts row).1 branch ((s.counts row).1 branch + 1),
            max (s.counts row).2 ((s.counts row).1 branch + 1))
        sampledRows := s.sampledRows ++
          if (s.counts row).2 < (s.counts row).1 branch + 1 then [row] else [] } := by
  simp only [push, markedRow, getLast?_concat, dropLast_concat]
  split
  · rename_i hmore
    rw [max_eq_right (le_of_lt hmore)]
  · rename_i hmore
    rw [max_eq_left (not_lt.mp hmore), append_nil]

/-- A row keeps the counters right. -/
theorem Counted.push {s : Sampled V} (h : Counted samples s)
    (sample : List V × V) : Counted (samples ++ [sample]) (s.push (markedRow sample)) := by
  obtain ⟨row, branch⟩ := sample
  rw [Sampled.push_markedRow, h.branch, h.retained]
  constructor
  · intro other marker
    by_cases hrow : other = row
    · subst hrow
      by_cases hmarker : marker = branch
      · simp [hmarker]
      · simp [hmarker, h.branch, Ne.symm hmarker]
    · simp [hrow, h.branch, Ne.symm hrow]
  · intro other
    rw [mostInBranch_concat]
    by_cases hrow : other = row
    · subst hrow
      simp
    · simp [hrow, h.retained]
  · intro other
    rw [mostInBranch_concat, count_append, h.kept]
    by_cases hrow : other = row
    · subst hrow
      -- the branch had no more copies than were kept, so it has at most one more now
      have hle : samples.count (other, branch) ≤ mostInBranch samples other :=
        mostInBranch_le_iff.mp le_rfl branch
      rw [if_pos rfl]
      split
      · rw [count_singleton_self]
        omega
      · rw [count_nil]
        omega
    · split
      · simp [Ne.symm hrow]
      · rfl

/-- **Real duplicates are kept.** However the rows of the branches are mixed, each row is kept as
often as the branch with the most copies of it has it. -/
theorem count_dedupeSampledRows (samples : List (List V × V)) (row : List V) :
    (dedupeSampledRows (samples.map markedRow)).count row = mostInBranch samples row := by
  have hrun : ∀ (rest done : List (List V × V)) (s : Sampled V), Counted done s →
      Counted (done ++ rest) ((rest.map markedRow).foldl Sampled.push s) := by
    intro rest
    induction rest with
    | nil => simp
    | cons sample rest ih =>
      intro done s h
      simpa using ih (done ++ [sample]) _ (h.push sample)
  exact (hrun samples [] {} ⟨fun _ _ => rfl, fun _ => rfl, fun _ => rfl⟩).kept row

end Dbx.Compare
