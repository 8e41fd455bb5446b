import Mathlib.Data.Finset.Card
import Mathlib.Data.List.Sort
import Mathlib.Logic.Relation

/-!
# Moving columns

The draft of a table may have its columns in another order. The planner keeps a longest subsequence
of the existing columns whose original positions increase, and moves the others.

## Main results

* `longestIncreasingSubsequenceIndices_longest`: the loops find a longest subsequence
* `plannedExistingColumnMoveIds_minimal`: no way to the order of the draft moves fewer columns
-/

namespace Dbx.Structure

open List
open Function (update update_apply)

/-- The arrays of `longest_increasing_subsequence_indices`. -/
structure Lis where
  lengths : Nat → Nat := fun _ => 1
  previous : Nat → Option Nat := fun _ => none
  bestEndIndex : Nat := 0

section Lis

variable (values : List Nat)

/-- The value at an index is less than the one at another. -/
def Below (previous current : Nat) : Prop := values.getD previous 0 < values.getD current 0

instance (previous current : Nat) : Decidable (Below values previous current) := by
  unfold Below
  infer_instance

namespace Lis

/-- The inner loop. -/
def relax (current : Nat) (s : Lis) (previous : Nat) : Lis :=
  if Below values previous current ∧ s.lengths current < s.lengths previous + 1 then
    { s with
      lengths := update s.lengths current (s.lengths previous + 1)
      previous := update s.previous current (some previous) }
  else s

/-- The outer loop. -/
def visit (s : Lis) (current : Nat) : Lis :=
  let s := (range current).foldl (relax values current) s
  if s.lengths s.bestEndIndex < s.lengths current then { s with bestEndIndex := current } else s

/-- The chain of the predecessors. -/
def chain (s : Lis) : Nat → Option Nat → List Nat
  | fuel + 1, some index => index :: chain s fuel (s.previous index)
  | _, _ => []

end Lis

/-- `longest_increasing_subsequence_indices`. -/
def longestIncreasingSubsequenceIndices : List Nat :=
  if values.isEmpty then []
  else
    let s := (range values.length).foldl (Lis.visit values) {}
    (s.chain values.length (some s.bestEndIndex)).reverse

/-- The indices of an increasing subsequence, of which none is longer. -/
structure Longest (indices : List Nat) : Prop where
  increasing : indices.Pairwise fun i j => i < j ∧ Below values i j
  bounded : ∀ i ∈ indices, i < values.length
  maximal : ∀ sub, sub <+ values → sub.Pairwise (· < ·) → sub.length ≤ indices.length

end Lis

/-- The parts of `EditableStructureColumn` that the planner reads. -/
structure EditableStructureColumn (O : Type) where
  id : String
  original : Option O
  originalPosition : Option Nat

section Planned

variable {O : Type} (columns : List (EditableStructureColumn O))

/-- `reorderable_columns`. -/
def reorderableColumns : List (String × Nat) :=
  columns.filterMap fun column => column.original.bind fun _ =>
    column.originalPosition.map fun position => (column.id, position)

/-- `original_positions`. -/
def originalPositions : List Nat := (reorderableColumns columns).map (·.2)

/-- `kept_indices`. -/
def keptIndices : List Nat := longestIncreasingSubsequenceIndices (originalPositions columns)

/-- `planned_existing_column_move_ids`. -/
def plannedExistingColumnMoveIds : List String :=
  if (reorderableColumns columns).length < 2 then []
  else ((reorderableColumns columns).zipIdx.filter (·.2 ∉ keptIndices columns)).map (·.1.1)

end Planned

/-! ## The subsequence -/

namespace Lis

variable {values : List Nat} {s : Lis} {n m : Nat}

/-- What the loops have established, when `m` predecessors of the index `n` are looked at. -/
structure Inv (values : List Nat) (n m : Nat) (s : Lis) : Prop where
  first : ∀ i, s.previous i = none → s.lengths i = 1
  linked : ∀ i p, s.previous i = some p →
    i ≤ n ∧ p < i ∧ Below values p i ∧ s.lengths i = s.lengths p + 1
  longest : ∀ i p, p < i → Below values p i → i < n ∨ i = n ∧ p < m → s.lengths p < s.lengths i
  bounded : s.bestEndIndex ≤ n - 1
  best : ∀ i < n, s.lengths i ≤ s.lengths s.bestEndIndex

theorem Inv.relax (h : Inv values n m s) (hm : m < n) :
    Inv values n (m + 1) (s.relax values n m) := by
  obtain ⟨hfirst, hlinked, hlongest, hbounded, hbest⟩ := h
  unfold Lis.relax
  split
  · constructor <;> simp only [update_apply] <;> grind
  · constructor <;> grind

theorem Inv.visit (h : Inv values n 0 s) : Inv values (n + 1) 0 (s.visit values n) := by
  have hrelaxed : ∀ m ≤ n, Inv values n m ((range m).foldl (Lis.relax values n) s) := by
    intro m hm
    induction m with
    | zero => exact h
    | succ m ih =>
      rw [range_succ, foldl_append]
      exact (ih (by omega)).relax (by omega)
  obtain ⟨hfirst, hlinked, hlongest, hbounded, hbest⟩ := hrelaxed n le_rfl
  clear hrelaxed
  unfold Lis.visit
  generalize (range n).foldl (Lis.relax values n) s = s at *
  simp only
  split <;> constructor <;> grind

theorem inv_visited (values : List Nat) (n : Nat) :
    Inv values n 0 ((range n).foldl (Lis.visit values) {}) := by
  induction n with
  | zero => constructor <;> grind
  | succ n ih =>
    rw [range_succ, foldl_append]
    exact ih.visit

/-- The chain of the predecessors is as long as was counted. -/
theorem Inv.chain (h : Inv values n m s) {fuel i : Nat} (hi : i < fuel) :
    (s.chain fuel (some i)).length = s.lengths i ∧
      (s.chain fuel (some i)).Pairwise (fun i p => p < i ∧ Below values p i) ∧
      ∀ p ∈ s.chain fuel (some i), p = i ∨ p < i ∧ Below values p i := by
  induction fuel generalizing i with
  | zero => omega
  | succ fuel ih =>
    rw [Lis.chain]
    cases hprevious : s.previous i with
    | none =>
      rw [h.first i hprevious]
      cases fuel <;> simp [Lis.chain]
    | some p =>
      obtain ⟨-, hp, hbelow, hlength⟩ := h.linked i p hprevious
      obtain ⟨hchain, hpairwise, hmem⟩ := ih (i := p) (by omega)
      have hall : ∀ q ∈ s.chain fuel (some p), q < i ∧ Below values q i := by
        intro q hq
        rcases hmem q hq with rfl | ⟨hlt, hbelow'⟩
        · exact ⟨hp, hbelow⟩
        · exact ⟨hlt.trans hp, Nat.lt_trans hbelow' hbelow⟩
      refine ⟨by rw [length_cons, hchain, hlength], pairwise_cons.mpr ⟨hall, hpairwise⟩, ?_⟩
      exact forall_mem_cons.mpr ⟨.inl rfl, fun q hq => .inr (hall q hq)⟩

/-- No increasing subsequence is longer than the best one. -/
theorem Inv.length_le (h : Inv values n 0 s) {i : Nat} {indices : List Nat}
    (hn : ∀ j ∈ i :: indices, j < n)
    (hindices : (i :: indices).Pairwise fun i j => i < j ∧ Below values i j) :
    s.lengths i + indices.length ≤ s.lengths s.bestEndIndex := by
  induction indices generalizing i with
  | nil => exact h.best i (hn i mem_cons_self)
  | cons j indices ih =>
    obtain ⟨hfirst, hindices⟩ := pairwise_cons.mp hindices
    obtain ⟨hj, hbelow⟩ := hfirst j mem_cons_self
    have hlt := h.longest j i hj hbelow (.inl (hn j (by simp)))
    have hle := ih (fun k hk => hn k (mem_cons_of_mem _ hk)) hindices
    rw [length_cons]
    omega

theorem Inv.pos (h : Inv values n m s) (i : Nat) : 0 < s.lengths i := by
  cases hprevious : s.previous i with
  | none => simp [h.first i hprevious]
  | some p => simp [(h.linked i p hprevious).2.2.2]

end Lis

/-- **The loops find a longest increasing subsequence.** -/
theorem longestIncreasingSubsequenceIndices_longest (values : List Nat) :
    Longest values (longestIncreasingSubsequenceIndices values) := by
  unfold longestIncreasingSubsequenceIndices
  split
  · next hempty =>
    rw [isEmpty_iff.mp hempty]
    constructor <;> simp
  next hempty =>
  have hinv := Lis.inv_visited values values.length
  simp only
  generalize (range values.length).foldl (Lis.visit values) {} = s at hinv ⊢
  have hpos := length_pos_iff.mpr (mt isEmpty_iff.mpr hempty)
  have hbounded := hinv.bounded
  -- the chain from the best index is as long as any increasing subsequence
  obtain ⟨hlength, hpairwise, hmem⟩ :=
    hinv.chain (show s.bestEndIndex < values.length by omega)
  refine ⟨pairwise_reverse.mpr hpairwise, fun i hi => ?_, fun sub hsub hsorted => ?_⟩
  · rcases hmem i (mem_reverse.mp hi) with rfl | ⟨hlt, -⟩ <;> omega
  · obtain ⟨indices, rfl, hindices⟩ := sublist_eq_map_getElem hsub
    rw [length_reverse, hlength, length_map]
    cases indices with
    | nil => exact Nat.zero_le _
    | cons i indices =>
      have hall : ∀ j ∈ i.val :: indices.map Fin.val, j < values.length := by simp
      have hle := hinv.length_le hall ?_
      · have hone := hinv.pos i
        rw [length_map] at hle
        rw [length_cons]
        omega
      · rw [← map_cons (f := Fin.val), pairwise_map]
        refine (hindices.and (pairwise_map.mp hsorted)).imp fun ⟨hlt, hbelow⟩ => ⟨hlt, ?_⟩
        simpa [Below] using hbelow

/-! ## The moves -/

/-- Columns are moved one at a time, each to any place. -/
def Moves {C : Type} (moved : Finset C) : List C → List C → Prop :=
  Relation.ReflTransGen fun before after => ∃ c ∈ moved, ∃ a b a' b',
    before = a ++ c :: b ∧ after = a' ++ c :: b' ∧ a ++ b = a' ++ b'

section Moves

variable {C : Type} {moved : Finset C} {before after : List C}

theorem Moves.cons (h : Moves moved before after) (c : C) :
    Moves moved (c :: before) (c :: after) := by
  induction h with
  | refl => exact .refl
  | tail _ hstep ih =>
    obtain ⟨d, hd, a, b, a', b', rfl, rfl, heq⟩ := hstep
    exact ih.tail ⟨d, hd, c :: a, b, c :: a', b', rfl, rfl, congrArg (c :: ·) heq⟩

/-- Moved columns that stand before a column pass it one by one. -/
theorem moves_pass {passed : List C} (hpassed : ∀ d ∈ passed, d ∈ moved) (c : C) (rest : List C) :
    Moves moved (passed ++ c :: rest) (c :: (passed ++ rest)) := by
  induction passed with
  | nil => exact .refl
  | cons d passed ih =>
    obtain ⟨hd, hpassed⟩ := forall_mem_cons.mp hpassed
    exact ((ih hpassed).cons d).tail ⟨d, hd, [], _, [c], _, rfl, rfl, rfl⟩

variable [DecidableEq C]

/-- **What moves can do**: every order in which the other columns stand as before. -/
theorem moves_iff : Moves moved before after ↔
    before.Perm after ∧ before.filter (· ∉ moved) = after.filter (· ∉ moved) := by
  constructor
  · intro h
    induction h with
    | refl => exact ⟨.refl _, rfl⟩
    | tail _ hstep ih =>
      obtain ⟨c, hc, a, b, a', b', rfl, rfl, heq⟩ := hstep
      have hperm : (a ++ c :: b).Perm (a' ++ c :: b') :=
        perm_middle.trans ((heq ▸ .refl _ : (c :: (a ++ b)).Perm (c :: (a' ++ b'))).trans
          perm_middle.symm)
      have hfilter := congrArg (List.filter (· ∉ moved)) heq
      refine ⟨ih.1.trans hperm, ih.2.trans ?_⟩
      simpa [hc] using hfilter
  · -- the new order is built from its front
    rintro ⟨hperm, hfilter⟩
    induction after generalizing before with
    | nil => exact hperm.eq_nil ▸ .refl
    | cons c after ih =>
      by_cases hc : c ∈ moved
      · obtain ⟨a, b, rfl⟩ := append_of_mem (hperm.mem_iff.mpr mem_cons_self)
        have hrest : Moves moved (a ++ b) after :=
          ih (perm_middle.symm.trans hperm).cons_inv (by simpa [hc] using hfilter)
        exact .head ⟨c, hc, a, b, [], a ++ b, rfl, rfl, rfl⟩ (hrest.cons c)
      · rw [filter_cons_of_pos (by simpa using hc)] at hfilter
        obtain ⟨passed, rest, rfl, hpassed, -, hrest⟩ := filter_eq_cons_iff.mp hfilter
        have hmoved : ∀ d ∈ passed, d ∈ moved := by simpa using hpassed
        have hnone : passed.filter (· ∉ moved) = [] := by simpa using hmoved
        have hmoves : Moves moved (passed ++ rest) after :=
          ih (perm_middle.symm.trans hperm).cons_inv
            (by rw [filter_append, hnone, hrest, nil_append])
        exact (moves_pass hmoved c rest).trans (hmoves.cons c)

end Moves

section Plan

variable {columns : List (String × Nat)} {indices : List Nat}

/-- The columns whose indices are not among the given ones. -/
def outside (columns : List (String × Nat)) (indices : List Nat) : Finset (String × Nat) :=
  ((columns.zipIdx.filter (·.2 ∉ indices)).map (·.1)).toFinset

theorem mem_outside {column : String × Nat} :
    column ∈ outside columns indices ↔ ∃ i ∉ indices, columns[i]? = some column := by
  simp [outside, mem_zipIdx_iff_getElem?, and_comm]

theorem Longest.below {values : List Nat} {i j : Nat} (h : Longest values indices)
    (hi : i ∈ indices) (hj : j ∈ indices) (hlt : i < j) : Below values i j := by
  obtain ⟨a, ha, rfl⟩ := getElem_of_mem hi
  obtain ⟨b, hb, rfl⟩ := getElem_of_mem hj
  have hpairwise := pairwise_iff_getElem.mp h.increasing
  rcases lt_trichotomy a b with hab | rfl | hba
  · exact (hpairwise a b ha hb hab).2
  · exact absurd hlt (lt_irrefl _)
  · exact absurd hlt (hpairwise b a hb ha hba).1.asymm

/-- What is kept is in its original order. -/
theorem Longest.pairwise_kept (h : Longest (columns.map (·.2)) indices) :
    (columns.filter (· ∉ outside columns indices)).Pairwise fun c d => c.2 ≤ d.2 := by
  have hmem (i : Nat) (hi : i < columns.length)
      (hkept : decide (columns[i] ∉ outside columns indices) = true) : i ∈ indices := by
    by_contra hout
    exact of_decide_eq_true hkept (mem_outside.mpr ⟨i, hout, getElem?_eq_getElem hi⟩)
  rw [pairwise_filter, pairwise_iff_getElem]
  intro i j hi hj hlt hkept hkept'
  have hbelow := h.below (hmem i hi hkept) (hmem j hj hkept') hlt
  exact le_of_lt (by simpa [Below, hi, hj] using hbelow)

/-- As many columns are outside as the subsequence leaves. -/
theorem Longest.card_outside (h : Longest (columns.map (·.2)) indices) :
    (outside columns indices).card + indices.length ≤ columns.length := by
  have hcard : (outside columns indices).card ≤ (columns.zipIdx.filter (·.2 ∉ indices)).length := by
    simpa [outside] using toFinset_card_le ((columns.zipIdx.filter (·.2 ∉ indices)).map (·.1))
  have hnodup : indices.Nodup := h.increasing.imp fun hij => hij.1.ne
  have hsubset : indices ⊆ (columns.zipIdx.filter (·.2 ∈ indices)).map (·.2) := by
    intro i hi
    have hbound : i < columns.length := by simpa using h.bounded i hi
    refine mem_map.mpr ⟨(columns[i], i), mem_filter.mpr ⟨?_, by simpa using hi⟩, rfl⟩
    exact mem_zipIdx_iff_getElem?.mpr (getElem?_eq_getElem hbound)
  have hle := (hnodup.subperm hsubset).length_le
  have hsplit := length_eq_length_filter_add (l := columns.zipIdx) (·.2 ∈ indices)
  rw [length_map] at hle
  simp only [decide_not, length_zipIdx] at hcard hsplit
  omega

/-- The columns outside the subsequence are enough to be moved. -/
theorem Longest.moves_outside (h : Longest (columns.map (·.2)) indices)
    (hdistinct : (columns.map (·.2)).Nodup) :
    Moves (outside columns indices) (columns.insertionSort (·.2 ≤ ·.2)) columns := by
  have hperm := perm_insertionSort (fun c d : String × Nat => c.2 ≤ d.2) columns
  have hsorted := pairwise_insertionSort (fun c d : String × Nat => c.2 ≤ d.2) columns
  refine moves_iff.mpr ⟨hperm, Perm.eq_of_pairwise ?_ (hsorted.sublist filter_sublist)
    h.pairwise_kept (hperm.filter _)⟩
  intro c d hc hd hle hge
  exact inj_on_of_nodup_map hdistinct (hperm.mem_iff.mp (mem_filter.mp hc).1) (mem_filter.mp hd).1
    (le_antisymm hle hge)

/-- The columns that are not moved are an increasing subsequence. -/
theorem Longest.length_le {moved : Finset (String × Nat)} (h : Longest (columns.map (·.2)) indices)
    (hmoves : Moves moved (columns.insertionSort (·.2 ≤ ·.2)) columns)
    (hdistinct : (columns.map (·.2)).Nodup) : columns.length ≤ indices.length + moved.card := by
  have hsorted : (columns.filter (· ∉ moved)).Pairwise fun c d => c.2 ≤ d.2 := by
    rw [← (moves_iff.mp hmoves).2]
    exact (pairwise_insertionSort (fun c d : String × Nat => c.2 ≤ d.2) columns).sublist
      filter_sublist
  have hstay := (filter_sublist (p := (· ∉ moved)) (l := columns)).map Prod.snd
  have hincreasing : ((columns.filter (· ∉ moved)).map Prod.snd).Pairwise (· < ·) :=
    pairwise_map.mpr ((hsorted.and (pairwise_map.mp (hdistinct.sublist hstay))).imp
      fun h => lt_of_le_of_ne h.1 h.2)
  have hle := h.maximal _ hstay hincreasing
  have hmoved : (columns.filter (· ∈ moved)).length ≤ moved.card := by
    rw [← toFinset_card_of_nodup ((Nodup.of_map _ hdistinct).filter _)]
    exact Finset.card_le_card fun c hc => by simpa using (mem_filter.mp (mem_toFinset.mp hc)).2
  have hsplit := length_eq_length_filter_add (l := columns) (· ∈ moved)
  rw [length_map] at hle
  simp only [decide_not] at hle hsplit
  omega

end Plan

variable {O : Type}

/-- **The plan moves as few columns as any.** What is kept is a longest increasing subsequence by
the original positions, the columns outside it are planned to be moved, moving them is enough to
come from the original order to the draft, and no smaller set of columns is. -/
theorem plannedExistingColumnMoveIds_minimal (columns : List (EditableStructureColumn O))
    (hdistinct : (originalPositions columns).Nodup) :
    let draft := reorderableColumns columns
    let original := draft.insertionSort (·.2 ≤ ·.2)
    let planned := outside draft (keptIndices columns)
    Longest (originalPositions columns) (keptIndices columns) ∧
      (∀ id, id ∈ plannedExistingColumnMoveIds columns ↔ ∃ position, (id, position) ∈ planned) ∧
      Moves planned original draft ∧
      ∀ moved, Moves moved original draft → planned.card ≤ moved.card := by
  intro draft original planned
  have hlongest : Longest (draft.map (·.2)) (keptIndices columns) :=
    longestIncreasingSubsequenceIndices_longest _
  have hcard : planned.card + (keptIndices columns).length ≤ draft.length := hlongest.card_outside
  refine ⟨hlongest, fun id => ?_, hlongest.moves_outside hdistinct, fun moved hmoves => ?_⟩
  · unfold plannedExistingColumnMoveIds
    split
    · next hfew =>
      -- a single column is kept
      have hpairwise : (draft.map (·.2)).Pairwise (· < ·) := by
        refine pairwise_iff_getElem.mpr fun i j hi hj hlt => ?_
        have hlength : draft.length < 2 := hfew
        rw [length_map] at hj
        omega
      have hall := hlongest.maximal _ (.refl _) hpairwise
      rw [length_map] at hall
      have hnone : planned = ∅ := Finset.card_eq_zero.mp (by omega)
      simp [hnone]
    · simp [planned, outside, draft]
  · have hle := hlongest.length_le hmoves hdistinct
    omega

theorem plannedExistingColumnMoveIds_minimal_swap :
    let draft := [("b", 1), ("a", 0), ("c", 2)]
    plannedExistingColumnMoveIds [⟨"b", some (), some 1⟩, ⟨"new", none, none⟩,
        ⟨"a", some (), some 0⟩, ⟨"c", some (), some 2⟩] = ["a"] ∧
      Moves {("a", 0)} [("a", 0), ("b", 1), ("c", 2)] draft ∧
      ∀ moved, Moves moved [("a", 0), ("b", 1), ("c", 2)] draft → 1 ≤ moved.card :=
  ⟨by decide, (plannedExistingColumnMoveIds_minimal [⟨"b", some (), some 1⟩, ⟨"new", none, none⟩,
      ⟨"a", some (), some 0⟩, ⟨"c", some (), some 2⟩] (by decide)).2.2⟩

end Dbx.Structure
