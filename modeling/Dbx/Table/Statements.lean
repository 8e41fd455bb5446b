import Mathlib.Data.List.Nodup

/-!
# Sequences of statements with one target each

A table is a list of rows with identities. A statement selects rows by their contents, and edits
or deletes the rows it selects. A sequence of statements in which every statement is meant for one
row hits its targets when each selects that row and nothing else, in the table that the statements
before it have left.

Selecting at most one row in the table before the sequence is not enough for that, since an edited
row may be selected by a later statement. It is enough together with the presence of the targets
and the absence of such interference.

## Main definitions

* `and3`: conjunction in the three-valued logic of conditions
* `Statement`, `Statement.affected`, `Statement.run`: statements and their execution
* `affectedAll`, `runAll`: the rows that each statement of a sequence affects, and the table after
  the sequence
* `HitsTargets`: every statement of a sequence affects its target only
* `applyAll`: the table with every edit applied to its target

## Main results

* `hitsTargets_iff`: when statements that each select at most one row hit their targets
* `runAll_eq_applyAll`: a sequence that hits its targets applies every edit to its target and
  changes nothing else
-/

namespace Dbx.Table

open List

/-! ## Conditions -/

/-- Conjunction of truth values, where `none` is unknown. -/
def and3 : Option Bool → Option Bool → Option Bool
  | some true, b => b
  | some false, _ => some false
  | none, some false => some false
  | none, _ => none

theorem and3_eq_true {a b : Option Bool} :
    and3 a b = some true ↔ a = some true ∧ b = some true := by
  rcases a with _ | _ | _ <;> rcases b with _ | _ | _ <;> simp [and3]

/-- A conjunction is true when every part of it is. -/
theorem foldr_and3_eq_true {β : Type} {truth : β → Option Bool} {parts : List β} :
    parts.foldr (fun part => and3 (truth part)) (some true) = some true ↔
      ∀ part ∈ parts, truth part = some true := by
  induction parts with
  | nil => simp
  | cons part parts ih => rw [foldr_cons, and3_eq_true, ih, forall_mem_cons]

/-! ## Statements -/

/-- A statement: the contents it selects, and what it makes of a selected row, `none` where it
deletes the row. -/
structure Statement (ρ α : Type) where
  selects : α → Bool
  edit : ρ → α → Option α

variable {ρ α : Type} {t : List (ρ × α)} {s q : Statement ρ α} {o : ρ}

open Prod

/-- The identities of the rows a statement selects. -/
def Statement.affected (s : Statement ρ α) (t : List (ρ × α)) : List ρ :=
  (t.filter fun row => s.selects row.2).map fst

def Statement.runRow (s : Statement ρ α) (row : ρ × α) : Option (ρ × α) :=
  if s.selects row.2 then (s.edit row.1 row.2).map (Prod.mk row.1) else some row

def Statement.run (s : Statement ρ α) (t : List (ρ × α)) : List (ρ × α) := t.filterMap s.runRow

/-- Every statement affects its target and no other row. -/
def HitsTargets : List (ρ × α) → List (Statement ρ α × ρ) → Prop
  | _, [] => True
  | t, (s, target) :: rest => s.affected t = [target] ∧ HitsTargets (s.run t) rest

/-- The identities of the rows that each statement of a sequence selects when its turn comes. -/
def affectedAll : List (ρ × α) → List (Statement ρ α) → List (List ρ)
  | _, [] => []
  | t, s :: rest => s.affected t :: affectedAll (s.run t) rest

def runAll (t : List (ρ × α)) (statements : List (Statement ρ α)) : List (ρ × α) :=
  statements.foldl (fun t statement => statement.run t) t

/-! ## One statement -/

theorem Statement.mem_affected {i : ρ} : i ∈ s.affected t ↔ ∃ a, (i, a) ∈ t ∧ s.selects a := by
  simp [affected]

/-- A statement affects at most one row exactly when it does not select two. -/
theorem Statement.length_affected_le_one_iff (hids : (t.map fst).Nodup) :
    (s.affected t).length ≤ 1 ↔
      ∀ a ∈ t, ∀ b ∈ t, s.selects a.2 → s.selects b.2 → a.1 = b.1 := by
  have hnodup : (s.affected t).Nodup := hids.sublist (filter_sublist.map fst)
  have hrows : (∀ a ∈ t, ∀ b ∈ t, s.selects a.2 → s.selects b.2 → a.1 = b.1) ↔
      ∀ i ∈ s.affected t, ∀ j ∈ s.affected t, i = j := by
    constructor
    · intro h i hi j hj
      obtain ⟨a, ha, hselectsA⟩ := mem_affected.mp hi
      obtain ⟨b, hb, hselectsB⟩ := mem_affected.mp hj
      exact h (i, a) ha (j, b) hb hselectsA hselectsB
    · intro h a ha b hb hselectsA hselectsB
      have hi : a.1 ∈ s.affected t := mem_affected.mpr ⟨a.2, ha, hselectsA⟩
      have hj : b.1 ∈ s.affected t := mem_affected.mpr ⟨b.2, hb, hselectsB⟩
      exact h a.1 hi b.1 hj
  rw [hrows]
  match s.affected t, hnodup with
  | [], _ => simp
  | [i], _ => simp
  | i :: j :: rest, hnodup =>
    refine iff_of_false (by simp) fun h => ?_
    have heq := h i mem_cons_self j (mem_cons_of_mem _ mem_cons_self)
    exact (nodup_cons.mp hnodup).1 (heq ▸ mem_cons_self)

theorem Statement.mem_affected_self (h : s.affected t = [o]) : o ∈ s.affected t :=
  h ▸ mem_singleton_self o

theorem Statement.runRow_fst {row row' : ρ × α} (h : s.runRow row = some row') :
    row'.1 = row.1 := by
  unfold runRow at h
  split at h
  · obtain ⟨a, -, rfl⟩ := Option.map_eq_some_iff.mp h
    rfl
  · cases h
    rfl

/-- A statement adds no row and changes no identity. -/
theorem Statement.run_fst_sublist (s : Statement ρ α) (t : List (ρ × α)) :
    ((s.run t).map fst).Sublist (t.map fst) := by
  induction t with
  | nil => exact .slnil
  | cons row t ih =>
    unfold run at ih ⊢
    cases h : s.runRow row with
    | none =>
      rw [filterMap_cons_none h]
      exact ih.cons _
    | some row' =>
      rw [filterMap_cons_some h, map_cons, runRow_fst h]
      exact ih.cons_cons _

theorem Statement.run_nodup (s : Statement ρ α) (h : (t.map fst).Nodup) :
    ((s.run t).map fst).Nodup :=
  h.sublist (s.run_fst_sublist t)

/-- A statement whose edits another statement does not select leaves that one no more rows. -/
theorem Statement.affected_run_sublist
    (h : ∀ i a b, (i, a) ∈ t → s.selects a → s.edit i a = some b → q.selects b = false) :
    (q.affected (s.run t)).Sublist (q.affected t) := by
  induction t with
  | nil => exact .slnil
  | cons row t ih =>
    have hrest := ih fun i a b hmem => h i a b (mem_cons_of_mem _ hmem)
    have hcons : (q.affected t).Sublist (q.affected (row :: t)) :=
      ((sublist_cons_self row t).filter _).map _
    unfold run at hrest ⊢
    cases hrow : s.runRow row with
    | none =>
      rw [filterMap_cons_none hrow]
      exact hrest.trans hcons
    | some row' =>
      rw [filterMap_cons_some hrow]
      unfold runRow at hrow
      split at hrow
      · next hselects =>
        obtain ⟨b, hedit, rfl⟩ := Option.map_eq_some_iff.mp hrow
        have hq := h row.1 row.2 b mem_cons_self hselects hedit
        simp only [affected, filter_cons, hq, Bool.false_eq_true, if_false] at hrest hcons ⊢
        exact hrest.trans hcons
      · cases hrow
        cases hq : q.selects row.2
        · simpa [affected, filter_cons, hq] using hrest
        · simpa [affected, filter_cons, hq] using hrest

/-- The rows after a statement that affects one row. -/
theorem Statement.mem_run_of_affected (haffected : s.affected t = [o]) {i : ρ} {b : α} :
    (i, b) ∈ s.run t ↔ (i, b) ∈ t ∧ s.selects b = false ∨ i = o ∧ ∃ a, (o, a) ∈ t ∧ s.selects a ∧
        s.edit o a = some b := by
  unfold run
  rw [mem_filterMap]
  constructor
  · rintro ⟨⟨j, a⟩, hmem, hrow⟩
    unfold runRow at hrow
    split at hrow
    · next hselects =>
      obtain ⟨c, hedit, heq⟩ := Option.map_eq_some_iff.mp hrow
      cases heq
      have hj : j ∈ s.affected t := mem_affected.mpr ⟨a, hmem, hselects⟩
      obtain rfl : j = o := by simpa [haffected] using hj
      exact .inr ⟨rfl, a, hmem, hselects, hedit⟩
    · next hselects =>
      cases hrow
      exact .inl ⟨hmem, by simpa using hselects⟩
  · rintro (⟨hmem, hselects⟩ | ⟨rfl, a, hmem, hselects, hedit⟩)
    · exact ⟨(i, b), hmem, by simp [runRow, hselects]⟩
    · exact ⟨(i, a), hmem, by simp [runRow, hselects, hedit]⟩

/-! ## Sequences -/

/-- No row that a statement has edited is selected by a later statement. -/
def Undisturbed (t : List (ρ × α)) (statements : List (Statement ρ α × ρ)) : Prop :=
  statements.Pairwise fun p q =>
    ∀ a b, (p.2, a) ∈ t → p.1.edit p.2 a = some b → q.1.selects b = false

/-- The table with the edit of every statement applied to the statement's target. -/
def applyAll [DecidableEq ρ] (t : List (ρ × α)) (statements : List (Statement ρ α × ρ)) :
    List (ρ × α) :=
  t.filterMap fun row =>
    match statements.find? fun statement => statement.2 = row.1 with
    | none => some row
    | some statement => (statement.1.edit row.1 row.2).map (Prod.mk row.1)

variable {statements : List (Statement ρ α × ρ)}

theorem eq_of_mem_of_nodup (hids : (t.map fst).Nodup) {a b : α} (ha : (o, a) ∈ t)
    (hb : (o, b) ∈ t) : a = b :=
  congrArg snd (inj_on_of_nodup_map hids ha hb rfl)

theorem Statement.selects_target (hids : (t.map fst).Nodup) (h : o ∈ s.affected t) {a : α}
    (ha : (o, a) ∈ t) : s.selects a := by
  obtain ⟨b, hb, hselects⟩ := mem_affected.mp h
  rwa [eq_of_mem_of_nodup hids ha hb]

theorem Statement.not_selects_of_ne (haffected : s.affected t = [o]) {i : ρ} {a : α}
    (hmem : (i, a) ∈ t) (hne : i ≠ o) : s.selects a = false := by
  by_contra hselects
  have hi : i ∈ s.affected t := mem_affected.mpr ⟨a, hmem, by simpa using hselects⟩
  exact hne (by simpa [haffected] using hi)

open Statement

/-- A sequence hits its targets when the rows that its statements affect are their targets. -/
theorem hitsTargets_iff_affectedAll :
    HitsTargets t statements ↔
      affectedAll t (statements.map fst) = statements.map fun statement => [statement.2] := by
  induction statements generalizing t with
  | nil => exact iff_of_true trivial rfl
  | cons p rest ih =>
    rw [HitsTargets, ih, map_cons, map_cons, affectedAll, cons.injEq]

variable (h : HitsTargets t statements)

include h

/-- A row that is no statement's target is selected by none of them. -/
theorem HitsTargets.not_selects {i : ρ} {a : α} (hmem : (i, a) ∈ t) (hi : i ∉ statements.map snd) :
    ∀ q ∈ statements, q.1.selects a = false := by
  induction statements generalizing t with
  | nil => nofun
  | cons p rest ih =>
    rw [map_cons, mem_cons, not_or] at hi
    have hhead := not_selects_of_ne h.1 hmem hi.1
    have hrun : (i, a) ∈ p.1.run t := (mem_run_of_affected h.1).mpr (.inl ⟨hmem, hhead⟩)
    exact forall_mem_cons.mpr ⟨hhead, ih h.2 hrun hi.2⟩

/-- Every target is selected in the table before the sequence. -/
theorem HitsTargets.present (htargets : (statements.map snd).Nodup) :
    ∀ q ∈ statements, q.2 ∈ q.1.affected t := by
  induction statements generalizing t with
  | nil => nofun
  | cons p rest ih =>
    rw [map_cons, nodup_cons] at htargets
    refine forall_mem_cons.mpr ⟨mem_affected_self h.1, fun q hq => ?_⟩
    obtain ⟨a, hmem, hselects⟩ := mem_affected.mp (ih h.2 htargets.2 q hq)
    have hne : q.2 ≠ p.2 := fun heq => htargets.1 (heq ▸ mem_map_of_mem hq)
    obtain ⟨hmem, -⟩ | ⟨heq, -⟩ := (mem_run_of_affected h.1).mp hmem
    · exact mem_affected.mpr ⟨a, hmem, hselects⟩
    · exact absurd heq hne

/-- In a sequence that hits its targets no statement selects what an earlier one has edited. -/
theorem HitsTargets.undisturbed (hids : (t.map fst).Nodup)
    (htargets : (statements.map snd).Nodup) : Undisturbed t statements := by
  induction statements generalizing t with
  | nil => exact List.Pairwise.nil
  | cons p rest ih =>
    rw [map_cons, nodup_cons] at htargets
    have hrest := ih h.2 (p.1.run_nodup hids) htargets.2
    refine pairwise_cons.mpr ⟨fun q hq a b hmem hedit => ?_, ?_⟩
    · have hselects := selects_target hids (mem_affected_self h.1) hmem
      have hrun : (p.2, b) ∈ p.1.run t :=
        (mem_run_of_affected h.1).mpr (.inr ⟨rfl, a, hmem, hselects, hedit⟩)
      exact h.2.not_selects hrun htargets.1 q hq
    · refine hrest.imp_of_mem fun {q r} hq _ hqr a b hmem hedit => hqr a b ?_ hedit
      have hne : q.2 ≠ p.2 := fun heq => htargets.1 (heq ▸ mem_map_of_mem hq)
      exact (mem_run_of_affected h.1).mpr (.inl ⟨hmem, not_selects_of_ne h.1 hmem hne⟩)

omit h

/-- Statements that select at most one row each in the table before the sequence hit their targets
when the targets are present and no edited row is selected later. -/
theorem hitsTargets_of_undisturbed (hids : (t.map fst).Nodup)
    (htargets : (statements.map snd).Nodup)
    (hguards : ∀ q ∈ statements, (q.1.affected t).length ≤ 1)
    (hpresent : ∀ q ∈ statements, q.2 ∈ q.1.affected t)
    (hundisturbed : Undisturbed t statements) : HitsTargets t statements := by
  induction statements generalizing t with
  | nil => trivial
  | cons p rest ih =>
    rw [map_cons, nodup_cons] at htargets
    rw [Undisturbed, pairwise_cons] at hundisturbed
    rw [forall_mem_cons] at hguards hpresent
    have haffected : p.1.affected t = [p.2] := by
      obtain ⟨i, hi⟩ := length_eq_one_iff.mp
        (Nat.le_antisymm hguards.1 (length_pos_of_mem hpresent.1))
      have htarget : p.2 = i := by simpa [hi] using hpresent.1
      rw [hi, htarget]
    -- a later statement keeps the rows it selects: its own target is not edited here, and the
    -- row edited here is not selected by it
    have hafter : ∀ q ∈ rest, q.2 ∈ q.1.affected (p.1.run t) := fun q hq => by
      obtain ⟨a, hmem, hselects⟩ := mem_affected.mp (hpresent.2 q hq)
      have hne : q.2 ≠ p.2 := fun heq => htargets.1 (heq ▸ mem_map_of_mem hq)
      refine mem_affected.mpr ⟨a, ?_, hselects⟩
      exact (mem_run_of_affected haffected).mpr (.inl ⟨hmem, not_selects_of_ne haffected hmem hne⟩)
    refine ⟨haffected, ih (p.1.run_nodup hids) htargets.2 (fun q hq => ?_) hafter ?_⟩
    · refine Nat.le_trans (List.Sublist.length_le (affected_run_sublist ?_)) (hguards.2 q hq)
      intro i a b hmem hselects hedit
      have hi : i ∈ p.1.affected t := mem_affected.mpr ⟨a, hmem, hselects⟩
      obtain rfl : i = p.2 := by simpa [haffected] using hi
      exact hundisturbed.1 q hq a b hmem hedit
    · refine hundisturbed.2.imp_of_mem fun {q r} hq _ hqr a b hmem hedit => hqr a b ?_ hedit
      have hne : q.2 ≠ p.2 := fun heq => htargets.1 (heq ▸ mem_map_of_mem hq)
      obtain ⟨hmem, -⟩ | ⟨heq, -⟩ := (mem_run_of_affected haffected).mp hmem
      · exact hmem
      · exact absurd heq hne

/-- **When statements that each select at most one row hit their targets.** -/
theorem hitsTargets_iff (hids : (t.map fst).Nodup) (htargets : (statements.map snd).Nodup)
    (hguards : ∀ q ∈ statements, (q.1.affected t).length ≤ 1) :
    HitsTargets t statements ↔
      (∀ q ∈ statements, q.2 ∈ q.1.affected t) ∧ Undisturbed t statements :=
  ⟨fun h => ⟨h.present htargets, h.undisturbed hids htargets⟩,
    fun h => hitsTargets_of_undisturbed hids htargets hguards h.1 h.2⟩

/-- **A sequence that hits its targets applies every edit to its target, and changes nothing
else.** -/
theorem runAll_eq_applyAll [DecidableEq ρ] (h : HitsTargets t statements)
    (hids : (t.map fst).Nodup) (htargets : (statements.map snd).Nodup) :
    runAll t (statements.map fst) = applyAll t statements := by
  induction statements generalizing t with
  | nil => exact (filterMap_some).symm
  | cons p rest ih =>
    rw [map_cons, nodup_cons] at htargets
    have htail : runAll t ((p :: rest).map fst) = runAll (p.1.run t) (rest.map fst) := rfl
    rw [htail, ih h.2 (p.1.run_nodup hids) htargets.2, applyAll, run, filterMap_filterMap]
    refine filterMap_congr fun row hmem => ?_
    by_cases hrow : p.2 = row.1
    · have hselects := selects_target hids
        (hrow ▸ mem_affected_self h.1 : row.1 ∈ p.1.affected t) hmem
      have hfind : rest.find? (fun q => decide (q.2 = row.1)) = none := by
        rw [find?_eq_none]
        rintro q hq heq
        exact htargets.1 (hrow ▸ of_decide_eq_true heq ▸ mem_map_of_mem hq)
      rw [runRow, if_pos hselects, find?_cons_of_pos (by simpa using hrow)]
      cases hedit : p.1.edit row.1 row.2 with
      | none => simp [hedit]
      | some b => simp [hedit, hfind]
    · have hselects := not_selects_of_ne h.1 hmem (Ne.symm hrow)
      rw [runRow, hselects, find?_cons_of_neg (by simpa using hrow)]
      rfl

end Dbx.Table
