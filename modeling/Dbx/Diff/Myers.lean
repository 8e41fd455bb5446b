import Mathlib.Data.List.GetD
import Mathlib.Tactic

/-!
# Differences of two lists

The greedy difference of two lists: for a growing number of edits, the furthest point that is
reached on each diagonal, until the end of both lists is reached; then the way back through the
points that were kept. The furthest points may lie beyond the end of a list. The search nevertheless
ends at the end of both lists, and the way back is a script: it covers both lists, and where it says
that they are equal, they are.

## Main definitions

* `Op`, `Script`, `Covers`: edits, and what makes them a script
* `advance`, `sweep`, `search`, `backtrack`, `coalesceMidOps`, `myersDiff`: the algorithm
* `frontier`: the furthest points after a number of edits

## Main results

* `Script.coalesce`: adjacent edits of one kind are merged
* `frontier_exact`: the first point that is at the end of both lists is not beyond it
* `myersDiff_script`: the differences are a script
-/

namespace Dbx.Diff

open List
open Function (update update_of_ne)

variable {α : Type}

/-- The kind of an edit. -/
inductive Kind
  | equal
  | delete
  | insert
  deriving DecidableEq, Repr

/-- An edit: parts of the first and of the second list. -/
structure Op where
  kind : Kind
  aFrom : Nat
  aTo : Nat
  bFrom : Nat
  bTo : Nat
  deriving DecidableEq, Repr

def slice (list : List α) (start stop : Nat) : List α := (list.take stop).drop start

/-! ## Scripts -/

/-- The edit does what it says. -/
def Op.Fits (a b : List α) (op : Op) : Prop :=
  op.aFrom ≤ op.aTo ∧ op.aTo ≤ a.length ∧ op.bFrom ≤ op.bTo ∧ op.bTo ≤ b.length ∧ match op.kind with
    | .equal => slice a op.aFrom op.aTo = slice b op.bFrom op.bTo
    | .delete => op.bFrom = op.bTo
    | .insert => op.aFrom = op.aTo

/-- The edits lead from one point to another. -/
def Script (a b : List α) : Nat × Nat → List Op → Nat × Nat → Prop
  | start, [], stop => start = stop
  | start, op :: ops, stop =>
    (op.aFrom, op.bFrom) = start ∧ op.Fits a b ∧ Script a b (op.aTo, op.bTo) ops stop

section Script

variable {a b : List α} {start middle stop : Nat × Nat} {ops later : List Op}

theorem Script.append (h : Script a b start ops middle) (hlater : Script a b middle later stop) :
    Script a b start (ops ++ later) stop := by
  induction ops generalizing start with
  | nil =>
    obtain rfl : start = middle := h
    exact hlater
  | cons op ops ih => exact ⟨h.1, h.2.1, ih h.2.2⟩

theorem Script.of_append (h : Script a b start (ops ++ later) stop) :
    ∃ middle, Script a b start ops middle ∧ Script a b middle later stop := by
  induction ops generalizing start with
  | nil => exact ⟨start, rfl, h⟩
  | cons op ops ih =>
    obtain ⟨middle, hops, hlater⟩ := ih h.2.2
    exact ⟨middle, ⟨h.1, h.2.1, hops⟩, hlater⟩

theorem Script.singleton {op : Op} (h : op.Fits a b) :
    Script a b (op.aFrom, op.bFrom) [op] (op.aTo, op.bTo) :=
  ⟨rfl, h, rfl⟩

variable {list : List α}

theorem slice_append {i j k : Nat} (hij : i ≤ j) (hjk : j ≤ k) :
    slice list i j ++ slice list j k = slice list i k := by
  have hsplit : list.take k = list.take j ++ slice list j k := by
    have htake : list.take j = (list.take k).take j := by rw [take_take, Nat.min_eq_left hjk]
    rw [htake]
    exact (take_append_drop j (list.take k)).symm
  by_cases hlength : i ≤ (list.take j).length
  · have hwhole : slice list i k = (list.take j ++ slice list j k).drop i := by
      rw [← hsplit]
      rfl
    rw [hwhole, drop_append_of_le_length hlength]
    rfl
  · -- the list ends before the part
    rw [length_take] at hlength
    have hshort : list.length < i := by omega
    have hnil : ∀ i' j' : Nat, list.length < i' → slice list i' j' = [] := by
      intro i' j' h
      rw [slice, drop_eq_nil_iff, length_take]
      omega
    rw [hnil i j hshort, hnil j k (by omega), hnil i k hshort]
    rfl

/-- Two adjacent edits of one kind are one. -/
theorem Op.Fits.merge {op next : Op} (h : op.Fits a b) (hnext : next.Fits a b)
    (hkind : op.kind = next.kind) (ha : op.aTo = next.aFrom) (hb : op.bTo = next.bFrom) :
    Op.Fits a b ⟨op.kind, op.aFrom, next.aTo, op.bFrom, next.bTo⟩ := by
  obtain ⟨kind, aFrom, aTo, bFrom, bTo⟩ := op
  obtain ⟨kind', aFrom', aTo', bFrom', bTo'⟩ := next
  subst hkind ha hb
  obtain ⟨ha, -, hb, -, hsame⟩ := h
  obtain ⟨ha', hlength, hb', hlength', hsame'⟩ := hnext
  refine ⟨ha.trans ha', hlength, hb.trans hb', hlength', ?_⟩
  cases kind with
  | equal =>
    rw [← slice_append ha ha', ← slice_append hb hb', hsame, hsame']
  | delete | insert => exact hsame.trans hsame'

/-- An edit is added to others, and merged with the last if both are one. -/
def addOp (out : List Op) (op : Op) : List Op :=
  match out.getLast? with
  | some last =>
    if last.kind = op.kind ∧ last.aTo = op.aFrom ∧ last.bTo = op.bFrom then
      out.dropLast ++ [⟨last.kind, last.aFrom, op.aTo, last.bFrom, op.bTo⟩]
    else out ++ [op]
  | none => out ++ [op]

/-- `coalesceMidOps`. -/
def coalesceMidOps (ops : List Op) : List Op := ops.foldl addOp []

theorem Script.addOp {op : Op} (h : Script a b start ops (op.aFrom, op.bFrom)) (hop : op.Fits a b) :
    Script a b start (addOp ops op) (op.aTo, op.bTo) := by
  unfold Diff.addOp
  split
  · next last hlast =>
    split
    · next hmerge =>
      obtain ⟨hkind, ha, hb⟩ := hmerge
      have hsplit : ops = ops.dropLast ++ [last] := (dropLast_append_getLast? last hlast).symm
      rw [hsplit] at h
      obtain ⟨middle, hbefore, hstart, hfits, -⟩ := h.of_append
      subst hstart
      refine hbefore.append ?_
      exact .singleton (hfits.merge hop hkind ha hb)
    · exact h.append (.singleton hop)
  · exact h.append (.singleton hop)

/-- **Adjacent edits of one kind are merged.** -/
theorem Script.coalesce (h : Script a b start ops stop) :
    Script a b start (coalesceMidOps ops) stop := by
  have hfold : ∀ {out : List Op} {middle : Nat × Nat}, Script a b start out middle →
      ∀ {ops : List Op}, Script a b middle ops stop →
        Script a b start (ops.foldl Diff.addOp out) stop := by
    intro out middle hout ops hops
    induction ops generalizing out middle with
    | nil =>
      obtain rfl : middle = stop := hops
      exact hout
    | cons op ops ih =>
      obtain ⟨rfl, hfits, hrest⟩ := hops
      exact ih (hout.addOp hfits) hrest
  exact hfold (show Script a b start [] start from rfl) h

/-- The edits cover a part of the second list, and do what they say. -/
def Covers (a b : List α) : Nat → List Op → Nat → Prop
  | start, [], stop => start = stop
  | start, op :: ops, stop => op.bFrom = start ∧ op.Fits a b ∧ Covers a b op.bTo ops stop

/-- The edits lead over both lists, wherever they say that the first list is inserted into. -/
def Spans (a b : List α) : Nat × Nat → List Op → Nat × Nat → Prop
  | start, [], stop => start = stop
  | start, op :: ops, stop =>
    (op.kind ≠ .insert → op.aFrom = start.1) ∧ op.bFrom = start.2 ∧ op.Fits a b ∧
      Spans a b (if op.kind = .insert then start.1 else op.aTo, op.bTo) ops stop

theorem Spans.append (h : Spans a b start ops middle) (hlater : Spans a b middle later stop) :
    Spans a b start (ops ++ later) stop := by
  induction ops generalizing start with
  | nil =>
    obtain rfl : start = middle := h
    exact hlater
  | cons op ops ih => exact ⟨h.1, h.2.1, h.2.2.1, ih h.2.2.2⟩

theorem Script.spans (h : Script a b start ops stop) : Spans a b start ops stop := by
  induction ops generalizing start with
  | nil => exact h
  | cons op ops ih =>
    obtain ⟨rfl, hfits, hrest⟩ := h
    refine ⟨fun _ => rfl, rfl, hfits, ?_⟩
    split
    · next hkind =>
      obtain ⟨-, -, -, -, hsame⟩ := hfits
      rw [hkind] at hsame
      rw [hsame]
      exact ih hrest
    · exact ih hrest

/-- Edits that fit elsewhere lead over the lists there. -/
theorem Spans.map {β : Type} {a' b' : List β} {f : Op → Op} {g k : Nat → Nat}
    (h : Spans a b start ops stop)
    (hf : ∀ op, op.Fits a b → (f op).Fits a' b' ∧
      f op = ⟨op.kind, g op.aFrom, g op.aTo, k op.bFrom, k op.bTo⟩) :
    Spans a' b' (start.map g k) (ops.map f) (stop.map g k) := by
  induction ops generalizing start with
  | nil =>
    obtain rfl : start = stop := h
    rfl
  | cons op ops ih =>
    obtain ⟨ha, hb, hfits, hrest⟩ := h
    obtain ⟨hfits', hop⟩ := hf op hfits
    rw [hop] at hfits'
    rw [map_cons, hop]
    refine ⟨fun hkind => congrArg g (ha hkind), congrArg k hb, hfits', ?_⟩
    have hnext := ih hrest
    rwa [Prod.map_apply, apply_ite g] at hnext

theorem Spans.covers (h : Spans a b start ops stop) : Covers a b start.2 ops stop.2 := by
  induction ops generalizing start with
  | nil => exact congrArg Prod.snd h
  | cons op ops ih => exact ⟨h.2.1, h.2.2.1, ih h.2.2.2⟩

/-- **What is kept and deleted is the first list**, and what is kept and inserted the second. -/
theorem Spans.parts (h : Spans a b start ops stop) : start.1 ≤ stop.1 ∧ start.2 ≤ stop.2 ∧
    ops.flatMap (fun op => if op.kind = .insert then [] else slice a op.aFrom op.aTo) =
      slice a start.1 stop.1 ∧
    ops.flatMap (fun op => if op.kind = .delete then [] else slice b op.bFrom op.bTo) =
      slice b start.2 stop.2 ∧ ∀ op ∈ ops, op.Fits a b := by
  induction ops generalizing start with
  | nil =>
    obtain rfl : start = stop := h
    simp [slice]
  | cons op ops ih =>
    obtain ⟨ha, hb, hfits, hrest⟩ := h
    obtain ⟨hle, hle', hkept, hwritten, hall⟩ := ih hrest
    obtain ⟨ha', -, hb', -, hsame⟩ := id hfits
    have hall := forall_mem_cons.mpr ⟨hfits, hall⟩
    have hside : (if op.kind = .delete then [] else slice b op.bFrom op.bTo) =
        slice b op.bFrom op.bTo := by
      split
      · next hkind =>
        rw [hkind] at hsame
        simp [slice, hsame]
      · rfl
    rw [flatMap_cons, flatMap_cons, hkept, hwritten, hside, ← hb, slice_append hb' hle']
    by_cases hkind : op.kind = .insert
    · simp only [if_pos hkind] at hle ⊢
      exact ⟨hle, hb'.trans hle', rfl, trivial, hall⟩
    · simp only [if_neg hkind] at hle ⊢
      rw [← ha hkind]
      exact ⟨ha'.trans hle, hb'.trans hle', slice_append ha' hle, trivial, hall⟩

theorem length_slice {i j : Nat} (hj : j ≤ list.length) :
    (slice list i j).length = j - i := by
  rw [slice, length_drop, length_take, Nat.min_eq_left hj]

theorem slice_slice {i j m n : Nat} (h : i + n ≤ j) :
    slice (slice list i j) m n = slice list (i + m) (i + n) := by
  rw [slice, slice, slice, take_drop, take_take, Nat.min_eq_left h, drop_drop]

/-- Edits of parts are edits of the whole. -/
theorem Op.Fits.shift {i j j' : Nat} (hj : j ≤ a.length) (hj' : j' ≤ b.length) (hij : i ≤ j)
    (hij' : i ≤ j') {op : Op} (h : op.Fits (slice a i j) (slice b i j')) :
    Op.Fits a b ⟨op.kind, i + op.aFrom, i + op.aTo, i + op.bFrom, i + op.bTo⟩ := by
  obtain ⟨kind, aFrom, aTo, bFrom, bTo⟩ := op
  obtain ⟨ha, hlength, hb, hlength', hsame⟩ := h
  simp only [length_slice hj, length_slice hj'] at ha hlength hb hlength' hsame
  refine ⟨?_, ?_, ?_, ?_, ?_⟩
  · show i + aFrom ≤ i + aTo
    omega
  · show i + aTo ≤ a.length
    omega
  · show i + bFrom ≤ i + bTo
    omega
  · show i + bTo ≤ b.length
    omega
  · cases kind with
    | equal =>
      rw [slice_slice (by omega), slice_slice (by omega)] at hsame
      exact hsame
    | delete | insert =>
      simp only at hsame ⊢
      omega

end Script

/-! ## The algorithm -/

variable [DecidableEq α]

/-- The number of elements with which both lists begin. -/
def commonPrefix : List α → List α → Nat
  | x :: a, y :: b => if x = y then commonPrefix a b + 1 else 0
  | _, _ => 0

/-- The point on a diagonal is reached from the diagonal above it. -/
def fromDown (v : Int → Nat) (d : Nat) (k : Int) : Bool :=
  k = -d || (k ≠ d && v (k - 1) < v (k + 1))

def entry (v : Int → Nat) (d : Nat) (k : Int) : Nat :=
  if fromDown v d k then v (k + 1) else v (k - 1) + 1

section Algorithm

variable (a b : List α)

/-- The furthest point on a diagonal behind one more edit: equal elements follow for free. -/
def advance (v : Int → Nat) (d : Nat) (k : Int) : Nat :=
  entry v d k + commonPrefix (a.drop (entry v d k)) (b.drop (entry v d k - k).toNat)

def AtEnd (x : Nat) (k : Int) : Prop := a.length ≤ x ∧ (b.length : Int) ≤ x - k

instance (x : Nat) (k : Int) : Decidable (AtEnd a b x k) := by
  unfold AtEnd
  infer_instance

/-- The loop over the diagonals, and nothing when the end is reached. -/
def sweep (d : Nat) : Nat → Int → (Int → Nat) → Option (Int → Nat)
  | 0, _, v => some v
  | count + 1, k, v =>
    let x := advance a b v d k
    if AtEnd a b x k then none else sweep d count (k + 2) (update v k x)

/-- What is kept of the furthest points before a number of edits. -/
def level (v : Int → Nat) (d : Nat) : Int → Nat :=
  fun k => if -((d : Int) - 1) ≤ k ∧ k ≤ (d : Int) - 1 ∧ (k + d - 1) % 2 = 0 then v k else 0

/-- The loop over the number of edits: what was kept, when the end is reached. -/
def search : Nat → Nat → (Int → Nat) → List (Int → Nat) → Option (List (Int → Nat))
  | 0, _, _, _ => none
  | fuel + 1, d, v, trace =>
    match sweep a b d (d + 1) (-d) v with
    | none => some (trace ++ [level v d])
    | some v' => search fuel (d + 1) v' (trace ++ [level v d])

end Algorithm

/-- The equal elements that end at a point, the last one first. -/
def diagonal (count x y : Nat) : List Op :=
  (List.range count).map fun i => ⟨.equal, x - i - 1, x - i, y - i - 1, y - i⟩

/-- The way back, the last edit first. -/
def backtrack (trace : List (Int → Nat)) : Nat → Nat → Nat → List Op
  | 0, _, _ => []
  | d + 1, x, y =>
    let level := trace.getD (d + 1) fun _ => 0
    let k : Int := x - y
    let prevK := if fromDown level (d + 1) k then k + 1 else k - 1
    let prevX := level prevK
    let prevY := (prevX - prevK).toNat
    let count := min (x - prevX) (y - prevY)
    diagonal count x y ++
      (if x - count = prevX then ⟨.insert, x - count, x - count, prevY, y - count⟩
        else ⟨.delete, prevX, x - count, y - count, y - count⟩) :: backtrack trace d prevX prevY

/-- `myersDiff`, which gives up beyond a number of edits. -/
def myersDiff (limit : Nat) (a b : List α) : Option (List Op) :=
  if a.length = 0 ∧ b.length = 0 then some []
  else
    (search a b (min (a.length + b.length) limit + 1) 0 (fun _ => 0) []).map fun trace =>
      coalesceMidOps (backtrack trace (trace.length - 1) a.length b.length).reverse

/-! ## Common beginnings -/

theorem commonPrefix_le (a b : List α) :
    commonPrefix a b ≤ a.length ∧ commonPrefix a b ≤ b.length := by
  fun_induction commonPrefix a b with
  | case1 x a b ih =>
    simp only [length_cons]
    omega
  | case2 => simp
  | case3 => simp

theorem take_commonPrefix (a b : List α) :
    a.take (commonPrefix a b) = b.take (commonPrefix a b) := by
  fun_induction commonPrefix a b with
  | case1 x a b ih => rw [take_succ_cons, take_succ_cons, ih]
  | case2 => rfl
  | case3 => rfl

attribute [local simp] commonPrefix

/-- Behind a common beginning nothing is in common. -/
theorem commonPrefix_drop (a b : List α) :
    commonPrefix (a.drop (commonPrefix a b)) (b.drop (commonPrefix a b)) = 0 := by
  fun_induction commonPrefix a b with
  | case1 x a b ih => exact ih
  | case2 x a y b hne => simp [hne]
  | case3 a b hnone => simp

theorem commonPrefix_take {a b : List α} (h : commonPrefix a b = 0) (i j : Nat) :
    commonPrefix (a.take i) (b.take j) = 0 := by
  cases a with
  | nil => simp
  | cons x a =>
    cases b with
    | nil => simp
    | cons y b =>
      have hne : x ≠ y := by
        intro heq
        simp [heq] at h
      cases i with
      | zero => simp
      | succ i =>
        cases j with
        | zero => simp
        | succ j => simp [hne]

/-! ## The furthest points -/

/-- The diagonals that a number of edits can end on. -/
def InRange (d : Nat) (k : Int) : Prop := -(d : Int) ≤ k ∧ k ≤ d ∧ (k + d) % 2 = 0

section Frontier

variable (a b : List α)

/-- The furthest points after a number of edits. -/
def frontier : Nat → Int → Nat
  | 0, _ => commonPrefix a b
  | d + 1, k => advance a b (frontier d) (d + 1) k

variable {a b} {v w : Int → Nat} {d : Nat} {k : Int}

/-- Where a point comes from. -/
theorem entry_cases (v : Int → Nat) (hk : InRange (d + 1) k) :
    (fromDown v (d + 1) k ∧ InRange d (k + 1) ∧ entry v (d + 1) k = v (k + 1) ∧
        (InRange d (k - 1) → v (k - 1) < v (k + 1))) ∨
      (fromDown v (d + 1) k = false ∧ InRange d (k - 1) ∧ entry v (d + 1) k = v (k - 1) + 1 ∧
        (InRange d (k + 1) → v (k + 1) ≤ v (k - 1))) := by
  obtain ⟨hlow, hhigh, hparity⟩ := hk
  cases hdown : fromDown v (d + 1) k with
  | true =>
    have hcases := hdown
    simp only [fromDown, Bool.or_eq_true, Bool.and_eq_true, decide_eq_true_eq] at hcases
    refine .inl ⟨rfl, ⟨by omega, by omega, by omega⟩, by rw [entry, hdown, if_pos rfl], ?_⟩
    rintro ⟨hlow', -, -⟩
    omega
  | false =>
    have hcases := hdown
    simp only [fromDown, Bool.or_eq_false_iff, Bool.and_eq_false_iff, decide_eq_false_iff_not]
      at hcases
    refine .inr ⟨rfl, ⟨by omega, by omega, by omega⟩, ?_, ?_⟩
    · rw [entry, hdown, if_neg (by simp)]
    · rintro ⟨-, hhigh', -⟩
      omega

/-- The next points depend on the points that are in range. -/
theorem entry_congr (h : ∀ k, InRange d k → v k = w k) (hk : InRange (d + 1) k) :
    fromDown v (d + 1) k = fromDown w (d + 1) k ∧ entry v (d + 1) k = entry w (d + 1) k := by
  rcases entry_cases v hk with ⟨hv, hvk, hve, hvlt⟩ | ⟨hv, hvk, hve, hvle⟩
  · rcases entry_cases w hk with ⟨hw, -, hwe, -⟩ | ⟨hw, hwk, -, hwle⟩
    · exact ⟨hv.trans hw.symm, by rw [hve, hwe, h _ hvk]⟩
    · have hlt := hvlt hwk
      have hle := hwle hvk
      rw [h _ hvk, h _ hwk] at hlt
      omega
  · rcases entry_cases w hk with ⟨hw, hwk, -, hwlt⟩ | ⟨hw, -, hwe, -⟩
    · have hle := hvle hwk
      have hlt := hwlt hvk
      rw [h _ hvk, h _ hwk] at hle
      omega
    · exact ⟨hv.trans hw.symm, by rw [hve, hwe, h _ hvk]⟩

theorem advance_congr (h : ∀ k, InRange d k → v k = w k) (hk : InRange (d + 1) k) :
    advance a b v (d + 1) k = advance a b w (d + 1) k := by
  rw [advance, advance, (entry_congr h hk).2]

/-- A point on a diagonal of the same parity is not looked at. -/
theorem advance_update (v : Int → Nat) (x : Nat) {k' : Int} (hk : (k' - k) % 2 = 0) :
    advance a b (update v k x) d k' = advance a b v d k' := by
  have hup : update v k x (k' + 1) = v (k' + 1) := update_of_ne (by omega) x v
  have hdown : update v k x (k' - 1) = v (k' - 1) := update_of_ne (by omega) x v
  have hentry : entry (update v k x) d k' = entry v d k' := by
    unfold entry fromDown
    rw [hup, hdown]
  rw [advance, advance, hentry]

theorem le_entry (hv : ∀ {k}, InRange d k → k ≤ v k) (hk : InRange (d + 1) k) :
    k ≤ entry v (d + 1) k := by
  rcases entry_cases v hk with ⟨-, hprev, he, -⟩ | ⟨-, hprev, he, -⟩
  · have hle := hv hprev
    omega
  · have hle := hv hprev
    omega

/-- No point is left of its diagonal. -/
theorem le_frontier (hk : InRange d k) : k ≤ frontier a b d k := by
  induction d generalizing k with
  | zero =>
    obtain ⟨-, hhigh, -⟩ := hk
    exact hhigh.trans (by positivity)
  | succ d ih =>
    have hentry := le_entry ih hk
    rw [frontier, advance]
    omega

theorem advance_eq_entry (hk : k ≤ entry v d k)
    (h : a.length < advance a b v d k ∨ (b.length : Int) < advance a b v d k - k) :
    advance a b v d k = entry v d k := by
  obtain ⟨ha, hb⟩ := commonPrefix_le (a.drop (entry v d k)) (b.drop (entry v d k - k).toNat)
  rw [length_drop] at ha hb
  unfold advance at h ⊢
  omega

/-- A point is as far as each point it can come from. -/
theorem frontier_step (hk : InRange (d + 1) k) :
    (InRange d (k + 1) → frontier a b d (k + 1) ≤ frontier a b (d + 1) k) ∧
      (InRange d (k - 1) → frontier a b d (k - 1) + 1 ≤ frontier a b (d + 1) k) := by
  have hle : entry (frontier a b d) (d + 1) k ≤ frontier a b (d + 1) k := Nat.le_add_right _ _
  rcases entry_cases (frontier a b d) hk with ⟨-, -, he, hlt⟩ | ⟨-, -, he, hle'⟩
  · constructor
    · intro _
      omega
    · intro hprev
      have := hlt hprev
      omega
  · constructor
    · intro hprev
      have := hle' hprev
      omega
    · intro _
      omega

theorem InRange.neighbour (h : InRange d k) {l : Int} (hl : l = k + 1 ∨ l = k - 1) :
    InRange (d + 1) l := by
  obtain ⟨hlow, hhigh, hparity⟩ := h
  unfold InRange
  omega

/-- A point beyond the end of the first list is one behind another on the diagonal below. -/
theorem frontier_beyond_left (hk : InRange d k) (h : a.length < frontier a b d k) :
    ∃ e, d = e + 1 ∧ InRange e (k - 1) ∧ frontier a b d k ≤ frontier a b e (k - 1) + 1 := by
  induction d generalizing k with
  | zero =>
    have hle := (commonPrefix_le a b).1
    rw [frontier] at h
    omega
  | succ e ih =>
    have heq : frontier a b (e + 1) k = entry (frontier a b e) (e + 1) k :=
      advance_eq_entry (le_entry le_frontier hk) (.inl h)
    refine ⟨e, rfl, ?_⟩
    rcases entry_cases (frontier a b e) hk with ⟨-, hprev, he, -⟩ | ⟨-, hprev, he, -⟩
    · -- it came from above, where the point before it was
      obtain ⟨e', rfl, hbelow, hle⟩ := ih hprev (by omega)
      rw [Int.add_sub_cancel] at hbelow hle
      have hk' : InRange (e' + 1) (k - 1) := hbelow.neighbour (.inr rfl)
      have hstep := (frontier_step (a := a) (b := b) hk').1
      rw [Int.sub_add_cancel] at hstep
      have := hstep hbelow
      exact ⟨hk', by omega⟩
    · exact ⟨hprev, by omega⟩

/-- A point beyond the end of the second list is as far as another on the diagonal above. -/
theorem frontier_beyond_right (hk : InRange d k) (h : (b.length : Int) < frontier a b d k - k) :
    ∃ e, d = e + 1 ∧ InRange e (k + 1) ∧ frontier a b d k ≤ frontier a b e (k + 1) := by
  induction d generalizing k with
  | zero =>
    have hle := (commonPrefix_le a b).2
    obtain ⟨hlow, -, -⟩ := hk
    rw [frontier] at h
    omega
  | succ e ih =>
    have heq : frontier a b (e + 1) k = entry (frontier a b e) (e + 1) k :=
      advance_eq_entry (le_entry le_frontier hk) (.inr h)
    refine ⟨e, rfl, ?_⟩
    rcases entry_cases (frontier a b e) hk with ⟨-, hprev, he, -⟩ | ⟨-, hprev, he, -⟩
    · exact ⟨hprev, by omega⟩
    -- it came from below, where the point before it was
    obtain ⟨e', rfl, habove, hle⟩ := ih hprev (by omega)
    rw [Int.sub_add_cancel] at habove hle
    have hk' : InRange (e' + 1) (k + 1) := habove.neighbour (.inl rfl)
    have hstep := (frontier_step (a := a) (b := b) hk').2
    rw [Int.add_sub_cancel] at hstep
    have := hstep habove
    exact ⟨hk', by omega⟩

/-- **The first point that is at the end of both lists is not beyond it.** -/
theorem frontier_exact (hk : InRange d k) (hend : AtEnd a b (frontier a b d k) k)
    (hfirst : ∀ e < d, ∀ k, InRange e k → ¬ AtEnd a b (frontier a b e k) k) :
    frontier a b d k = a.length ∧ k = (a.length : Int) - b.length := by
  obtain ⟨hleft, hright⟩ := hend
  have hexact : frontier a b d k = a.length := by
    by_contra hne
    have hbeyond : a.length < frontier a b d k := by omega
    obtain ⟨e, rfl, hprev, hle⟩ := frontier_beyond_left hk hbeyond
    exact hfirst e (Nat.lt_succ_self e) (k - 1) hprev ⟨by omega, by omega⟩
  have hexact' : (frontier a b d k : Int) - k = b.length := by
    by_contra hne
    have hbeyond : (b.length : Int) < frontier a b d k - k := by omega
    obtain ⟨e, rfl, hprev, hle⟩ := frontier_beyond_right hk hbeyond
    exact hfirst e (Nat.lt_succ_self e) (k + 1) hprev ⟨by omega, by omega⟩
  exact ⟨hexact, by omega⟩

end Frontier

/-! ## The search -/

section Search

variable {a b : List α} {v v' : Int → Nat} {d : Nat}

/-- The points that are kept yield the furthest points of the next number of edits. -/
def Ready (a b : List α) (v : Int → Nat) (d : Nat) : Prop :=
  ∀ k, InRange d k → advance a b v d k = frontier a b d k

theorem ready_zero : Ready a b (fun _ => 0) 0 := by
  rintro k ⟨hlow, hhigh, -⟩
  have hk : k = 0 := by
    omega
  subst hk
  simp [advance, entry, fromDown, frontier]

theorem ready_succ (h : ∀ k, InRange d k → v k = frontier a b d k) : Ready a b v (d + 1) := by
  intro k hk
  rw [advance_congr h hk]
  rfl

/-- What the loop over the diagonals finds. -/
def Swept (a b : List α) (d : Nat) : Option (Int → Nat) → Prop
  | none => ∃ k, InRange d k ∧ AtEnd a b (frontier a b d k) k
  | some v => ∀ k, InRange d k → v k = frontier a b d k ∧ ¬ AtEnd a b (frontier a b d k) k

/-- The loop over the diagonals, from a diagonal on. -/
theorem sweep_spec (hready : Ready a b v d) {count : Nat} {k : Int}
    (hk : k + 2 * count = d + 2) (hlow : -(d : Int) ≤ k)
    (hdone : ∀ k', InRange d k' → k' < k →
      v k' = frontier a b d k' ∧ ¬ AtEnd a b (frontier a b d k') k') :
    Swept a b d (sweep a b d count k v) := by
  induction count generalizing k v with
  | zero =>
    intro k' hk'
    refine hdone k' hk' ?_
    obtain ⟨-, hhigh, -⟩ := hk'
    omega
  | succ count ih =>
    have hrange : InRange d k := ⟨hlow, by omega, by omega⟩
    rw [sweep]
    simp only [hready k hrange]
    by_cases hend : AtEnd a b (frontier a b d k) k
    · rw [if_pos hend]
      exact ⟨k, hrange, hend⟩
    rw [if_neg hend]
    -- a diagonal reads its two neighbours, which have the other parity and are not written
    refine ih ?_ (by omega) (by omega) ?_
    · intro k' hk'
      obtain ⟨-, -, hparity'⟩ := id hk'
      rw [advance_update v _ (by omega)]
      exact hready k' hk'
    · intro k' hk' hlt
      obtain ⟨-, -, hparity'⟩ := id hk'
      by_cases heq : k' = k
      · subst heq
        exact ⟨Function.update_self _ _ _, hend⟩
      · rw [update_of_ne heq]
        exact hdone k' hk' (by omega)

/-- The furthest points are kept for fewer edits. -/
def Kept (a b : List α) (trace : List (Int → Nat)) (d : Nat) : Prop :=
  ∀ e < d, ∀ k, InRange e k → trace.getD (e + 1) (fun _ => 0) k = frontier a b e k

theorem Kept.level {trace : List (Int → Nat)} (h : Kept a b trace (d - 1))
    (hlength : trace.length = d)
    (hv : ∀ e, d = e + 1 → ∀ k, InRange e k → v k = frontier a b e k) :
    Kept a b (trace ++ [level v d]) d := by
  intro e he k hk
  by_cases hlast : e + 1 = d
  · rw [getD_append_right _ _ _ _ (by omega), hlength, hlast, Nat.sub_self]
    show Diff.level v d k = _
    rw [← hv e hlast.symm k hk, Diff.level, if_pos]
    obtain ⟨hlow, hhigh, hparity⟩ := hk
    exact ⟨by omega, by omega, by omega⟩
  · rw [getD_append _ _ _ _ (by omega)]
    exact h e (by omega) k hk

/-- **What the search finds**: the least number of edits with which the end is reached. -/
theorem search_spec {fuel : Nat} {trace trace' : List (Int → Nat)} (hready : Ready a b v d)
    (hv : ∀ e, d = e + 1 → ∀ k, InRange e k → v k = frontier a b e k)
    (hlength : trace.length = d) (hkept : Kept a b trace (d - 1))
    (hfirst : ∀ e < d, ∀ k, InRange e k → ¬ AtEnd a b (frontier a b e k) k)
    (h : search a b fuel d v trace = some trace') :
    ∃ e k, trace'.length = e + 1 ∧ Kept a b trace' e ∧ InRange e k ∧
      AtEnd a b (frontier a b e k) k ∧
      ∀ e' < e, ∀ k, InRange e' k → ¬ AtEnd a b (frontier a b e' k) k := by
  induction fuel generalizing d v trace with
  | zero => cases h
  | succ fuel ih =>
    have hswept : Swept a b d (sweep a b d (d + 1) (-d) v) := by
      refine sweep_spec hready (by omega) (by omega) ?_
      rintro k' ⟨hlow, -, -⟩ hlt
      omega
    have hkept' := hkept.level hlength hv
    rw [search] at h
    cases hsweep : sweep a b d (d + 1) (-d) v with
    | none =>
      rw [hsweep] at h hswept
      cases h
      -- the end is reached with this number of edits, and with no smaller one
      obtain ⟨k, hk, hend⟩ := hswept
      exact ⟨d, k, by rw [length_append, hlength]; rfl, hkept', hk, hend, hfirst⟩
    | some v' =>
      rw [hsweep] at h hswept
      -- all points of this level are known, and one edit more is tried
      have hpoints : ∀ k, InRange d k → v' k = frontier a b d k := fun k hk => (hswept k hk).1
      refine ih (ready_succ hpoints) ?_ ?_ hkept' ?_ h
      · intro e he
        obtain rfl : d = e := Nat.succ.inj he
        exact hpoints
      · rw [length_append, hlength]
        rfl
      · intro e he k hk
        rcases Nat.lt_succ_iff_lt_or_eq.mp he with hlt | rfl
        · exact hfirst e hlt k hk
        · exact (hswept k hk).2

end Search

/-! ## The way back -/

section Back

variable {a b : List α} {trace : List (Int → Nat)} {x y : Nat}

omit [DecidableEq α] in
/-- Equal parts are a script of equal elements. -/
theorem diagonal_script {count : Nat} (hx : count ≤ x) (hy : count ≤ y) (hxa : x ≤ a.length)
    (hyb : y ≤ b.length) (h : slice a (x - count) x = slice b (y - count) y) :
    Script a b (x - count, y - count) (diagonal count x y).reverse (x, y) := by
  induction count with
  | zero => rfl
  | succ count ih =>
    have hsplit : (diagonal (count + 1) x y).reverse =
        ⟨.equal, x - count - 1, x - count, y - count - 1, y - count⟩ ::
          (diagonal count x y).reverse := by
      simp [diagonal, range_succ]
    rw [← slice_append (show x - (count + 1) ≤ x - count by omega) (Nat.sub_le x count),
      ← slice_append (show y - (count + 1) ≤ y - count by omega) (Nat.sub_le y count)] at h
    have hfirst : (slice a (x - (count + 1)) (x - count)).length =
        (slice b (y - (count + 1)) (y - count)).length := by
      rw [length_slice (by omega), length_slice (by omega)]
      omega
    obtain ⟨hone, hrest⟩ := append_inj h hfirst
    rw [hsplit]
    refine ⟨rfl, ⟨?_, ?_, ?_, ?_, hone⟩, ih (by omega) (by omega) hrest⟩
    · show x - count - 1 ≤ x - count
      omega
    · show x - count ≤ a.length
      omega
    · show y - count - 1 ≤ y - count
      omega
    · show y - count ≤ b.length
      omega

theorem slice_commonPrefix (x y : Nat) :
    slice a x (x + commonPrefix (a.drop x) (b.drop y)) =
      slice b y (y + commonPrefix (a.drop x) (b.drop y)) := by
  have htake := take_commonPrefix (a.drop x) (b.drop y)
  rw [take_drop, take_drop] at htake
  exact htake

/-- A script goes on with an edit of one side and with what follows for free. -/
theorem Script.back {ops : List Op} {op : Op}
    (hops : Script a b (0, 0) ops (op.aFrom, op.bFrom)) (hop : op.Fits a b)
    (hone : op.aFrom = op.aTo ∨ op.bFrom = op.bTo)
    (hx : x = op.aTo + commonPrefix (a.drop op.aTo) (b.drop op.bTo))
    (hy : y = op.bTo + commonPrefix (a.drop op.aTo) (b.drop op.bTo)) (hxa : x ≤ a.length)
    (hyb : y ≤ b.length) :
    ∃ count, min (x - op.aFrom) (y - op.bFrom) = count ∧ x - count = op.aTo ∧ y - count = op.bTo ∧
      Script a b (0, 0) (ops ++ [op] ++ (diagonal count x y).reverse) (x, y) := by
  have hslice := slice_commonPrefix (a := a) (b := b) op.aTo op.bTo
  generalize commonPrefix (a.drop op.aTo) (b.drop op.bTo) = count at hx hy hslice
  have ha : x - count = op.aTo := by omega
  have hb : y - count = op.bTo := by omega
  obtain ⟨hle, -, hle', -, -⟩ := id hop
  refine ⟨count, by omega, ha, hb, (hops.append (.singleton hop)).append ?_⟩
  rw [← hx, ← hy, ← ha, ← hb] at hslice
  rw [← ha, ← hb]
  exact diagonal_script (by omega) (by omega) hxa hyb hslice

/-- **The way back is a script.** -/
theorem backtrack_script (hstart : commonPrefix a b = 0) {d : Nat} (hkept : Kept a b trace d)
    (hk : InRange d ((x : Int) - y)) (hx : x = frontier a b d ((x : Int) - y))
    (hxa : x ≤ a.length) (hyb : y ≤ b.length) :
    Script a b (0, 0) (backtrack trace d x y).reverse (x, y) := by
  induction d generalizing x y with
  | zero =>
    obtain ⟨hlow, hhigh, -⟩ := hk
    rw [frontier, hstart] at hx
    subst hx
    have hy : y = 0 := by
      omega
    subst hy
    rfl
  | succ d ih =>
    have hpoints := hkept d (Nat.lt_succ_self d)
    have hkept' : Kept a b trace d := fun e he => hkept e (he.trans (Nat.lt_succ_self d))
    obtain ⟨hdown, -⟩ := entry_congr hpoints hk
    rw [backtrack, reverse_append, reverse_cons]
    simp only [hdown]
    rw [frontier, advance] at hx
    generalize hdiagonal : (x : Int) - y = k at *
    rcases entry_cases (frontier a b d) hk with ⟨hfrom, hprev, he, -⟩ | ⟨hfrom, hprev, he, -⟩
    · -- an insertion leads from the diagonal above
      have hle := le_frontier (a := a) (b := b) hprev
      rw [hfrom, if_pos rfl, hpoints _ hprev]
      rw [he] at hx
      generalize hx₀ : frontier a b d (k + 1) = x₀ at *
      have hy₀ : ∃ y₀ : Nat, (x₀ : Int) - (k + 1) = y₀ := ⟨(x₀ - (k + 1)).toNat, by omega⟩
      obtain ⟨y₀, hy₀⟩ := hy₀
      have hnext : (x₀ - k).toNat = y₀ + 1 := by omega
      have hpoint : (x₀ : Int) - y₀ = k + 1 := by omega
      rw [hnext] at hx
      rw [hy₀, Int.toNat_natCast]
      have hback := @ih x₀ y₀ hkept' (by rwa [hpoint]) (by rw [hpoint, hx₀]) (by omega) (by omega)
      obtain ⟨count, hcount, hxcount, hycount, hscript⟩ :=
        @Script.back α _ a b x y _ ⟨.insert, x₀, x₀, y₀, y₀ + 1⟩ hback
          ⟨le_refl _, by simp only; omega, by simp only; omega, by simp only; omega, rfl⟩ (.inl rfl)
          hx (by simp only; omega) hxa hyb
      rw [hcount, hxcount, if_pos rfl, hycount]
      exact hscript
    · -- a deletion leads from the diagonal below
      have hle := le_frontier (a := a) (b := b) hprev
      rw [hfrom, if_neg Bool.false_ne_true, hpoints _ hprev]
      rw [he] at hx
      generalize hx₀ : frontier a b d (k - 1) = x₀ at *
      have hy₀ : ∃ y₀ : Nat, (x₀ : Int) - (k - 1) = y₀ := ⟨(x₀ - (k - 1)).toNat, by omega⟩
      obtain ⟨y₀, hy₀⟩ := hy₀
      have hnext : (((x₀ + 1 : Nat) : Int) - k).toNat = y₀ := by omega
      have hpoint : (x₀ : Int) - y₀ = k - 1 := by omega
      rw [hnext] at hx
      rw [hy₀, Int.toNat_natCast]
      have hback := @ih x₀ y₀ hkept' (by rwa [hpoint]) (by rw [hpoint, hx₀]) (by omega) (by omega)
      obtain ⟨count, hcount, hxcount, hycount, hscript⟩ :=
        @Script.back α _ a b x y _ ⟨.delete, x₀, x₀ + 1, y₀, y₀⟩ hback
          ⟨by simp only; omega, by simp only; omega, le_refl _, by simp only; omega, rfl⟩ (.inr rfl)
          hx (by simp only; omega) hxa hyb
      rw [hcount, hxcount, if_neg (Nat.succ_ne_self x₀), hycount]
      exact hscript

end Back

/-- **The differences are a script**, where the lists do not begin alike. -/
theorem myersDiff_script {limit : Nat} {a b : List α} {ops : List Op}
    (hstart : commonPrefix a b = 0) (h : myersDiff limit a b = some ops) :
    Script a b (0, 0) ops (a.length, b.length) := by
  unfold myersDiff at h
  split at h
  · next hempty =>
    cases h
    rw [hempty.1, hempty.2]
    rfl
  · obtain ⟨trace, htrace, rfl⟩ := Option.map_eq_some_iff.mp h
    obtain ⟨d, k, hlength, hkept, hk, hend, hfirst⟩ := search_spec ready_zero
      (fun e he => absurd he (Nat.succ_ne_zero e).symm) rfl
      (fun e he => absurd he (Nat.not_lt_zero e)) (fun e he => absurd he (Nat.not_lt_zero e)) htrace
    obtain ⟨hx, rfl⟩ := frontier_exact hk hend hfirst
    rw [hlength]
    exact (backtrack_script hstart hkept hk hx.symm le_rfl le_rfl).coalesce

end Dbx.Diff
