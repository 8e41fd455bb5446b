import Mathlib.Data.Set.Finite.Basic
import Mathlib.Order.WellFounded

/-!
# Kahn's algorithm

A graph is built edge by edge, with the number of edges into each node and the list of the nodes
that the edges from a node lead to. The sort takes a node that no edge leads to any more, appends it
to the order and removes the edges from it, until no such node is left. What it leaves behind are
the nodes that lie on a cycle or behind one.

The queue of the nodes that are ready is a list; what is put where in it is a parameter.

## Main definitions

* `Draft`, `Draft.addEdge`: a graph, and an edge more
* `Sorting`, `Sorting.step`, `kahn`: the sort
* `withRest`: the order, followed by what it leaves behind
* `Stuck`: a node lies on a cycle or behind one

## Main results

* `Sorting.Inv.step`: what a step of the sort keeps
* `mem_kahn_iff`: the nodes that are sorted
* `pair_sublist_withRest_iff`: the edges that the result respects
-/

namespace Dbx.Graph

open Relation List

variable {V : Type}

/-! ## Graphs -/

/-- A graph: its edges, the number of edges into each node, and where the edges from it lead. -/
structure Draft (V : Type) where
  seen : List (V × V) := []
  degree : V → Nat := fun _ => 0
  successors : V → List V := fun _ => []

/-- There is an edge from `u` to `v`. -/
def Draft.Edge (g : Draft V) (u v : V) : Prop := (u, v) ∈ g.seen

def Stuck (edge : V → V → Prop) (v : V) : Prop := ∃ c, TransGen edge c c ∧ ReflTransGen edge c v

variable [DecidableEq V]

open Function

/-- The graph with an edge more, unless it has the edge. -/
def Draft.addEdge (g : Draft V) (edge : V × V) : Draft V :=
  if edge ∈ g.seen then g
  else
    { seen := g.seen ++ [edge]
      degree := update g.degree edge.2 (g.degree edge.2 + 1)
      successors := update g.successors edge.1 (g.successors edge.1 ++ [edge.2]) }

/-- The numbers and the lists of a graph are those of its edges. -/
structure Draft.WellFormed (g : Draft V) : Prop where
  nodup : g.seen.Nodup
  degree : ∀ v, g.degree v = g.seen.countP (·.2 = v)
  mem_successors : ∀ u v, v ∈ g.successors u ↔ (u, v) ∈ g.seen
  nodup_successors : ∀ u, (g.successors u).Nodup

theorem Draft.WellFormed.empty : Draft.WellFormed ({} : Draft V) where
  nodup := nodup_nil
  degree _ := rfl
  mem_successors _ _ := ⟨nofun, nofun⟩
  nodup_successors _ := nodup_nil

theorem Draft.mem_addEdge (g : Draft V) (edge other : V × V) :
    other ∈ (g.addEdge edge).seen ↔ other = edge ∨ other ∈ g.seen := by
  unfold Draft.addEdge
  split
  · next hseen =>
    refine ⟨.inr, ?_⟩
    rintro (rfl | h)
    · exact hseen
    · exact h
  · simp [or_comm]

/-- A graph with an edge more. -/
theorem Draft.WellFormed.addEdge {g : Draft V} (h : g.WellFormed) (edge : V × V) :
    (g.addEdge edge).WellFormed := by
  unfold Draft.addEdge
  split
  · exact h
  next hnew =>
  refine ⟨?_, ?_, ?_, ?_⟩
  · -- the edge is new
    rw [nodup_append]
    refine ⟨h.nodup, nodup_singleton edge, ?_⟩
    rintro other hother _ hedge rfl
    exact hnew (mem_singleton.mp hedge ▸ hother)
  · -- only the end of the edge has one edge more coming in
    intro v
    show update g.degree edge.2 _ v = (g.seen ++ [edge]).countP _
    rw [countP_append, ← h.degree v]
    by_cases hv : edge.2 = v
    · subst hv
      simp
    · rw [update_of_ne (Ne.symm hv)]
      simp [hv]
  · -- only the start of the edge has a successor more
    intro u v
    show v ∈ update g.successors edge.1 _ u ↔ (u, v) ∈ g.seen ++ [edge]
    by_cases hu : u = edge.1
    · subst hu
      rw [update_self, mem_append, mem_append, h.mem_successors,
        mem_singleton, mem_singleton, Prod.ext_iff]
      simp
    · rw [mem_append, mem_singleton, Prod.ext_iff]
      simp [hu, h.mem_successors]
  · intro u
    show (update g.successors edge.1 _ u).Nodup
    by_cases hu : u = edge.1
    · subst hu
      rw [update_self, nodup_append]
      refine ⟨h.nodup_successors _, nodup_singleton _, ?_⟩
      rintro v hv _ hedge rfl
      rw [mem_singleton.mp hedge, h.mem_successors] at hv
      exact hnew hv
    · rw [update_of_ne hu]
      exact h.nodup_successors u

/-! ## Orders -/

variable {u v : V}

/-- In a list without repetitions the first of two nodes has the smaller index. -/
theorem idxOf_lt_of_pair_sublist {list : List V} (hnodup : list.Nodup)
    (h : [u, v].Sublist list) : list.idxOf u < list.idxOf v := by
  induction list with
  | nil => cases h
  | cons w list ih =>
    rw [nodup_cons] at hnodup
    cases h with
    | cons _ h =>
      have hu : w ≠ u := by
        rintro rfl
        exact hnodup.1 (h.subset (by simp))
      have hv : w ≠ v := by
        rintro rfl
        exact hnodup.1 (h.subset (by simp))
      rw [idxOf_cons_ne _ hu, idxOf_cons_ne _ hv]
      exact Nat.succ_lt_succ (ih hnodup.2 h)
    | cons_cons _ h =>
      have hv : u ≠ v := by
        rintro rfl
        exact hnodup.1 (singleton_sublist.mp h)
      rw [idxOf_cons_self, idxOf_cons_ne _ hv]
      exact Nat.succ_pos _

omit [DecidableEq V] in
/-- Two nodes behind a list that the first is not in. -/
theorem pair_sublist_append {list more : List V} (hu : u ∉ list)
    (h : [u, v].Sublist (list ++ more)) : [u, v].Sublist more := by
  obtain ⟨first, second, heq, hfirst, hsecond⟩ := sublist_append_iff.mp h
  cases first with
  | nil => exact heq ▸ hsecond
  | cons w first =>
    obtain ⟨rfl, -⟩ := cons_eq_cons.mp heq
    exact absurd (hfirst.subset mem_cons_self) hu

/-! ## The sort -/

/-- Where the sort stands: the nodes that are ready, the number of edges left into each node, and
the order so far. -/
structure Sorting (V : Type) where
  ready : List V
  degree : V → Nat
  order : List V := []

section Loop

variable (push : List V → V → List V) (g : Draft V)

/-- An edge to `w` is removed. -/
def Sorting.release (s : Sorting V) (w : V) : Sorting V where
  ready := if s.degree w - 1 = 0 then push s.ready w else s.ready
  degree := update s.degree w (s.degree w - 1)
  order := s.order

open Sorting

/-- A node is appended to the order, and the edges from it are removed. -/
def Sorting.step (s : Sorting V) (v : V) (ready : List V) : Sorting V :=
  (g.successors v).foldl (release push) { s with ready, order := s.order ++ [v] }

/-- The loop of the sort, with a bound on the number of its steps. -/
def Sorting.run : Nat → Sorting V → Sorting V
  | 0, s => s
  | fuel + 1, s =>
    match s.ready with
    | [] => s
    | v :: ready => Sorting.run fuel (s.step push g v ready)

/-- The start of the sort. -/
def Sorting.start (nodes : List V) : Sorting V where
  ready := nodes.filter (g.degree · = 0)
  degree := g.degree

/-- The nodes that the sort reaches, in its order. -/
def kahn (nodes : List V) : List V :=
  (Sorting.run push g nodes.length (.start g nodes)).order

end Loop

/-- An order, followed by the nodes that it leaves behind. -/
def withRest (order nodes : List V) : List V := order ++ nodes.filter (· ∉ order)

theorem withRest_eq_self {order nodes : List V} (hperm : (withRest order nodes).Perm nodes)
    (hlength : nodes.length ≤ order.length) : withRest order nodes = order := by
  have htotal := hperm.length_eq
  rw [withRest, length_append] at htotal
  have hrest : nodes.filter (· ∉ order) = [] := eq_nil_of_length_eq_zero (by omega)
  rw [withRest, hrest, append_nil]

/-! ### A step -/

section Step

variable {push : List V → V → List V} (hpush : ∀ queue v, (push queue v).Perm (v :: queue))

@[simp] theorem Sorting.order_foldl (ws : List V) (s : Sorting V) :
    (ws.foldl (release push) s).order = s.order := by
  induction ws generalizing s with
  | nil => rfl
  | cons w ws ih => exact ih _

/-- The edges into each node that are left. -/
theorem Sorting.degree_foldl {ws : List V} (hnodup : ws.Nodup) (s : Sorting V) (v : V) :
    (ws.foldl (release push) s).degree v =
      if v ∈ ws then s.degree v - 1 else s.degree v := by
  induction ws generalizing s with
  | nil => rfl
  | cons w ws ih =>
    rw [nodup_cons] at hnodup
    rw [foldl_cons, ih hnodup.2, release]
    by_cases hv : v = w
    · subst hv
      simp [hnodup.1]
    · simp [hv]

include hpush

/-- The nodes that become ready. -/
theorem Sorting.ready_foldl {ws : List V} (hnodup : ws.Nodup) (s : Sorting V) :
    (ws.foldl (release push) s).ready.Perm
      (ws.filter (fun w => s.degree w - 1 = 0) ++ s.ready) := by
  induction ws generalizing s with
  | nil => exact List.Perm.refl _
  | cons w ws ih =>
    rw [nodup_cons] at hnodup
    have hfilter : ws.filter (fun v => (s.release push w).degree v - 1 = 0) =
        ws.filter (fun v => s.degree v - 1 = 0) := by
      refine filter_congr fun v hv => ?_
      have hne : v ≠ w := fun heq => hnodup.1 (heq ▸ hv)
      simp [release, hne]
    have hrest := ih hnodup.2 (s.release push w)
    rw [hfilter] at hrest
    refine hrest.trans ?_
    rw [filter_cons]
    by_cases hw : s.degree w - 1 = 0
    · simp only [release, hw, if_true, decide_true, cons_append]
      exact ((hpush s.ready w).append_left _).trans perm_middle
    · simp only [release, hw, if_false, decide_false, Bool.false_eq_true]
      exact List.Perm.refl _

end Step

/-! ### The invariant -/

/-- **The invariant of the sort**: a node is taken when no edge leads to it any more, and so behind
every node that an edge comes from. -/
structure Sorting.Inv (g : Draft V) (nodes : List V) (s : Sorting V) : Prop where
  nodup : (s.order ++ s.ready).Nodup
  degree : ∀ v, s.degree v = g.seen.countP (fun edge => edge.2 = v ∧ edge.1 ∉ s.order)
  free : ∀ v, v ∈ s.order ++ s.ready ↔ v ∈ nodes ∧ s.degree v = 0
  ordered : ∀ u v, g.Edge u v → v ∈ s.order → [u, v].Sublist s.order

variable {g : Draft V} {nodes : List V}

theorem Sorting.Inv.start (hg : g.WellFormed) (hnodes : nodes.Nodup) :
    Sorting.Inv g nodes (.start g nodes) where
  nodup := hnodes.filter _
  degree := fun v => by simp [Sorting.start, hg.degree v]
  free := fun v => by simp [Sorting.start]
  ordered := nofun

variable {s : Sorting V}

theorem Sorting.Inv.mem_order (h : s.Inv g nodes) (hedge : g.Edge u v)
    (hv : s.degree v = 0) : u ∈ s.order := by
  by_contra hu
  rw [h.degree v, countP_eq_zero] at hv
  exact hv (u, v) hedge (by simpa using hu)

/-- Taking a node removes the edges from it. -/
theorem countP_take (hg : g.WellFormed) {order : List V} (hu : u ∉ order) (v : V) :
    g.seen.countP (fun edge => edge.2 = v ∧ edge.1 ∉ order) =
      g.seen.countP (fun edge => edge.2 = v ∧ edge.1 ∉ order ++ [u]) +
        if v ∈ g.successors u then 1 else 0 := by
  have hsplit : g.seen.countP (fun edge => edge.2 = v ∧ edge.1 ∉ order) =
      g.seen.countP (fun edge => edge.2 = v ∧ edge.1 ∉ order ++ [u]) + g.seen.count (u, v) := by
    induction g.seen with
    | nil => rfl
    | cons edge edges ih =>
      rw [countP_cons, countP_cons, count_cons, ih]
      by_cases hedge : edge = (u, v)
      · subst hedge
        simp [hu]
        omega
      have hiff : (edge.2 = v ∧ edge.1 ∉ order ++ [u]) ↔ edge.2 = v ∧ edge.1 ∉ order := by
        rw [mem_append, mem_singleton]
        refine ⟨fun h => ⟨h.1, fun hmem => h.2 (.inl hmem)⟩, fun h => ⟨h.1, ?_⟩⟩
        rintro (hmem | hmem)
        · exact h.2 hmem
        · exact hedge (Prod.ext hmem h.1)
      simp only [hiff, beq_eq_false_iff_ne.mpr hedge, Bool.false_eq_true, if_false]
      omega
  rw [hsplit, hg.nodup.count]
  simp only [hg.mem_successors]

section Run

variable {push : List V → V → List V} (hpush : ∀ queue v, (push queue v).Perm (v :: queue))
  (hg : g.WellFormed) (hedges : ∀ u v, g.Edge u v → u ∈ nodes ∧ v ∈ nodes)

include hpush hg

/-- The nodes that are taken or ready after a step: those that were, and those that it makes
ready. -/
theorem Sorting.Inv.perm_step {ready : List V} (hready : s.ready = v :: ready) :
    ((s.step push g v ready).order ++ (s.step push g v ready).ready).Perm
      ((g.successors v).filter (fun w => s.degree w - 1 = 0) ++ (s.order ++ s.ready)) := by
  have hnew : (s.step push g v ready).ready.Perm
      ((g.successors v).filter (fun w => s.degree w - 1 = 0) ++ ready) :=
    ready_foldl hpush (hg.nodup_successors v) _
  have horder : (s.step push g v ready).order = s.order ++ [v] := order_foldl _ _
  rw [horder, hready]
  calc s.order ++ [v] ++ (s.step push g v ready).ready
      _ = s.order ++ v :: (s.step push g v ready).ready := by
        rw [append_assoc, singleton_append]
      List.Perm _ (s.order ++ v :: (_ ++ ready)) := (hnew.cons v).append_left _
      List.Perm _ (s.order ++ (_ ++ v :: ready)) := perm_middle.symm.append_left _
      List.Perm _ (_ ++ (s.order ++ v :: ready)) := by
        rw [← append_assoc, ← append_assoc]
        exact perm_append_comm.append_right _

omit hpush in
/-- The edges that are left behind a step. -/
theorem Sorting.Inv.degree_step (h : s.Inv g nodes) (hv : v ∉ s.order) (ready : List V) (w : V) :
    s.degree w = (s.step push g v ready).degree w + if w ∈ g.successors v then 1 else 0 := by
  have hdegree : (s.step push g v ready).degree w =
      if w ∈ g.successors v then s.degree w - 1 else s.degree w :=
    degree_foldl (hg.nodup_successors v) _ w
  have hcount := countP_take hg hv w
  rw [← h.degree w] at hcount
  rw [hdegree]
  by_cases hw : w ∈ g.successors v
  · simp only [hw, if_true] at hcount ⊢
    omega
  · simp [hw]

include hedges

/-- **A step keeps the invariant.** -/
theorem Sorting.Inv.step (h : s.Inv g nodes) {ready : List V}
    (hready : s.ready = v :: ready) : (s.step push g v ready).Inv g nodes := by
  have hperm := Sorting.Inv.perm_step hpush hg hready
  have horder : (s.step push g v ready).order = s.order ++ [v] := order_foldl _ _
  have hnodup := h.nodup
  rw [hready, nodup_append] at hnodup
  have hv : v ∉ s.order := fun hmem => hnodup.2.2 v hmem v mem_cons_self rfl
  have hdegree : ∀ w, s.degree w = (s.step push g v ready).degree w + _ := h.degree_step hg hv ready
  -- an edge from the node that is taken is left into each of its successors
  have hpos : ∀ w ∈ g.successors v, w ∉ s.order ++ s.ready := by
    intro w hw hmem
    have hzero := ((h.free w).mp hmem).2
    have hstep := hdegree w
    rw [if_pos hw] at hstep
    omega
  refine ⟨?_, ?_, ?_, ?_⟩
  · rw [hperm.nodup_iff, nodup_append]
    refine ⟨(hg.nodup_successors v).filter _, h.nodup, ?_⟩
    rintro w hnew _ hold rfl
    exact hpos w (mem_of_mem_filter hnew) hold
  · intro w
    rw [horder]
    have hcount := countP_take hg hv w
    rw [← h.degree w, hdegree w] at hcount
    omega
  · intro w
    rw [hperm.mem_iff, mem_append, mem_filter, h.free w, hdegree w]
    by_cases hw : w ∈ g.successors v
    · have hnode : w ∈ nodes := (hedges v w ((hg.mem_successors v w).mp hw)).2
      simp [hw, hnode]
    · simp [hw]
  · intro u w hedge hw
    rw [horder] at hw ⊢
    rcases mem_append.mp hw with hw | hw
    · exact (h.ordered u w hedge hw).trans (sublist_append_left _ _)
    · obtain rfl := mem_singleton.mp hw
      have hfree : w ∈ s.order ++ s.ready := by simp [hready]
      have hu : u ∈ s.order := h.mem_order hedge ((h.free w).mp hfree).2
      exact (singleton_sublist.mpr hu).append (List.Sublist.refl [w])

/-- **The sort keeps the invariant, and ends** when it is given a step for each node. -/
theorem Sorting.Inv.run {fuel : Nat} (h : s.Inv g nodes)
    (hfuel : nodes.length ≤ s.order.length + fuel) :
    (Sorting.run push g fuel s).Inv g nodes ∧ (Sorting.run push g fuel s).ready = [] := by
  induction fuel generalizing s with
  | zero =>
    refine ⟨h, ?_⟩
    -- more nodes than there are would be taken or ready
    have hsubset : (s.order ++ s.ready).Subperm nodes :=
      h.nodup.subperm fun v hv => ((h.free v).mp hv).1
    have hlength := hsubset.length_le
    rw [length_append] at hlength
    exact eq_nil_of_length_eq_zero (by simp only [Sorting.run]; omega)
  | succ fuel ih =>
    rw [Sorting.run]
    cases hready : s.ready with
    | nil => exact ⟨h, hready⟩
    | cons v ready =>
      have horder : (s.step push g v ready).order = s.order ++ [v] := order_foldl _ _
      refine ih (h.step hpush hg hedges hready) ?_
      rw [horder, length_append, length_singleton]
      omega

variable (hnodes : nodes.Nodup)

include hnodes

/-- What is known of the nodes that the sort reaches. -/
theorem kahn_spec : (kahn push g nodes).Nodup ∧
    (∀ v, v ∈ kahn push g nodes ↔ v ∈ nodes ∧ ∀ u, g.Edge u v → u ∈ kahn push g nodes) ∧
    ∀ u v, g.Edge u v → v ∈ kahn push g nodes → [u, v].Sublist (kahn push g nodes) := by
  obtain ⟨hinv, hready⟩ : (Sorting.run push g nodes.length (.start g nodes)).Inv g nodes ∧ _ :=
    (Sorting.Inv.start hg hnodes).run hpush hg hedges (by simp [Sorting.start])
  have hnodup := hinv.nodup
  have hfree := hinv.free
  rw [hready, append_nil] at hnodup hfree
  refine ⟨hnodup, fun v => ?_, hinv.ordered⟩
  rw [kahn, hfree v, hinv.degree v, countP_eq_zero]
  simp only [decide_eq_true_eq, not_and, not_not, Prod.forall]
  refine and_congr_right fun _ => ⟨fun h u hedge => h u v hedge rfl, ?_⟩
  rintro h u _ hedge rfl
  exact h u hedge

/-- A path to a node that the sort reaches comes from one before it. -/
theorem idxOf_lt_of_transGen (hpath : TransGen g.Edge u v) (hv : v ∈ kahn push g nodes) :
    u ∈ kahn push g nodes ∧ (kahn push g nodes).idxOf u < (kahn push g nodes).idxOf v := by
  obtain ⟨hnodup, hmem, hordered⟩ := kahn_spec hpush hg hedges hnodes
  induction hpath using TransGen.head_induction_on with
  | single hedge =>
    exact ⟨((hmem v).mp hv).2 _ hedge, idxOf_lt_of_pair_sublist hnodup (hordered _ _ hedge hv)⟩
  | head hedge _ ih =>
    obtain ⟨hnext, hlt⟩ := ih
    refine ⟨((hmem _).mp hnext).2 _ hedge, ?_⟩
    exact (idxOf_lt_of_pair_sublist hnodup (hordered _ _ hedge hnext)).trans hlt

/-- A node that the sort reaches does not lie on a cycle or behind one. -/
theorem not_stuck_of_mem_kahn (hv : v ∈ kahn push g nodes) : ¬ Stuck g.Edge v := by
  rintro ⟨c, hcycle, hreach⟩
  have hc : c ∈ kahn push g nodes := by
    rcases reflTransGen_iff_eq_or_transGen.mp hreach with rfl | hpath
    · exact hv
    · exact (idxOf_lt_of_transGen hpush hg hedges hnodes hpath hv).1
  exact Nat.lt_irrefl _ (idxOf_lt_of_transGen hpush hg hedges hnodes hcycle hc).2

/-- A node that the sort does not reach lies on a cycle or behind one. -/
theorem stuck_of_not_mem_kahn (hnode : v ∈ nodes) (hv : v ∉ kahn push g nodes) :
    Stuck g.Edge v := by
  obtain ⟨-, hmem, -⟩ := kahn_spec hpush hg hedges hnodes
  by_contra hstuck
  -- among the nodes left behind on the paths to `v` one would be the first
  let Left := {u // u ∈ nodes ∧ u ∉ kahn push g nodes ∧ ReflTransGen g.Edge u v}
  have : Finite Left := (nodes.finite_toSet.subset fun u (hu : u ∈ nodes ∧ _) => hu.1).to_subtype
  let Before (x y : Left) : Prop := TransGen g.Edge x.1 y.1
  have : IsTrans Left Before := ⟨fun _ _ _ h h' => h.trans h'⟩
  have : Std.Irrefl Before := ⟨fun x hcycle => hstuck ⟨x.1, hcycle, x.2.2.2⟩⟩
  have hwell : WellFounded Before := Finite.wellFounded_of_trans_of_irrefl Before
  obtain ⟨⟨u, hu, hnot, hreach⟩, -, hmin⟩ := hwell.has_min Set.univ ⟨⟨v, hnode, hv, .refl⟩, trivial⟩
  have hpred : ∃ w, g.Edge w u ∧ w ∉ kahn push g nodes := by
    by_contra hall
    push Not at hall
    exact hnot ((hmem u).mpr ⟨hu, hall⟩)
  obtain ⟨w, hedge, hw⟩ := hpred
  exact hmin ⟨w, (hedges w u hedge).1, hw, hreach.head hedge⟩ trivial (.single hedge)

/-- **The nodes that the sort reaches** are those that do not lie on a cycle or behind one. -/
theorem mem_kahn_iff (hnode : v ∈ nodes) : v ∈ kahn push g nodes ↔ ¬ Stuck g.Edge v := by
  refine ⟨not_stuck_of_mem_kahn hpush hg hedges hnodes, fun hstuck => ?_⟩
  by_contra hv
  exact hstuck (stuck_of_not_mem_kahn hpush hg hedges hnodes hnode hv)

/-- The order and what it leaves behind are the nodes. -/
theorem perm_withRest : (withRest (kahn push g nodes) nodes).Perm nodes := by
  obtain ⟨hnodup, hmem, -⟩ := kahn_spec hpush hg hedges hnodes
  rw [perm_ext_iff_of_nodup ?_ hnodes]
  · intro v
    rw [withRest, mem_append, mem_filter]
    refine ⟨?_, fun hv => ?_⟩
    · rintro (hv | hv)
      · exact ((hmem v).mp hv).1
      · exact hv.1
    · by_cases hsorted : v ∈ kahn push g nodes
      · exact .inl hsorted
      · exact .inr ⟨hv, by simpa using hsorted⟩
  · rw [withRest, nodup_append]
    refine ⟨hnodup, hnodes.filter _, ?_⟩
    rintro v hv _ hrest rfl
    exact absurd hv (by simpa using (mem_filter.mp hrest).2)

/-- **The edges that the result respects**: those from a node that does not lie on a cycle or behind
one, and those that the list of the nodes respects. -/
theorem pair_sublist_withRest_iff (hedge : g.Edge u v) :
    [u, v].Sublist (withRest (kahn push g nodes) nodes) ↔
      (Stuck g.Edge u → [u, v].Sublist nodes) := by
  obtain ⟨-, hmem, hordered⟩ := kahn_spec hpush hg hedges hnodes
  obtain ⟨hu, hv⟩ := hedges u v hedge
  by_cases hsorted : u ∈ kahn push g nodes
  · refine iff_of_true ?_ fun hstuck =>
      absurd hstuck ((mem_kahn_iff hpush hg hedges hnodes hu).mp hsorted)
    by_cases hnext : v ∈ kahn push g nodes
    · exact (hordered u v hedge hnext).trans (sublist_append_left _ _)
    · refine (singleton_sublist.mpr hsorted).append (singleton_sublist.mpr ?_)
      exact mem_filter.mpr ⟨hv, by simpa using hnext⟩
  · have hnext : v ∉ kahn push g nodes := fun h => hsorted (((hmem v).mp h).2 u hedge)
    have hstuck : Stuck g.Edge u := stuck_of_not_mem_kahn hpush hg hedges hnodes hu hsorted
    refine ⟨fun h _ => (pair_sublist_append hsorted h).trans filter_sublist, fun h => ?_⟩
    have hfilter := (h hstuck).filter (fun w => decide (w ∉ kahn push g nodes))
    rw [filter_cons_of_pos (by simpa using hsorted),
      filter_cons_of_pos (by simpa using hnext)] at hfilter
    exact hfilter.trans (sublist_append_right _ _)

end Run

end Dbx.Graph
