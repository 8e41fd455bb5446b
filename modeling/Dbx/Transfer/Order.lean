import Dbx.Graph.Kahn
import Dbx.Text.Basic

/-!
# The order of tables in a transfer

`sort_table_names_by_dependencies` sorts the tables of a transfer by their foreign keys: tables that
are referred to come first where tables are created, and last where they are dropped.

The sort ends at the tables that lie on a cycle of dependencies, and appends what it has not reached
in the order of the input. That is right for the tables on the cycle, but what it has not reached
are also the tables that merely come behind it.
-/

namespace Dbx.Transfer

open Dbx.Graph Relation List
open String (toList)

section Sorting

variable (tables : List Text) (dependencies : List (Text × Text)) (parentsFirst : Bool)

/-- The body of the loop that builds the graph, for the dependency of a table on another one. -/
def addDependency (graph : Draft Text) (dependency : Text × Text) : Draft Text :=
  if dependency.1 ∉ tables ∨ dependency.2 ∉ tables then graph
  else graph.addEdge (if parentsFirst then dependency.swap else dependency)

/-- The graph of the dependencies: an edge leads from a table to one that has to come behind it. -/
def dependencyGraph : Draft Text :=
  dependencies.foldl (addDependency tables parentsFirst) {}

/-- `sort_table_names_by_dependencies`. -/
def sortTableNamesByDependencies : List Text :=
  let sorted := kahn (fun queue table => queue ++ [table])
    (dependencyGraph tables dependencies parentsFirst) tables
  if sorted.length < tables.length then withRest sorted tables else sorted

/-! ## The specification -/

def Dependency (child parent : Text) : Prop :=
  (child, parent) ∈ dependencies ∧ child ∈ tables ∧ parent ∈ tables

/-- The first table has to come before the second. -/
def Before (first second : Text) : Prop :=
  if parentsFirst then Dependency tables dependencies second first
  else Dependency tables dependencies first second

/-- **The tables of every dependency that does not lie on a cycle stand in their order.** -/
def Respects (list : List Text) : Prop :=
  ∀ child parent, Dependency tables dependencies child parent → child ≠ parent →
    ¬ ReflTransGen (Dependency tables dependencies) parent child →
    if parentsFirst then [parent, child].Sublist list else [child, parent].Sublist list

/-- The tables of such a dependency stand in their order in the input already, if the one that comes
first lies on a cycle or behind one. -/
def StuckInOrder : Prop :=
  ∀ child parent, Dependency tables dependencies child parent → child ≠ parent →
    ¬ ReflTransGen (Dependency tables dependencies) parent child →
    if parentsFirst then
      Stuck (Before tables dependencies parentsFirst) parent → [parent, child].Sublist tables
    else Stuck (Before tables dependencies parentsFirst) child → [child, parent].Sublist tables

variable {tables dependencies parentsFirst}

/-- The graph stays well formed. -/
theorem dependencyGraph_wellFormed (dependencies : List (Text × Text)) {graph : Draft Text}
    (h : graph.WellFormed) :
    (dependencies.foldl (addDependency tables parentsFirst) graph).WellFormed := by
  induction dependencies generalizing graph with
  | nil => exact h
  | cons dependency dependencies ih =>
    refine ih ?_
    unfold addDependency
    split
    · exact h
    · exact h.addEdge _

/-- The edges of the graph: those it had, and those of the dependencies. -/
theorem edge_foldl_iff (dependencies : List (Text × Text)) (graph : Draft Text) (u v : Text) :
    (dependencies.foldl (addDependency tables parentsFirst) graph).Edge u v ↔
      Before tables dependencies parentsFirst u v ∨ graph.Edge u v := by
  induction dependencies generalizing graph with
  | nil => simp [Before, Dependency]
  | cons dependency dependencies ih =>
    have hadd : (addDependency tables parentsFirst graph dependency).Edge u v ↔
        Before tables [dependency] parentsFirst u v ∨ graph.Edge u v := by
      unfold addDependency
      split
      · grind [Before, Dependency]
      · rw [Draft.Edge, Draft.mem_addEdge]
        grind [Before, Dependency, Draft.Edge, Prod.fst_swap, Prod.snd_swap]
    have hcons : Before tables (dependency :: dependencies) parentsFirst u v ↔
        Before tables dependencies parentsFirst u v ∨
          Before tables [dependency] parentsFirst u v := by
      grind [Before, Dependency]
    rw [foldl_cons, ih, hadd, hcons, or_assoc]

theorem edge_iff (u v : Text) : (dependencyGraph tables dependencies parentsFirst).Edge u v ↔
    Before tables dependencies parentsFirst u v := by
  rw [dependencyGraph, edge_foldl_iff]
  exact or_iff_left nofun

theorem Before.mem {u v : Text} (h : Before tables dependencies parentsFirst u v) :
    u ∈ tables ∧ v ∈ tables := by
  unfold Before at h
  split at h
  · exact ⟨h.2.2, h.2.1⟩
  · exact h.2

section Sorted

variable (hnodup : tables.Nodup)

include hnodup

/-- The sort, with what it leaves behind. -/
theorem sortTableNames_eq : sortTableNamesByDependencies tables dependencies parentsFirst =
    withRest (kahn (fun queue table => queue ++ [table])
      (dependencyGraph tables dependencies parentsFirst) tables) tables := by
  rw [sortTableNamesByDependencies]
  split
  · rfl
  next hall =>
  refine (withRest_eq_self ?_ (Nat.le_of_not_lt hall)).symm
  exact perm_withRest (fun queue table => perm_append_singleton table queue)
    (dependencyGraph_wellFormed dependencies .empty)
      (fun u v h => ((edge_iff u v).mp h).mem) hnodup

/-- **The order of tables in a transfer.** The sort returns the tables, and it has the tables of
every dependency that does not lie on a cycle in their order if and only if the input has those in
order whose first lies on a cycle or behind one. -/
theorem sortTableNames_respects_iff :
    (sortTableNamesByDependencies tables dependencies parentsFirst).Perm tables ∧
      (Respects tables dependencies parentsFirst
          (sortTableNamesByDependencies tables dependencies parentsFirst) ↔
        StuckInOrder tables dependencies parentsFirst) := by
  have hgraph : (dependencyGraph tables dependencies parentsFirst).WellFormed :=
    dependencyGraph_wellFormed dependencies .empty
  have hpush : ∀ (queue : List Text) (table : Text), (queue ++ [table]).Perm (table :: queue) :=
    fun queue table => perm_append_singleton table queue
  have hedges : ∀ u v, (dependencyGraph tables dependencies parentsFirst).Edge u v →
      u ∈ tables ∧ v ∈ tables := fun u v h => ((edge_iff u v).mp h).mem
  have hedge : (dependencyGraph tables dependencies parentsFirst).Edge =
      Before tables dependencies parentsFirst := by
    funext u v
    exact propext (edge_iff u v)
  rw [sortTableNames_eq hnodup]
  refine ⟨perm_withRest hpush hgraph hedges hnodup, ?_⟩
  refine forall₅_congr fun child parent hdependency hne hcycle => ?_
  cases parentsFirst with
  | true =>
    have hbefore : Before tables dependencies true parent child := hdependency
    rw [← hedge]
    exact pair_sublist_withRest_iff hpush hgraph hedges hnodup ((edge_iff _ _).mpr hbefore)
  | false =>
    have hbefore : Before tables dependencies false child parent := hdependency
    rw [← hedge]
    exact pair_sublist_withRest_iff hpush hgraph hedges hnodup ((edge_iff _ _).mpr hbefore)

end Sorted

/-- A table that refers to itself, before one that refers to it. -/
theorem sortTableNames_respects_ordered :
    Respects (["nodes", "leaves"].map toList)
      ([("nodes", "nodes"), ("leaves", "nodes")].map fun names => (names.1.toList, names.2.toList))
      true
      (sortTableNamesByDependencies (["nodes", "leaves"].map toList)
        ([("nodes", "nodes"), ("leaves", "nodes")].map fun names =>
          (names.1.toList, names.2.toList)) true) := by
  refine (sortTableNames_respects_iff (by decide +kernel)).2.mpr ?_
  rintro child parent ⟨hmem, -⟩ hne - -
  simp only [map_cons, map_nil, mem_cons, Prod.mk.injEq, not_mem_nil, or_false] at hmem
  rcases hmem with ⟨rfl, rfl⟩ | ⟨rfl, rfl⟩
  · exact absurd rfl hne
  · exact List.Sublist.refl _

/-- A table that refers to itself is left behind with the tables that refer to it. -/
theorem not_respects_selfReference :
    ¬ Respects (["leaves", "nodes"].map toList)
      ([("nodes", "nodes"), ("leaves", "nodes")].map fun names => (names.1.toList, names.2.toList))
      true
      (sortTableNamesByDependencies (["leaves", "nodes"].map toList)
        ([("nodes", "nodes"), ("leaves", "nodes")].map fun names =>
          (names.1.toList, names.2.toList)) true) := by
  intro h
  have hsorted : sortTableNamesByDependencies (["leaves", "nodes"].map toList)
      ([("nodes", "nodes"), ("leaves", "nodes")].map fun names =>
        (names.1.toList, names.2.toList)) true = ["leaves", "nodes"].map toList := by
    decide +kernel
  rw [hsorted] at h
  have hpair := h "leaves".toList "nodes".toList (by unfold Dependency; decide +kernel)
    (by decide +kernel) ?_
  · exact absurd hpair (by decide +kernel)
  · -- the dependencies of the table that refers to itself lead nowhere else
    intro hpath
    have hclosed : ∀ table, ReflTransGen (Dependency (["leaves", "nodes"].map toList)
        ([("nodes", "nodes"), ("leaves", "nodes")].map fun names =>
          (names.1.toList, names.2.toList))) "nodes".toList table → table = "nodes".toList := by
      intro table hpath
      induction hpath with
      | refl => rfl
      | tail _ hstep ih =>
        subst ih
        have hmem := hstep.1
        simp only [map_cons, map_nil, mem_cons, Prod.mk.injEq, not_mem_nil, or_false] at hmem
        rcases hmem with ⟨-, rfl⟩ | ⟨-, rfl⟩
        · rfl
        · rfl
    exact absurd (hclosed _ hpath) (by decide +kernel)

end Sorting

end Dbx.Transfer
