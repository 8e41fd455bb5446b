import Dbx.Graph.Kahn
import Dbx.Text.Basic

/-!
# The order of schema differences

`order_diffs_for_execution` orders the differences between two schemas so that the statements for
them run one after the other: a table is created before the tables that refer to it, and dropped
behind them. The edges between the differences come from their foreign keys, and for views from
their text.

The differences that the sort does not reach keep the order of the caller. Those are the ones on a
cycle of edges, and also the ones that merely come behind it.
-/

namespace Dbx.Schema

open Dbx.Graph Relation Text List

/-- What happens to an object or a foreign key of the target. -/
inductive DiffType
  | added
  | removed
  | modified
  deriving DecidableEq, Repr

/-- `SchemaForeignKeyInfo`, of which the table that is referred to is read. -/
structure SchemaForeignKeyInfo where
  refTable : Text
  deriving DecidableEq, Repr

/-- `ForeignKeyDiff`. -/
structure ForeignKeyDiff where
  diffType : DiffType
  source : Option SchemaForeignKeyInfo
  target : Option SchemaForeignKeyInfo
  deriving DecidableEq, Repr

/-- `TableDiff`. -/
structure TableDiff where
  diffType : DiffType
  objectType : Option Text := none
  name : Text
  foreignKeys : Option (List ForeignKeyDiff) := none
  ddl : Option Text := none
  targetDdl : Option Text := none
  deriving DecidableEq, Repr

section Order

variable (toUppercase : Text → Text)

/-- The patterns of `extract_ddl_references` for a name in upper case. -/
def referencePatterns (table : Text) : List Text :=
  [" FROM ".toList ++ table, " JOIN ".toList ++ table, " INTO ".toList ++ table,
    " TABLE ".toList ++ table, " REFERENCES ".toList ++ table, " UPDATE ".toList ++ table,
    "DELETE FROM ".toList ++ table, "FROM ".toList ++ table ++ " (".toList,
    " ".toList ++ table ++ ".".toList]

/-- `extract_ddl_references`. -/
def extractDdlReferences (sql : Text) (knownTables : List Text) : List Text :=
  knownTables.filter fun table =>
    (referencePatterns (toUppercase table)).any (containsText (toUppercase sql))

/-- `push_unique`. -/
def pushUnique (names : List Text) (name : Text) : List Text :=
  if name.isEmpty || name ∈ names then names else names ++ [name]

/-- The side of a foreign key that owns its definition. -/
def ForeignKeyDiff.info (diffType : DiffType) (foreignKey : ForeignKeyDiff) :
    Option SchemaForeignKeyInfo :=
  match diffType with
  | .removed => foreignKey.target <|> foreignKey.source
  | _ => foreignKey.source <|> foreignKey.target

/-- `diff_referenced_objects`. -/
def diffReferencedObjects (diff : TableDiff) (known : List Text) : List Text :=
  let names := ((diff.foreignKeys.getD []).filterMap fun foreignKey =>
    (foreignKey.info diff.diffType).map (·.refTable)).foldl pushUnique []
  if diff.objectType = some "view".toList then
    match diff.ddl <|> diff.targetDdl with
    | some ddl =>
      -- quotes would hide the reference from the scan
      let unquoted := ddl.filter fun c => c ∉ ['\x60', '"', '[', ']']
      (extractDdlReferences toUppercase unquoted known).foldl pushUnique names
    | none => names
  else names

variable (diffs : List TableDiff)

/-- The last difference that creates or drops the object of a name. -/
def lastIndex (diffType : DiffType) (name : Text) : Option Nat :=
  (diffs.zipIdx.reverse.find? fun entry => entry.1.diffType = diffType && entry.1.name = name).map
    Prod.snd

def knownNames : List Text := (diffs.map (·.name)).dedup

/-- The edges of a difference: the first of two indices has to come before the second. -/
def edgesOf (diff : TableDiff) (index : Nat) : List (Nat × Nat) :=
  match diff.diffType with
  | .added =>
    (diffReferencedObjects toUppercase diff (knownNames diffs)).filterMap fun dependency =>
      (lastIndex diffs .added dependency).map fun parent => (parent, index)
  | .removed =>
    (diffReferencedObjects toUppercase diff (knownNames diffs)).filterMap fun dependency =>
      (lastIndex diffs .removed dependency).map fun parent => (index, parent)
  | .modified =>
    -- the statements for a modified table add and drop its foreign keys
    (diff.foreignKeys.getD []).filterMap fun foreignKey =>
      (foreignKey.info .modified).bind fun info =>
        match foreignKey.diffType with
        | .added => (lastIndex diffs .added info.refTable).map fun parent => (parent, index)
        | .removed => (lastIndex diffs .removed info.refTable).map fun parent => (index, parent)
        | .modified => none

/-- The edges of all differences, as they are added. -/
def orderingEdges : List (Nat × Nat) :=
  diffs.zipIdx.flatMap fun entry => edgesOf toUppercase diffs entry.1 entry.2

/-- `add_edge`. -/
def addOrderingEdge (graph : Draft Nat) (edge : Nat × Nat) : Draft Nat :=
  if edge.1 ≠ edge.2 then graph.addEdge edge else graph

def diffGraph : Draft Nat := (orderingEdges toUppercase diffs).foldl addOrderingEdge {}

/-- The differences in the order of their execution, by their indices. -/
def executionOrder : List Nat :=
  if diffs.all (·.diffType = .modified) then range diffs.length
  else withRest (kahn (fun ready index => ready.orderedInsert (· ≤ ·) index)
    (diffGraph toUppercase diffs) (range diffs.length)) (range diffs.length)

/-- `order_diffs_for_execution`. -/
def orderDiffsForExecution : List TableDiff :=
  (executionOrder toUppercase diffs).filterMap fun index => diffs[index]?

/-! ## The specification -/

def OrderingEdge (u v : Nat) : Prop := (u, v) ∈ orderingEdges toUppercase diffs ∧ u ≠ v

/-- **Every edge is respected unless its ends lie on a common cycle.** -/
def Respects (order : List Nat) : Prop :=
  ∀ u v, OrderingEdge toUppercase diffs u v →
    ¬ ReflTransGen (OrderingEdge toUppercase diffs) v u → [u, v].Sublist order

/-- An edge from a difference that lies on a cycle or behind one goes forward in the list. -/
def StuckForward : Prop :=
  ∀ u v, OrderingEdge toUppercase diffs u v → ¬ ReflTransGen (OrderingEdge toUppercase diffs) v u →
    Stuck (OrderingEdge toUppercase diffs) u → u < v

variable {toUppercase diffs}

/-! ## The edges -/

theorem lastIndex_lt {diffType : DiffType} {name : Text} {index : Nat}
    (h : lastIndex diffs diffType name = some index) :
    index < diffs.length ∧ ∃ diff ∈ diffs, diff.diffType = diffType := by
  obtain ⟨⟨diff, _⟩, hfind, rfl⟩ := Option.map_eq_some_iff.mp h
  have hmem := mem_reverse.mp (mem_of_find?_eq_some hfind)
  have hsome := find?_some hfind
  simp only [Bool.and_eq_true, decide_eq_true_eq] at hsome
  obtain ⟨-, hlt, hdiff⟩ := mem_zipIdx hmem
  refine ⟨by simpa using hlt, diff, ?_, hsome.1⟩
  rw [hdiff]
  exact getElem_mem _

/-- The ends of an edge are differences, and some difference creates or drops its object. -/
def EdgeEnds (diffs : List TableDiff) (u v : Nat) : Prop :=
  u < diffs.length ∧ v < diffs.length ∧ ∃ other ∈ diffs, other.diffType ≠ .modified

theorem mem_edgesOf {diff : TableDiff} {index : Nat} (hindex : index < diffs.length) {u v : Nat}
    (h : (u, v) ∈ edgesOf toUppercase diffs diff index) : EdgeEnds diffs u v := by
  have hadded {name : Text} (hsome : (lastIndex diffs .added name).map
      (fun parent => (parent, index)) = some (u, v)) : EdgeEnds diffs u v := by
    obtain ⟨parent, hlast, ⟨⟩⟩ := Option.map_eq_some_iff.mp hsome
    obtain ⟨hlt, other, hother, htype⟩ := lastIndex_lt hlast
    exact ⟨hlt, hindex, other, hother, by simp [htype]⟩
  have hremoved {name : Text} (hsome : (lastIndex diffs .removed name).map
      (fun parent => (index, parent)) = some (u, v)) : EdgeEnds diffs u v := by
    obtain ⟨parent, hlast, ⟨⟩⟩ := Option.map_eq_some_iff.mp hsome
    obtain ⟨hlt, other, hother, htype⟩ := lastIndex_lt hlast
    exact ⟨hindex, hlt, other, hother, by simp [htype]⟩
  unfold edgesOf at h
  split at h
  · obtain ⟨dependency, -, hsome⟩ := mem_filterMap.mp h
    exact hadded hsome
  · obtain ⟨dependency, -, hsome⟩ := mem_filterMap.mp h
    exact hremoved hsome
  · obtain ⟨foreignKey, -, hsome⟩ := mem_filterMap.mp h
    obtain ⟨info, -, hsome⟩ := Option.bind_eq_some_iff.mp hsome
    split at hsome
    · exact hadded hsome
    · exact hremoved hsome
    · cases hsome

theorem mem_orderingEdges {u v : Nat} (h : (u, v) ∈ orderingEdges toUppercase diffs) :
    EdgeEnds diffs u v := by
  obtain ⟨⟨diff, index⟩, hentry, hedge⟩ := mem_flatMap.mp h
  obtain ⟨-, hlt, -⟩ := mem_zipIdx hentry
  exact mem_edgesOf (by simpa using hlt) hedge

/-- The graph stays well formed. -/
theorem diffGraph_wellFormed (edges : List (Nat × Nat)) {graph : Draft Nat} (h : graph.WellFormed) :
    (edges.foldl addOrderingEdge graph).WellFormed := by
  induction edges generalizing graph with
  | nil => exact h
  | cons edge edges ih =>
    refine ih ?_
    unfold addOrderingEdge
    split
    · exact h.addEdge edge
    · exact h

/-- The edges of the graph: those it had, and those that are added. -/
theorem edge_foldl_iff (edges : List (Nat × Nat)) (graph : Draft Nat) (u v : Nat) :
    (edges.foldl addOrderingEdge graph).Edge u v ↔ ((u, v) ∈ edges ∧ u ≠ v) ∨ graph.Edge u v := by
  induction edges generalizing graph with
  | nil => simp
  | cons edge edges ih =>
    have hadd : (addOrderingEdge graph edge).Edge u v ↔
        ((u, v) = edge ∧ u ≠ v) ∨ graph.Edge u v := by
      unfold addOrderingEdge
      split
      · rw [Draft.Edge, Draft.mem_addEdge]
        grind [Draft.Edge]
      · grind
    rw [foldl_cons, ih, mem_cons]
    tauto

theorem edge_diffGraph : (diffGraph toUppercase diffs).Edge = OrderingEdge toUppercase diffs := by
  funext u v
  refine propext ?_
  rw [diffGraph, edge_foldl_iff]
  exact or_iff_left nofun

/-- The pairs of a list of numbers from zero. -/
theorem pair_sublist_range {u v n : Nat} (hv : v < n) : [u, v].Sublist (range n) ↔ u < v := by
  constructor
  · intro h
    have hpairwise := pairwise_lt_range.sublist h
    simpa using hpairwise
  · intro hlt
    obtain ⟨k, rfl⟩ := Nat.exists_eq_add_of_le (Nat.succ_le_of_lt hv)
    have hfirst : [u].Sublist (range v) := singleton_sublist.mpr (mem_range.mpr hlt)
    have hpair : [u, v].Sublist (range (v + 1)) := by
      rw [range_succ]
      exact hfirst.append (List.Sublist.refl [v])
    rw [range_add]
    exact hpair.trans (sublist_append_left _ _)

/-! ## The order -/

/-- The differences in a list of all indices. -/
theorem perm_filterMap_getElem? {order : List Nat} (h : order.Perm (range diffs.length)) :
    (order.filterMap fun index => diffs[index]?).Perm diffs := by
  refine (h.filterMap _).trans (List.Perm.of_eq ?_)
  have hmap : filterMap (fun index => diffs[index]?) (range diffs.length) =
      (finRange diffs.length).map diffs.get := by
    rw [← map_coe_finRange_eq_range, filterMap_map, ← filterMap_eq_map]
    refine filterMap_congr fun index _ => ?_
    simp
  rw [hmap, ← ofFn_eq_map, ofFn_get]

/-- **The order of schema differences.** The differences are returned, in the order of a permutation
of their indices, and it respects every edge whose ends do not lie on a common cycle if and only if
the edges among these go forward in the list that come from a cycle or from behind one. -/
theorem orderDiffs_respects_iff (toUppercase : Text → Text) (diffs : List TableDiff) :
    (orderDiffsForExecution toUppercase diffs).Perm diffs ∧
      (executionOrder toUppercase diffs).Perm (range diffs.length) ∧
      (Respects toUppercase diffs (executionOrder toUppercase diffs) ↔
        StuckForward toUppercase diffs) := by
  have hpush : ∀ (ready : List Nat) (index : Nat),
      (ready.orderedInsert (· ≤ ·) index).Perm (index :: ready) :=
    fun ready index => perm_orderedInsert _ index ready
  have hgraph : (diffGraph toUppercase diffs).WellFormed := diffGraph_wellFormed _ .empty
  have hedges : ∀ u v, (diffGraph toUppercase diffs).Edge u v →
      u ∈ range diffs.length ∧ v ∈ range diffs.length := by
    intro u v hedge
    rw [edge_diffGraph] at hedge
    obtain ⟨hu, hv, -⟩ := mem_orderingEdges hedge.1
    exact ⟨mem_range.mpr hu, mem_range.mpr hv⟩
  have horder : (executionOrder toUppercase diffs).Perm (range diffs.length) := by
    unfold executionOrder
    split
    · exact List.Perm.refl _
    · exact perm_withRest hpush hgraph hedges nodup_range
  refine ⟨perm_filterMap_getElem? horder, horder, ?_⟩
  refine forall₄_congr fun u v hedge hcycle => ?_
  obtain ⟨-, hv, other, hother, htype⟩ := mem_orderingEdges hedge.1
  have hchanged : ¬ diffs.all (·.diffType = .modified) = true := by
    intro hall
    exact htype (by simpa using all_eq_true.mp hall other hother)
  rw [executionOrder, if_neg hchanged, ← edge_diffGraph]
  rw [pair_sublist_withRest_iff hpush hgraph hedges nodup_range (edge_diffGraph ▸ hedge),
    pair_sublist_range hv]

/-- A new table with foreign keys to others. -/
def newTable (name : String) (parents : List String) : TableDiff where
  diffType := .added
  name := name.toList
  foreignKeys := some (parents.map fun parent => ⟨.added, some ⟨parent.toList⟩, none⟩)

/-- A table that refers to one of two tables which refer to each other is created before it. -/
theorem not_respects_behindCycle :
    let diffs := [newTable "audit" ["employees"], newTable "departments" ["employees"],
      newTable "employees" ["departments"]]
    ¬ Respects toAsciiUppercase diffs (executionOrder toAsciiUppercase diffs) := by
  intro diffs h
  have horder : executionOrder toAsciiUppercase diffs = [0, 1, 2] := by decide +kernel
  have hedges : orderingEdges toAsciiUppercase diffs = [(2, 0), (2, 1), (1, 2)] := by decide +kernel
  rw [horder] at h
  have hpair := h 2 0 ⟨by rw [hedges]; decide, by decide⟩ ?_
  · exact absurd hpair (by decide)
  · -- nothing comes behind the table that refers to the cycle
    intro hpath
    obtain heq | ⟨next, hedge, -⟩ := hpath.cases_head
    · cases heq
    have hmem := hedge.1
    rw [hedges] at hmem
    simp at hmem

end Order

end Dbx.Schema
