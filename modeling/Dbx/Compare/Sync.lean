import Dbx.Compare.Rows
import Dbx.Table.Statements

/-!
# Synchronisation of two tables

From the comparison of a source and a target table the statements are made that turn the target
into the source: inserts of the added rows, updates of the modified rows and deletes of the removed
rows, each in batches. A batch of updates is one statement with a `CASE` for each changed column; a
row is found by comparing its key columns with literals. Statements are syntax trees here whose
literals are the values themselves, and comparisons follow three-valued logic, so a comparison with
`NULL` is never true.

## Main definitions

* `SyncStatement`, `generateDataSyncStatements`: the statements of a plan
* `execute`, `executeAll`: their effect on a table

## Main results

* `flatten_chunks`: the batches of a list are the list
* `updates_matched`, `updates_unmatched`: what batches of updates make of one row
* `executeAll_deletes`: what batches of deletes make of a table
-/

namespace Dbx.Compare

open List

open Table (and3)

variable {V : Type} (J : JsonType V)

/-! ### The statements -/

/-- `DATA_SYNC_INSERT_BATCH_SIZE`. -/
def dataSyncInsertBatchSize : Nat := 500

/-- `DATA_SYNC_CONDITION_BATCH_SIZE`. -/
def dataSyncConditionBatchSize : Nat := 200

/-- The consecutive parts of a list, of the given size but for the last; `fuel` bounds their
number. -/
def chunksFrom {α : Type} (size : Nat) : Nat → List α → List (List α)
  | _, [] => []
  | 0, _ => []
  | fuel + 1, list => list.take size :: chunksFrom size fuel (list.drop size)

/-- `par_chunks`. -/
def chunks {α : Type} (size : Nat) (list : List α) : List (List α) :=
  chunksFrom size list.length list

/-- A column of the target table: its name and extra attributes. -/
structure ColumnInfo where
  name : Text
  extra : Option Text
  deriving DecidableEq, Repr

/-- `column_info_for`. -/
def columnInfoFor (columns : List ColumnInfo) (name : Text) : Option ColumnInfo :=
  columns.find? fun column => Text.toAsciiLowercase column.name = Text.toAsciiLowercase name

/-- `is_non_identity_generated_column`. -/
def isNonIdentityGeneratedColumn (columnInfo : Option ColumnInfo) : Bool :=
  let extra := Text.toAsciiLowercase ((columnInfo.bind (·.extra)).getD [])
  Text.containsText extra "generated always as".toList && !Text.containsText extra "identity".toList

/-- `GenerateDataSyncSqlOptions`, without the names of the table and the dialect. -/
structure SyncOptions (V : Type) where
  columns : List Text
  keyColumns : List Text
  columnInfo : List ColumnInfo
  diff : DataCompareResult V

def SyncOptions.isWritable (options : SyncOptions V) (column : Text) : Bool :=
  !isNonIdentityGeneratedColumn (columnInfoFor options.columnInfo column)

/-- A conjunction of comparisons of columns with literals. -/
abbrev KeyPredicate (V : Type) := List (Text × V)

/-- The right side of an assignment: a literal, or `CASE` with the column itself after `ELSE`. -/
inductive Assigned (V : Type)
  | literal (value : V)
  | caseWhen (cases : List (KeyPredicate V × V))

/-- A statement of the plan; the conditions of a `WHERE` are joined by `OR`. -/
inductive SyncStatement (V : Type)
  | insertDefaults
  | insert (columns : List Text) (rows : List (List V))
  | update (assignments : List (Text × Assigned V)) (conditions : List (KeyPredicate V))
  | delete (conditions : List (KeyPredicate V))

/-- `where_by_key`. -/
def whereByKey (keyValues : Text → Option V) (keyColumns : List Text) : KeyPredicate V :=
  keyColumns.map fun column => (column, (keyValues column).getD J.null)

variable (options : SyncOptions V)

/-- `generate_insert_sync_statements`. -/
def generateInsertSyncStatements : List (SyncStatement V) :=
  let writableColumns := options.columns.filter options.isWritable
  if writableColumns.isEmpty then options.diff.added.map fun _ => .insertDefaults
  else
    (chunks dataSyncInsertBatchSize options.diff.added).map fun chunk =>
      .insert writableColumns (chunk.map fun row =>
        writableColumns.map fun column => (row.values column).getD J.null)

/-- `generate_single_update_statement`. -/
def generateSingleUpdateStatement (row : DataCompareModifiedRow V) : SyncStatement V :=
  .update ((row.changes.filter (options.isWritable ·.column)).map fun change =>
      (change.column, .literal change.source))
    [whereByKey J row.keyValues options.keyColumns]

/-- The writable columns that some row of a batch changes. -/
def changedColumns (chunk : List (DataCompareModifiedRow V)) : List Text :=
  (options.columns.filter options.isWritable).filter fun column =>
    chunk.any fun row => row.changes.any (·.column = column)

/-- The statement of a batch of updates. -/
def generateBatchUpdateStatement (chunk : List (DataCompareModifiedRow V)) : SyncStatement V :=
  .update ((changedColumns options chunk).map fun column =>
      (column, .caseWhen (chunk.filterMap fun row =>
        (row.changes.find? (·.column = column)).map fun change =>
          (whereByKey J row.keyValues options.keyColumns, change.source))))
    (chunk.map fun row => whereByKey J row.keyValues options.keyColumns)

/-- The statements of a batch of updates. -/
def chunkStatements (chunk : List (DataCompareModifiedRow V)) : List (SyncStatement V) :=
  match chunk with
  | [row] => [generateSingleUpdateStatement J options row]
  | chunk =>
    if (changedColumns options chunk).isEmpty then []
    else [generateBatchUpdateStatement J options chunk]

/-- `generate_update_sync_statements`. -/
def generateUpdateSyncStatements : List (SyncStatement V) :=
  -- `has_writable_changes`
  let writableRows := options.diff.modified.filter fun row =>
    row.changes.any (options.isWritable ·.column)
  (chunks dataSyncConditionBatchSize writableRows).flatMap (chunkStatements J options)

/-- `generate_delete_sync_statements`; a batch of one row needs no parentheses. -/
def generateDeleteSyncStatements : List (SyncStatement V) :=
  (chunks dataSyncConditionBatchSize options.diff.removed).map fun chunk =>
    .delete (chunk.map fun row => whereByKey J row.keyValues options.keyColumns)

/-- `generate_data_sync_statements`, without the resets of sequences, which change no row. -/
def generateDataSyncStatements : List (SyncStatement V) :=
  generateInsertSyncStatements J options ++ generateUpdateSyncStatements J options ++
    generateDeleteSyncStatements J options

/-! ### Their effect -/

abbrev TableRow (V : Type) := Text → V

/-- The value is `NULL`. -/
def isNull (value : V) : Bool := J.eq value J.null

/-- The comparison of two values, unknown when one is `NULL`. -/
def equals (a b : V) : Option Bool := if isNull J a || isNull J b then none else some (J.eq a b)

/-- SQL disjunction. -/
def or3 : Option Bool → Option Bool → Option Bool
  | some true, _ | _, some true => some true
  | some false, some false => some false
  | _, _ => none

def keyTruth (row : TableRow V) (predicate : KeyPredicate V) : Option Bool :=
  predicate.foldr (fun part => and3 (equals J (row part.1) part.2)) (some true)

def holds (row : TableRow V) (predicate : KeyPredicate V) : Bool :=
  keyTruth J row predicate = some true

/-- The row meets a `WHERE`. -/
def meets (row : TableRow V) (conditions : List (KeyPredicate V)) : Bool :=
  conditions.foldr (fun condition => or3 (keyTruth J row condition)) (some false) = some true

/-- The value assigned to a column of a row. -/
def assignedValue (row : TableRow V) (column : Text) : Assigned V → V
  | .literal value => value
  | .caseWhen cases => ((cases.find? (holds J row ·.1)).map Prod.snd).getD (row column)

/-- The row after the assignments. -/
def assign (assignments : List (Text × Assigned V)) (row : TableRow V) : TableRow V := fun column =>
  (insertAll (assignments.map fun a => (a.1, assignedValue J row a.1 a.2)) (fun _ => none)
    column).getD (row column)

/-- The effect of a statement on a table whose columns have default values. -/
def execute (defaults : TableRow V) (table : List (TableRow V)) :
    SyncStatement V → List (TableRow V)
  | .insertDefaults => table ++ [defaults]
  | .insert columns rows => table ++ rows.map fun row column =>
      (insertAll (columns.zip row) (fun _ => none) column).getD (defaults column)
  | .update assignments conditions =>
    table.map fun row => if meets J row conditions then assign J assignments row else row
  | .delete conditions => table.filter fun row => !meets J row conditions

/-- The effect of a plan. -/
def executeAll (defaults : TableRow V) (statements : List (SyncStatement V))
    (table : List (TableRow V)) : List (TableRow V) :=
  statements.foldl (execute J defaults) table

/-! ### Predicates -/

variable {row : TableRow V}

variable {conditions : List (KeyPredicate V)}

section Predicates

variable {J}

/-- A map made of the values of a function. -/
theorem insertAll_of_eq {β : Type} {f : Text → β} {entries : List (Text × β)}
    (h : ∀ entry ∈ entries, entry.2 = f entry.1) (map : Text → Option β)
    (hmap : ∀ column value, map column = some value → value = f column) (column : Text) :
    insertAll entries map column =
      if column ∈ entries.map Prod.fst then some (f column) else map column := by
  induction entries generalizing map with
  | nil => simp [insertAll]
  | cons entry entries ih =>
    have hentry := h entry (by simp)
    simp only [insertAll, foldl_cons] at ih ⊢
    rw [ih (fun entry hentry => h entry (by simp [hentry]))]
    · by_cases hcolumn : column = entry.1
      · subst hcolumn
        simp [hentry]
      · simp only [map_cons, mem_cons, hcolumn, false_or, Function.update_of_ne, ne_eq,
          not_false_eq_true]
    · intro column' value hvalue
      by_cases hcolumn : column' = entry.1
      · subst hcolumn
        simpa [hentry, eq_comm] using hvalue
      · exact hmap column' value (by simpa [hcolumn] using hvalue)

variable {columns keyColumns : List Text}

theorem keyValuesForRow_of_mem (row : List V) {column : Text} (h : column ∈ keyColumns) :
    keyValuesForRow J columns keyColumns row column = some (cell J columns row column) := by
  rw [keyValuesForRow, insertAll_of_eq (f := cell J columns row) (by simp) _ (by simp)]
  simp [h]

theorem or3_eq_true {a b : Option Bool} : or3 a b = some true ↔ a = some true ∨ b = some true := by
  rcases a with _ | _ | _ <;> rcases b with _ | _ | _ <;> simp [or3]

theorem meets_iff : meets J row conditions ↔ ∃ condition ∈ conditions, holds J row condition := by
  simp only [meets, holds, decide_eq_true_eq]
  induction conditions with
  | nil => simp
  | cons condition conditions ih => simp [or3_eq_true, ih]

theorem holds_iff {predicate : KeyPredicate V} :
    holds J row predicate ↔ ∀ part ∈ predicate, equals J (row part.1) part.2 = some true := by
  unfold holds keyTruth
  rw [decide_eq_true_iff]
  exact Table.foldr_and3_eq_true

theorem equals_eq_true {a b : V} :
    equals J a b = some true ↔ isNull J a = false ∧ isNull J b = false ∧ J.eq a b := by
  unfold equals
  cases isNull J a <;> cases isNull J b <;> simp

theorem holds_whereByKey_iff {values : List V} :
    holds J row (whereByKey J (keyValuesForRow J columns keyColumns values) keyColumns) ↔
      ∀ column ∈ keyColumns, isNull J (row column) = false ∧
        isNull J (cell J columns values column) = false ∧
        J.eq (row column) (cell J columns values column) := by
  simp only [holds_iff, whereByKey, forall_mem_map, equals_eq_true]
  refine forall₂_congr fun column hcolumn => ?_
  rw [keyValuesForRow_of_mem values hcolumn, Option.getD_some]

end Predicates

/-! ### Batches -/

theorem flatten_chunksFrom {α : Type} {size : Nat} (hsize : 0 < size) (fuel : Nat) (list : List α)
    (h : list.length ≤ fuel) : (chunksFrom size fuel list).flatten = list := by
  induction fuel generalizing list with
  | zero =>
    obtain rfl : list = [] := length_eq_zero_iff.mp (by omega)
    rfl
  | succ fuel ih =>
    cases list with
    | nil => rfl
    | cons first list =>
      have hdrop : ((first :: list).drop size).length ≤ fuel := by
        rw [length_drop]
        omega
      rw [chunksFrom, flatten_cons, ih _ hdrop, take_append_drop]
      simp

/-- The batches together are the list. -/
theorem flatten_chunks {α : Type} {size : Nat} (hsize : 0 < size) (list : List α) :
    (chunks size list).flatten = list :=
  flatten_chunksFrom hsize list.length list le_rfl

section Updates

variable {J} {options}

/-- What a statement makes of one row. -/
def rowEffect (J : JsonType V) (row : TableRow V) : SyncStatement V → TableRow V
  | .update assignments conditions => if meets J row conditions then assign J assignments row else
      row
  | _ => row

/-- The row meets the predicate of a modified row. -/
def Matches (J : JsonType V) (options : SyncOptions V) (row : TableRow V)
    (modified : DataCompareModifiedRow V) : Prop :=
  holds J row (whereByKey J modified.keyValues options.keyColumns) = true

/-- The row with the source values of a modified row in its changed columns. -/
def applied (J : JsonType V) (modified : DataCompareModifiedRow V) (row : TableRow V) :
    TableRow V := fun column =>
  if modified.changes.any (·.column = column) then (modified.sourceValues column).getD J.null
  else row column

/-- A modified row as the comparison reports it: it has changes, in columns that are compared,
writable and no key columns, and they hold its source values. -/
structure Reported (J : JsonType V) (options : SyncOptions V)
    (modified : DataCompareModifiedRow V) : Prop where
  nonempty : modified.changes ≠ []
  column : ∀ change ∈ modified.changes, change.column ∈ options.columns
  writable : ∀ change ∈ modified.changes, options.isWritable change.column = true
  notKey : ∀ change ∈ modified.changes, change.column ∉ options.keyColumns
  source : ∀ change ∈ modified.changes,
    change.source = (modified.sourceValues change.column).getD J.null

variable {modified : DataCompareModifiedRow V}

theorem applied_of_ne {column : Text} (h : ∀ change ∈ modified.changes, change.column ≠ column) :
    applied J modified row column = row column := by
  rw [applied, if_neg (by simpa using h)]

/-- A row keeps its key values, so it meets the same predicates as before. -/
theorem matches_applied {modified other : DataCompareModifiedRow V}
    (h : Reported J options modified) (row : TableRow V) :
    Matches J options (applied J modified row) other ↔ Matches J options row other := by
  unfold Matches
  rw [holds_iff, holds_iff]
  refine forall₂_congr fun part hpart => ?_
  obtain ⟨column, hcolumn, rfl⟩ := mem_map.mp hpart
  rw [applied_of_ne fun change hchange heq => h.notKey change hchange (heq ▸ hcolumn)]

/-- A single update of the row it is for. -/
theorem rowEffect_single (h : Reported J options modified)
    (hmatch : Matches J options row modified) :
    rowEffect J row (generateSingleUpdateStatement J options modified) =
      applied J modified row := by
  have hmeets : meets J row [whereByKey J modified.keyValues options.keyColumns] :=
    meets_iff.mpr ⟨_, by simp, hmatch⟩
  have hall : modified.changes.filter (options.isWritable ·.column) = modified.changes :=
    filter_eq_self.mpr h.writable
  rw [generateSingleUpdateStatement, rowEffect, if_pos hmeets, hall]
  funext column
  rw [assign, insertAll_of_eq]
  · simp only [applied, map_map, Function.comp_def, mem_map, any_eq_true, decide_eq_true_eq]
    split <;> rfl
  · intro entry hentry
    simp only [map_map, mem_map, Function.comp_apply] at hentry
    obtain ⟨change, hchange, rfl⟩ := hentry
    exact h.source change hchange
  · simp

variable {chunk : List (DataCompareModifiedRow V)} (hmem : modified ∈ chunk)
  (h : Reported J options modified) (hmatch : Matches J options row modified)
  (hunique : ∀ other ∈ chunk, Matches J options row other → other = modified)

include hmem h in
theorem mem_changedColumns {change : DataCompareChangedCell V}
    (hchange : change ∈ modified.changes) : change.column ∈ changedColumns options chunk := by
  simp only [changedColumns, mem_filter]
  refine ⟨⟨h.column change hchange, h.writable change hchange⟩, ?_⟩
  exact any_eq_true.mpr ⟨modified, hmem, any_eq_true.mpr ⟨change, hchange, by simp⟩⟩

include hmem h hmatch hunique in
/-- The value that `CASE` assigns to a column of a row that one row of the batch is for. -/
theorem assignedValue_case (column : Text) :
    assignedValue J row column (.caseWhen (chunk.filterMap fun other =>
      (other.changes.find? (·.column = column)).map fun change =>
        (whereByKey J other.keyValues options.keyColumns, change.source))) =
      applied J modified row column := by
  rw [assignedValue]
  set cases := chunk.filterMap fun other => (other.changes.find? (·.column = column)).map
    fun change => (whereByKey J other.keyValues options.keyColumns, change.source) with hcases
  cases hfind : cases.find? (holds J row ·.1) with
  | none =>
    -- no case is true, so the row for which the batch is made does not change the column
    have hunchanged : modified.changes.find? (·.column = column) = none := by
      cases hchange : modified.changes.find? (·.column = column) with
      | none => rfl
      | some change =>
        have hcase : (whereByKey J modified.keyValues options.keyColumns, change.source) ∈ cases :=
          mem_filterMap.mpr ⟨modified, hmem, by simp [hchange]⟩
        exact absurd hmatch (find?_eq_none.mp hfind _ hcase)
    exact (applied_of_ne (by simpa using hunchanged)).symm
  | some found =>
    -- a true case is that of the row for which the batch is made
    have hholds := find?_some hfind
    obtain ⟨other, hother, hfound⟩ := mem_filterMap.mp (mem_of_find?_eq_some hfind)
    obtain ⟨change, hchange, rfl⟩ := Option.map_eq_some_iff.mp hfound
    obtain rfl := hunique other hother hholds
    have hcolumn : change.column = column := by simpa using find?_some hchange
    have hmemChange := mem_of_find?_eq_some hchange
    have hany : other.changes.any (·.column = column) :=
      any_eq_true.mpr ⟨change, hmemChange, by simpa using hcolumn⟩
    have hsource := h.source change hmemChange
    simp [applied, hany, hsource, hcolumn]

include hmem h hmatch hunique in
/-- A batch of updates, for the row that one row of the batch is for. -/
theorem rowEffect_batch :
    rowEffect J row (generateBatchUpdateStatement J options chunk) = applied J modified row := by
  have hmeets : meets J row (chunk.map fun row =>
      whereByKey J row.keyValues options.keyColumns) :=
    meets_iff.mpr ⟨_, mem_map_of_mem hmem, hmatch⟩
  rw [generateBatchUpdateStatement, rowEffect, if_pos hmeets]
  funext column
  rw [assign, insertAll_of_eq (f := applied J modified row)]
  · split
    · rfl
    · next hcolumn =>
      -- a column that the row changes is among the changed columns
      refine (applied_of_ne fun change hchange heq => hcolumn ?_).symm
      simp only [map_map, mem_map]
      exact ⟨column, heq ▸ mem_changedColumns hmem h hchange, rfl⟩
  · intro entry hentry
    simp only [map_map, mem_map, Function.comp_apply] at hentry
    obtain ⟨column, -, rfl⟩ := hentry
    exact assignedValue_case hmem h hmatch hunique column
  · simp

theorem rowEffect_of_not_meets {assignments : List (Text × Assigned V)}
    (h : ∀ condition ∈ conditions, ¬ holds J row condition) :
    rowEffect J row (.update assignments conditions) = row := by
  rw [rowEffect, if_neg]
  rw [meets_iff]
  rintro ⟨condition, hcondition, hholds⟩
  exact h condition hcondition hholds

/-- The statements of a batch, for a row that no row of the batch is for. -/
theorem chunkStatements_unmatched (h : ∀ modified ∈ chunk, ¬ Matches J options row modified) :
    (chunkStatements J options chunk).foldl (rowEffect J) row = row := by
  unfold chunkStatements
  split
  · next modified =>
    rw [foldl_cons]
    exact rowEffect_of_not_meets (by simpa [Matches] using h)
  · split
    · rfl
    · rw [foldl_cons]
      exact rowEffect_of_not_meets (by simpa [Matches] using h)

include hmem h hmatch hunique in
/-- The statements of a batch, for the row that one row of the batch is for. -/
theorem chunkStatements_matched :
    (chunkStatements J options chunk).foldl (rowEffect J) row = applied J modified row := by
  unfold chunkStatements
  split
  · next single =>
    obtain rfl : modified = single := by simpa using hmem
    exact rowEffect_single h hmatch
  split
  · next hempty =>
    -- the row has a change, so its column is among the changed columns
    obtain ⟨change, hchange⟩ := exists_mem_of_ne_nil _ h.nonempty
    have hcolumn := mem_changedColumns hmem h hchange
    rw [List.isEmpty_iff] at hempty
    simp [hempty] at hcolumn
  · exact rowEffect_batch hmem h hmatch hunique

variable {parts : List (List (DataCompareModifiedRow V))}

/-- All updates, for a row that no modified row is for. -/
theorem updates_unmatched (h : ∀ modified ∈ parts.flatten, ¬ Matches J options row modified) :
    (parts.flatMap (chunkStatements J options)).foldl (rowEffect J) row = row := by
  induction parts with
  | nil => rfl
  | cons chunk parts ih =>
    rw [flatMap_cons, foldl_append, chunkStatements_unmatched]
    · exact ih fun modified hmodified => h modified (by simp [hmodified])
    · exact fun modified hmodified => h modified (by simp [hmodified])

/-- All updates, for the row that one modified row is for. -/
theorem updates_matched (hmem : modified ∈ parts.flatten)
    (h : Reported J options modified) (hmatch : Matches J options row modified)
    (hunique : ∀ other ∈ parts.flatten, Matches J options row other → other = modified)
    (hnodup : parts.flatten.Nodup) :
    (parts.flatMap (chunkStatements J options)).foldl (rowEffect J) row =
      applied J modified row := by
  induction parts with
  | nil => simp at hmem
  | cons chunk parts ih =>
    rw [flatten_cons, nodup_append] at hnodup
    rw [flatMap_cons, foldl_append]
    by_cases hchunk : modified ∈ chunk
    · -- this batch updates the row, and no later one is for it
      rw [chunkStatements_matched hchunk h hmatch
        fun other hother => hunique other (by simp [hother])]
      refine updates_unmatched fun other hother hmatches => ?_
      rw [matches_applied h] at hmatches
      obtain rfl := hunique other (by simp [mem_flatten.mp hother]) hmatches
      exact hnodup.2.2 other hchunk other hother rfl
    · rw [chunkStatements_unmatched]
      · refine ih ?_ (fun other hother => hunique other (by simp [mem_flatten.mp hother]))
          hnodup.2.1
        simpa [hchunk] using hmem
      · intro other hother hmatches
        exact hchunk (hunique other (by simp [hother]) hmatches ▸ hother)

/-- Statements that only update act on each row by itself. -/
theorem executeAll_updates {defaults : TableRow V} {statements : List (SyncStatement V)}
    (h : ∀ statement ∈ statements, ∃ assignments conditions,
      statement = .update assignments conditions) (table : List (TableRow V)) :
    executeAll J defaults statements table =
      table.map fun row => statements.foldl (rowEffect J) row := by
  induction statements generalizing table with
  | nil => simp [executeAll]
  | cons statement statements ih =>
    obtain ⟨assignments, conditions, rfl⟩ := h statement (by simp)
    rw [executeAll]
    change executeAll J defaults statements _ = _
    rw [ih (fun statement hstatement => h statement (by simp [hstatement])), execute, map_map]
    rfl

/-- Deletes in batches delete the rows that a removed row is for. -/
theorem executeAll_deletes {defaults : TableRow V} (parts : List (List (DataCompareRow V)))
    (table : List (TableRow V)) :
    executeAll J defaults (parts.map fun chunk =>
        .delete (chunk.map fun row => whereByKey J row.keyValues options.keyColumns)) table =
      table.filter fun row => !parts.flatten.any fun removed =>
        holds J row (whereByKey J removed.keyValues options.keyColumns) := by
  induction parts generalizing table with
  | nil => simp [executeAll]
  | cons chunk parts ih =>
    rw [map_cons, executeAll, foldl_cons]
    change executeAll J defaults _ _ = _
    rw [ih, execute, filter_filter]
    refine filter_congr fun row _ => ?_
    have hmeets : meets J row (chunk.map fun row => whereByKey J row.keyValues options.keyColumns) =
        chunk.any fun removed =>
          holds J row (whereByKey J removed.keyValues options.keyColumns) := by
      rw [Bool.eq_iff_iff, meets_iff]
      simp
    rw [hmeets, flatten_cons, any_append, Bool.not_or, Bool.and_comm]

end Updates

end Dbx.Compare
