import Dbx.Compare.Sync
import Dbx.Json.Equality

/-!
# The plan of a comparison

Executed on the target table, the plan of a comparison is to make the keys and rows of the source.
It does so unless a row that it has to update or delete has a `NULL` in its key: the predicate that
is to find the row compares the key column with `NULL` and finds nothing.

## Main results

* `holds_key_iff`: what a key predicate finds
* `mem_executeAll_iff`: the rows of the table after the plan
* `synced_iff_nullFree`: the plan turns the target into the source exactly when the rows it has to
  update or delete have no `NULL` in their keys
-/

namespace Dbx.Compare

open List
open Function (comp_apply)

variable {V : Type} (J : JsonType V)

/-! ### What a plan has to achieve -/

variable (comparison : CompareDataRowsOptions V)

/-- The key of a row of a table. -/
def tableKey (row : TableRow V) : Text :=
  intercalate [Json.unitSeparator] (comparison.keyColumns.map fun column =>
    J.stringify (row column))

/-- A row of a table has the values of a list of values, in the compared columns. -/
def Represents (row : TableRow V) (values : List V) : Prop :=
  ∀ column ∈ comparison.columns, row column = cell J comparison.columns values column

/-- The map from the keys of a table to its rows is that of the source rows: no key occurs twice,
the keys are those of the source rows, and a row is equal to the source row with its key in every
compared column. -/
structure Synced (table : List (TableRow V)) : Prop where
  nodup : (table.map (tableKey J comparison)).Nodup
  keys : ∀ key, key ∈ table.map (tableKey J comparison) ↔
    key ∈ comparison.sourceRows.map (comparison.key J)
  rows : ∀ row ∈ table, ∀ source ∈ comparison.sourceRows,
    tableKey J comparison row = comparison.key J source →
      ∀ column ∈ comparison.columns,
        J.eq (row column) (cell J comparison.columns source column) = true

/-- No key value of the row is `NULL`. -/
def KeyComplete (row : List V) : Prop :=
  ∀ column ∈ comparison.keyColumns, isNull J (cell J comparison.columns row column) = false

/-- A target row is there in the source, with equal values. -/
def Unchanged (target : List V) : Prop :=
  ∃ source ∈ comparison.sourceRows, comparison.key J source = comparison.key J target ∧
    ∀ column, ¬ comparison.Differ J source target column

/-- No target row that has to be updated or deleted has a `NULL` in its key. -/
def NullFree : Prop :=
  ∀ target ∈ comparison.targetRows, KeyComplete J comparison target ∨ Unchanged J comparison target

/-- Key values that are equal have one text. -/
def KeysFaithful : Prop :=
  ∀ row ∈ comparison.sourceRows ++ comparison.targetRows,
    ∀ row' ∈ comparison.sourceRows ++ comparison.targetRows, ∀ column ∈ comparison.keyColumns,
      J.eq (cell J comparison.columns row column) (cell J comparison.columns row' column) = true →
        J.stringify (cell J comparison.columns row column) =
          J.stringify (cell J comparison.columns row' column)

/-! ### The plan of a comparison -/

section Plan

variable {J} {c : CompareDataRowsOptions V}

/-- The options with which the plan of a comparison is made. -/
def CompareDataRowsOptions.plan (J : JsonType V) (comparison : CompareDataRowsOptions V)
    (columnInfo : List ColumnInfo) : SyncOptions V :=
  ⟨comparison.columns, comparison.keyColumns, columnInfo, comparison.diff J⟩

/-- The row that an insert makes of a source row. -/
def insertedRow (J : JsonType V) (comparison : CompareDataRowsOptions V) (defaults : TableRow V)
    (source : List V) : TableRow V := fun column =>
  if column ∈ comparison.columns then cell J comparison.columns source column else defaults column

theorem represents_insertedRow (defaults : TableRow V) (source : List V) :
    Represents J c (insertedRow J c defaults source) source :=
  fun column hcolumn => by simp [insertedRow, hcolumn]

theorem zip_map_self {α β : Type} (f : α → β) (list : List α) :
    list.zip (list.map f) = list.map fun a => (a, f a) := by
  induction list with
  | nil => rfl
  | cons a list ih => simp [ih]

theorem executeAll_append (defaults : TableRow V) (first second : List (SyncStatement V))
    (table : List (TableRow V)) :
    executeAll J defaults (first ++ second) table =
      executeAll J defaults second (executeAll J defaults first table) := by
  simp [executeAll]

theorem rowObject_getD (columns : List Text) (row : List V) (column : Text) :
    (rowObject J columns row column).getD J.null = cell J columns row column := by
  rw [rowObject_eq, cell]

section Writable

variable {columnInfo : List ColumnInfo} {defaults : TableRow V} (hwritable : ∀ column ∈ c.columns,
    (c.plan J columnInfo).isWritable column)

include hwritable in
/-- Inserts in batches append the added rows. -/
theorem executeAll_inserts (hcolumns : c.columns ≠ []) (table : List (TableRow V)) :
    executeAll J defaults (generateInsertSyncStatements J (c.plan J columnInfo)) table =
      table ++ (c.sourceRows.filter (c.isAlone J c.targetRows)).map (insertedRow J c defaults) := by
  have hall : (c.plan J columnInfo).columns.filter (c.plan J columnInfo).isWritable = c.columns :=
    filter_eq_self.mpr hwritable
  -- one statement appends the rows of its batch
  have hexecute (parts : List (List (DataCompareRow V))) (table : List (TableRow V)) :
      executeAll J defaults (parts.map fun chunk => .insert c.columns (chunk.map fun row =>
        c.columns.map fun column => (row.values column).getD J.null)) table =
      table ++ parts.flatten.map fun row column =>
        if column ∈ c.columns then (row.values column).getD J.null
        else defaults column := by
    induction parts generalizing table with
    | nil => simp [executeAll]
    | cons chunk parts ih =>
      rw [map_cons, executeAll, foldl_cons]
      change executeAll J defaults _ _ = _
      rw [ih, execute, flatten_cons, map_append, append_assoc, map_map]
      congr 2
      refine map_congr_left fun row _ => funext fun column => ?_
      rw [comp_apply, zip_map_self,
        insertAll_of_eq (f := fun column => (row.values column).getD J.null) (by simp) _ (by simp)]
      by_cases hcolumn : column ∈ c.columns <;> simp [hcolumn]
  have hne : ¬ c.columns.isEmpty := by simpa using hcolumns
  simp only [generateInsertSyncStatements, hall]
  rw [if_neg hne, hexecute, flatten_chunks (by decide)]
  congr 1
  rw [CompareDataRowsOptions.plan, CompareDataRowsOptions.diff, map_map]
  refine map_congr_left fun source _ => funext fun column => ?_
  simp [compareRow, insertedRow, rowObject_getD]

variable {source target : List V}

/-- What the comparison reports of a change. -/
theorem mem_changesBetween {columns keyColumns : List Text} {change : DataCompareChangedCell V}
    (h : change ∈ changesBetween J columns keyColumns source target) :
    change.column ∈ columns ∧ change.column ∉ keyColumns ∧
      change.source = cell J columns source change.column := by
  obtain ⟨column, hcolumn, hchange⟩ := mem_filterMap.mp h
  obtain ⟨index, hindex, hchange⟩ := Option.bind_eq_some_iff.mp hchange
  obtain ⟨hmem, hkey⟩ : column ∈ columns ∧ column ∉ keyColumns := by simpa using hcolumn
  split at hchange <;> cases hchange
  exact ⟨hmem, hkey, by simp [cell, hindex]⟩

include hwritable in
/-- The modified rows are reported with their changes. -/
theorem reported_of_mem {modified : DataCompareModifiedRow V} (h : modified ∈ (c.diff J).modified) :
    Reported J (c.plan J columnInfo) modified := by
  obtain ⟨source, -, target, -, hdiffer, rfl⟩ := mem_diff_modified.mp h
  refine ⟨?_, ?_, ?_, ?_, ?_⟩
  · have hne := (isEmpty_changesBetween _ _).mpr hdiffer
    intro hempty
    simp only [modifiedRow] at hempty
    simp [hempty] at hne
  · exact fun change hchange => (mem_changesBetween hchange).1
  · exact fun change hchange => hwritable _ (mem_changesBetween hchange).1
  · exact fun change hchange => (mem_changesBetween hchange).2.1
  · intro change hchange
    simp only [modifiedRow, rowObject_getD]
    exact (mem_changesBetween hchange).2.2

/-- The update statements of a plan, for one row. -/
def updatedRow (J : JsonType V) (options : SyncOptions V) (row : TableRow V) : TableRow V :=
  (generateUpdateSyncStatements J options).foldl (rowEffect J) row

include hwritable in
/-- The updates of a plan are the batches of its modified rows. -/
theorem generateUpdateSyncStatements_eq :
    generateUpdateSyncStatements J (c.plan J columnInfo) =
      (chunks dataSyncConditionBatchSize (c.diff J).modified).flatMap
        (chunkStatements J (c.plan J columnInfo)) := by
  have hall : (c.diff J).modified.filter (fun row => row.changes.any
      ((c.plan J columnInfo).isWritable ·.column)) = (c.diff J).modified := by
    refine filter_eq_self.mpr fun modified hmodified => ?_
    have hreported := reported_of_mem hwritable hmodified
    obtain ⟨change, hchange⟩ := exists_mem_of_ne_nil _ hreported.nonempty
    exact any_eq_true.mpr ⟨change, hchange, hreported.writable change hchange⟩
  unfold generateUpdateSyncStatements
  change flatMap _ (chunks _ ((c.diff J).modified.filter _)) = _
  rw [hall]

include hwritable in
/-- The table after the plan: the target rows and the added rows, updated, without those that a
removed row is for. -/
theorem executeAll_plan (hcolumns : c.columns ≠ []) (table : List (TableRow V)) :
    executeAll J defaults (generateDataSyncStatements J (c.plan J columnInfo)) table =
      ((table ++ (c.sourceRows.filter (c.isAlone J c.targetRows)).map
        (insertedRow J c defaults)).map (updatedRow J (c.plan J columnInfo))).filter fun row =>
        !(c.diff J).removed.any fun removed =>
          holds J row (whereByKey J removed.keyValues c.keyColumns) := by
  have hupdates (table : List (TableRow V)) : executeAll J defaults
      (generateUpdateSyncStatements J (c.plan J columnInfo)) table =
        table.map (updatedRow J (c.plan J columnInfo)) := by
    refine executeAll_updates (fun statement hstatement => ?_) table
    rw [generateUpdateSyncStatements_eq hwritable] at hstatement
    obtain ⟨chunk, -, hchunk⟩ := mem_flatMap.mp hstatement
    unfold chunkStatements at hchunk
    split at hchunk
    · exact ⟨_, _, mem_singleton.mp hchunk⟩
    · split at hchunk
      · simp at hchunk
      · exact ⟨_, _, mem_singleton.mp hchunk⟩
  rw [generateDataSyncStatements, executeAll_append, executeAll_append,
    executeAll_inserts hwritable hcolumns, hupdates, generateDeleteSyncStatements,
    executeAll_deletes, flatten_chunks (by decide)]
  rfl

end Writable

/-! ### Keys -/

/-- A row of a table has the key values of a list of values. -/
def RepresentsKey (J : JsonType V) (comparison : CompareDataRowsOptions V) (row : TableRow V)
    (values : List V) : Prop :=
  ∀ column ∈ comparison.keyColumns, row column = cell J comparison.columns values column

theorem tableKey_eq {row : TableRow V} {values : List V} (h : RepresentsKey J c row values) :
    tableKey J c row = c.key J values := by
  unfold tableKey CompareDataRowsOptions.key keyForRow keyTexts
  congr 1
  exact map_congr_left fun column hcolumn => by rw [h column hcolumn]

theorem eq_of_key {row row' : List V} (h : c.key J row = c.key J row') {column : Text}
    (hcolumn : column ∈ c.keyColumns) :
    J.eq (cell J c.columns row column) (cell J c.columns row' column) := by
  have htexts := (keyForRow_eq_iff row row').mp h
  exact J.eq_of_stringify _ _ (map_inj_left.mp htexts column hcolumn)

theorem isNull_congr {a b : V} (h : J.eq a b) : isNull J a = isNull J b := by
  rw [Bool.eq_iff_iff]
  exact ⟨fun ha => J.eq_trans b a J.null (J.eq_symm a b h) ha,
    fun hb => J.eq_trans a b J.null h hb⟩

theorem keyComplete_congr {row row' : List V} (h : c.key J row = c.key J row') :
    KeyComplete J c row ↔ KeyComplete J c row' :=
  forall₂_congr fun column hcolumn => by rw [isNull_congr (eq_of_key h hcolumn)]

/-- **What a key predicate finds**: the rows with the key, unless it has a `NULL`. -/
theorem holds_key_iff (hfaithful : KeysFaithful J c) {row : TableRow V}
    {values other : List V} (hrow : RepresentsKey J c row values)
    (hvalues : values ∈ c.sourceRows ++ c.targetRows)
    (hother : other ∈ c.sourceRows ++ c.targetRows) :
    holds J row (whereByKey J (keyValuesForRow J c.columns c.keyColumns other) c.keyColumns) ↔
      c.key J values = c.key J other ∧ KeyComplete J c other := by
  rw [holds_whereByKey_iff]
  constructor
  · intro h
    refine ⟨?_, fun column hcolumn => (h column hcolumn).2.1⟩
    -- equal key values have one text
    refine (keyForRow_eq_iff values other).mpr ?_
    refine map_congr_left fun column hcolumn => ?_
    refine hfaithful values hvalues other hother column hcolumn ?_
    rw [← hrow column hcolumn]
    exact (h column hcolumn).2.2
  · rintro ⟨hkey, hcomplete⟩ column hcolumn
    have heq := eq_of_key hkey hcolumn
    rw [hrow column hcolumn, isNull_congr heq]
    exact ⟨hcomplete column hcolumn, hcomplete column hcolumn, heq⟩

/-- What the results about a plan share: distinct keys on both sides, key columns that are compared,
writable columns, and faithful keys. -/
structure Planned (J : JsonType V) (comparison : CompareDataRowsOptions V)
    (columnInfo : List ColumnInfo) : Prop where
  source : (comparison.sourceRows.map (comparison.key J)).Nodup
  target : (comparison.targetRows.map (comparison.key J)).Nodup
  keys : ∀ column ∈ comparison.keyColumns, column ∈ comparison.columns
  writable : ∀ column ∈ comparison.columns,
    (comparison.plan J columnInfo).isWritable column = true
  faithful : KeysFaithful J comparison

variable {columnInfo : List ColumnInfo} (h : Planned J c columnInfo)

section Updated

variable {row : TableRow V} {values : List V} (hrow : RepresentsKey J c row values)
  (hvalues : values ∈ c.sourceRows ++ c.targetRows)

include h hrow hvalues

theorem matches_modifiedRow_iff (hsource : source ∈ c.sourceRows) :
    Matches J (c.plan J columnInfo) row (modifiedRow J c.columns
        c.keyColumns (c.key J source) source target) ↔
      c.key J values = c.key J source ∧ KeyComplete J c source :=
  holds_key_iff h.faithful hrow hvalues (by simp [hsource])

/-- The updates leave a row alone that no modified row with a complete key is for. -/
theorem updatedRow_of_unmatched (hnone : ∀ source ∈ c.sourceRows, c.key J values = c.key J source →
      KeyComplete J c source → ∀ target ∈ c.targetRows, c.key J target = c.key J source →
          ∀ column, ¬ c.Differ J source target column) :
    updatedRow J (c.plan J columnInfo) row = row := by
  rw [updatedRow, generateUpdateSyncStatements_eq h.writable]
  refine updates_unmatched fun modified hmodified hmatches => ?_
  rw [flatten_chunks (by decide)] at hmodified
  obtain ⟨source, hsource, target, hfind, ⟨column, hdiffer⟩, rfl⟩ := mem_diff_modified.mp hmodified
  obtain ⟨hkey, hcomplete⟩ := (matches_modifiedRow_iff h hrow hvalues hsource).mp hmatches
  have htargetKey : c.key J target = c.key J source := by
    simpa using find?_some hfind
  exact hnone source hsource hkey hcomplete target (mem_of_find?_eq_some hfind) htargetKey
    column hdiffer

/-- The updates give a row the source values of the modified row that is for it. -/
theorem updatedRow_of_matched (hsource : source ∈ c.sourceRows) (htarget : target ∈ c.targetRows)
    (hsourceKey : c.key J values = c.key J source)
    (htargetKey : c.key J target = c.key J source)
    (hcomplete : KeyComplete J c source)
    (hdiffer : ∃ column, c.Differ J source target column) :
    updatedRow J (c.plan J columnInfo) row =
      applied J (modifiedRow J c.columns c.keyColumns (c.key J source) source target) row := by
  have hfind : c.targetRows.find? (c.key J · = c.key J source) =
      some target := htargetKey ▸ find?_key_of_mem h.target htarget
  have hmem : modifiedRow J c.columns c.keyColumns (c.key J source)
      source target ∈ (c.diff J).modified :=
    mem_diff_modified.mpr ⟨source, hsource, target, hfind, hdiffer, rfl⟩
  have hkeys : ((c.diff J).modified.map (·.key)).Nodup := h.source.sublist modified_keys_sublist
  rw [updatedRow, generateUpdateSyncStatements_eq h.writable]
  apply updates_matched
  · rwa [flatten_chunks (by decide)]
  · exact reported_of_mem h.writable hmem
  · exact (matches_modifiedRow_iff h hrow hvalues hsource).mpr ⟨hsourceKey, hcomplete⟩
  · -- another row that is for it has the same key
    intro other hother hmatches
    rw [flatten_chunks (by decide)] at hother
    refine inj_on_of_nodup_map hkeys hother hmem ?_
    obtain ⟨source', hsource', target', -, -, rfl⟩ := mem_diff_modified.mp hother
    obtain ⟨hkey, -⟩ := (matches_modifiedRow_iff h hrow hvalues hsource').mp hmatches
    exact hkey.symm.trans hsourceKey
  · rw [flatten_chunks (by decide)]
    exact List.Nodup.of_map _ hkeys

/-- The updates keep the key of a row. -/
theorem representsKey_updatedRow :
    RepresentsKey J c (updatedRow J (c.plan J columnInfo) row) values := by
  by_cases hmatched : ∃ source ∈ c.sourceRows,
      c.key J values = c.key J source ∧ KeyComplete J c source ∧
        ∃ target ∈ c.targetRows, c.key J target = c.key J source ∧
          ∃ column, c.Differ J source target column
  · obtain ⟨source, hsource, hkey, hcomplete, target, htarget, htargetKey, hdiffer⟩ := hmatched
    rw [updatedRow_of_matched h hrow hvalues hsource htarget hkey htargetKey hcomplete hdiffer]
    intro column hcolumn
    -- the changes are in other columns
    rw [applied_of_ne, hrow column hcolumn]
    intro change hchange heq
    exact (mem_changesBetween hchange).2.1 (heq ▸ hcolumn)
  · rw [updatedRow_of_unmatched h hrow hvalues]
    · exact hrow
    · intro source hsource hkey hcomplete target htarget htargetKey column hdiffer
      exact hmatched ⟨source, hsource, hkey, hcomplete, target, htarget, htargetKey, column,
        hdiffer⟩

/-- The deletes spare a row exactly when no target row with its key has to be deleted, or the key
has a `NULL`. -/
theorem any_removed_iff :
    (c.diff J).removed.any (fun removed => holds J row (whereByKey J removed.keyValues
        c.keyColumns)) ↔
      ∃ target ∈ c.targetRows, c.isAlone J c.sourceRows target ∧
        c.key J values = c.key J target ∧ KeyComplete J c target := by
  simp only [CompareDataRowsOptions.diff, any_eq_true, mem_map, mem_filter, compareRow]
  constructor
  · rintro ⟨_, ⟨target, ⟨htarget, halone⟩, rfl⟩, hholds⟩
    exact ⟨target, htarget, halone,
      (holds_key_iff h.faithful hrow hvalues (by simp [htarget])).mp hholds⟩
  · rintro ⟨target, htarget, halone, hkey⟩
    exact ⟨_, ⟨target, ⟨htarget, halone⟩, rfl⟩,
      (holds_key_iff h.faithful hrow hvalues (by simp [htarget])).mpr hkey⟩

end Updated

/-! ### The table after the plan -/

section Final

variable {defaults : TableRow V} {stored : List V → TableRow V}
  (hstored : ∀ target ∈ c.targetRows, Represents J c (stored target) target)

include h in
theorem representsKey_insertedRow (source : List V) :
    RepresentsKey J c (insertedRow J c defaults source) source :=
  fun column hcolumn => represents_insertedRow defaults source column (h.keys column hcolumn)

include h in
theorem updatedRow_insertedRow (hsource : source ∈ c.sourceRows)
    (halone : c.isAlone J c.targetRows source) :
    updatedRow J (c.plan J columnInfo) (insertedRow J c defaults source) =
      insertedRow J c defaults source := by
  refine updatedRow_of_unmatched h (representsKey_insertedRow h source) (by simp [hsource]) ?_
  intro source' _ hkey _ target htarget htargetKey
  exact absurd (htargetKey.trans hkey.symm) (isAlone_iff.mp halone target htarget)

include h hstored in
theorem representsKey_stored (htarget : target ∈ c.targetRows) :
    RepresentsKey J c (stored target) target :=
  fun column hcolumn => hstored target htarget column (h.keys column hcolumn)

/-- A target row stays: it is in the source, or its key has a `NULL`. -/
def Stays (J : JsonType V) (comparison : CompareDataRowsOptions V) (target : List V) : Prop :=
  ¬ (comparison.isAlone J comparison.sourceRows target = true ∧ KeyComplete J comparison target)

include h hstored in
/-- **The table after the plan** holds the target rows that stay, updated, and the added rows. -/
theorem mem_executeAll_iff (hcolumns : c.columns ≠ []) (row : TableRow V) :
    row ∈ executeAll J defaults (generateDataSyncStatements J (c.plan J columnInfo))
        (c.targetRows.map stored) ↔
      (∃ target ∈ c.targetRows, Stays J c target ∧
        updatedRow J (c.plan J columnInfo) (stored target) = row) ∨
      ∃ source ∈ c.sourceRows, c.isAlone J c.targetRows source ∧
          insertedRow J c defaults source = row := by
  rw [executeAll_plan h.writable hcolumns, map_append, filter_append, mem_append, map_map, map_map]
  refine or_congr ?_ ?_
  · simp only [mem_filter, mem_map, comp_apply, Bool.not_eq_true']
    -- a row is deleted when the target row it is stored for is alone and has a complete key
    have hdeleted {target : List V} (htarget : target ∈ c.targetRows) :
        (c.diff J).removed.any (fun removed => holds J (updatedRow J
          (c.plan J columnInfo) (stored target)) (whereByKey J removed.keyValues
            c.keyColumns)) = false ↔ Stays J c target := by
      have hmem : target ∈ c.sourceRows ++ c.targetRows := by simp [htarget]
      have hrepresents := representsKey_updatedRow h (representsKey_stored h hstored htarget) hmem
      rw [← Bool.not_eq_true, any_removed_iff h hrepresents hmem, Stays, not_iff_not]
      constructor
      · rintro ⟨target', htarget', halone, hkey, hcomplete⟩
        obtain rfl := inj_on_of_nodup_map h.target htarget htarget' hkey
        exact ⟨halone, hcomplete⟩
      · rintro ⟨halone, hcomplete⟩
        exact ⟨target, htarget, halone, rfl, hcomplete⟩
    constructor
    · rintro ⟨⟨target, htarget, rfl⟩, hkept⟩
      exact ⟨target, htarget, (hdeleted htarget).mp hkept, rfl⟩
    · rintro ⟨target, htarget, hstays, rfl⟩
      exact ⟨⟨target, htarget, rfl⟩, (hdeleted htarget).mpr hstays⟩
  · simp only [mem_filter, mem_map, comp_apply, Bool.not_eq_true']
    -- an added row is neither updated nor deleted
    have hkept {source : List V} (hsource : source ∈ c.sourceRows) :
        (c.diff J).removed.any (fun removed => holds J (insertedRow J c defaults
          source) (whereByKey J removed.keyValues c.keyColumns)) = false := by
      rw [← Bool.not_eq_true,
        any_removed_iff h (representsKey_insertedRow h source) (by simp [hsource])]
      rintro ⟨target, -, halone, hkey, -⟩
      exact isAlone_iff.mp halone source hsource hkey
    constructor
    · rintro ⟨⟨source, ⟨hsource, halone⟩, rfl⟩, -⟩
      exact ⟨source, hsource, halone, (updatedRow_insertedRow h hsource halone).symm⟩
    · rintro ⟨source, hsource, halone, rfl⟩
      refine ⟨⟨source, ⟨hsource, halone⟩, updatedRow_insertedRow h hsource halone⟩, ?_⟩
      exact hkept hsource

include h hstored in
theorem tableKey_updatedRow (htarget : target ∈ c.targetRows) :
    tableKey J c (updatedRow J (c.plan J columnInfo) (stored target)) = c.key J target :=
  tableKey_eq (representsKey_updatedRow h (representsKey_stored h hstored htarget)
    (by simp [htarget]))

include h in
theorem tableKey_insertedRow (source : List V) :
    tableKey J c (insertedRow J c defaults source) = c.key J source :=
  tableKey_eq (representsKey_insertedRow h source)

include h hstored in
/-- No key occurs twice after the plan. -/
theorem nodup_executeAll (hcolumns : c.columns ≠ []) :
    ((executeAll J defaults (generateDataSyncStatements J (c.plan J columnInfo))
      (c.targetRows.map stored)).map (tableKey J c)).Nodup := by
  rw [executeAll_plan h.writable hcolumns]
  refine List.Nodup.sublist (filter_sublist.map _) ?_
  -- the keys are those of the target rows and of the source rows without a partner
  have hkeys : ((c.targetRows.map stored ++ (c.sourceRows.filter
      (c.isAlone J c.targetRows)).map (insertedRow J c defaults)).map
        (updatedRow J (c.plan J columnInfo))).map (tableKey J c) =
      c.targetRows.map (c.key J) ++ (c.sourceRows.filter
        (c.isAlone J c.targetRows)).map (c.key J) := by
    simp only [map_append, map_map]
    congr 1
    · exact map_congr_left fun target htarget => tableKey_updatedRow h hstored htarget
    · refine map_congr_left fun source hsource => ?_
      obtain ⟨hmem, halone⟩ := mem_filter.mp hsource
      rw [comp_apply, comp_apply, updatedRow_insertedRow h hmem halone, tableKey_insertedRow h]
  rw [hkeys, nodup_append]
  refine ⟨h.target, h.source.sublist (filter_sublist.map _), ?_⟩
  intro key hkey key' hkey' heq
  obtain ⟨target, htarget, rfl⟩ := mem_map.mp hkey
  obtain ⟨source, hsource, rfl⟩ := mem_map.mp hkey'
  exact isAlone_iff.mp (mem_filter.mp hsource).2 target htarget heq

theorem not_isAlone_iff {rows : List (List V)} {row : List V} : c.isAlone J rows row = false ↔
      ∃ other ∈ rows, c.key J other = c.key J row := by
  rw [← Bool.not_eq_true, isAlone_iff]
  simp

include h hstored in
/-- A target row with a partner has the values of its partner after the plan, if it was unchanged or
its key has no `NULL`. -/
theorem eq_updatedRow (hsource : source ∈ c.sourceRows) (htarget : target ∈ c.targetRows)
    (hkey : c.key J target = c.key J source)
    (hfree : KeyComplete J c target ∨ Unchanged J c target) {column : Text}
    (hcolumn : column ∈ c.columns) :
    J.eq (updatedRow J (c.plan J columnInfo) (stored target) column)
      (cell J c.columns source column) := by
  have hmem : target ∈ c.sourceRows ++ c.targetRows := by simp [htarget]
  have hrow := representsKey_stored h hstored htarget
  -- in a column without a difference the values are equal already
  have hsame (hdiffer : ¬ c.Differ J source target column) :
      J.eq (cell J c.columns target column) (cell J c.columns source column) := by
    by_cases hkeyColumn : column ∈ c.keyColumns
    · exact eq_of_key hkey hkeyColumn
    · refine J.eq_symm _ _ ?_
      by_contra hne
      exact hdiffer ⟨hcolumn, hkeyColumn, by simpa using hne⟩
  by_cases hdiffers : ∃ column, c.Differ J source target column
  · -- a changed row has a complete key and is updated
    have hcomplete : KeyComplete J c source := by
      rcases hfree with hcomplete | ⟨source', hsource', hkey', hunchanged⟩
      · exact (keyComplete_congr hkey).mp hcomplete
      · obtain rfl := inj_on_of_nodup_map h.source hsource hsource' (hkey.symm.trans hkey'.symm)
        obtain ⟨column', hdiffer⟩ := hdiffers
        exact absurd hdiffer (hunchanged column')
    rw [updatedRow_of_matched h hrow hmem hsource htarget hkey hkey hcomplete hdiffers, applied]
    split
    · rw [modifiedRow, rowObject_getD]
      exact J.eq_refl _
    next hchange =>
    rw [hstored target htarget column hcolumn]
    apply hsame
    intro hdiffer
    -- a differing column is among the changes
    have hmemColumn : column ∈ (changesBetween J c.columns c.keyColumns source
        target).map (·.column) := by
      rw [map_column_changesBetween, mem_filter]
      exact ⟨hcolumn, by simpa using hdiffer⟩
    obtain ⟨change, hmemChange, heq⟩ := mem_map.mp hmemColumn
    exact hchange (any_eq_true.mpr ⟨change, hmemChange, by simpa using heq⟩)
  · rw [updatedRow_of_unmatched h hrow hmem, hstored target htarget column hcolumn]
    · exact hsame fun hdiffer => hdiffers ⟨column, hdiffer⟩
    · intro source' hsource' hkey' _ target' htarget' htargetKey' column' hdiffer
      obtain rfl := inj_on_of_nodup_map h.source hsource hsource' (hkey.symm.trans hkey')
      obtain rfl := inj_on_of_nodup_map h.target htarget htarget' (hkey.trans htargetKey'.symm)
      exact hdiffers ⟨column', hdiffer⟩

end Final

end Plan

/-- **The plan turns the target into the source exactly when the rows it has to update or delete
have no `NULL` in their keys**, for every comparison that succeeds, with key columns among the
compared columns, writable columns, and key values that have one text when they are equal. -/
theorem synced_iff_nullFree {result : DataCompareResult V}
    (hcompare : compareDataRows J comparison = .ok result) (columnInfo : List ColumnInfo)
    (hkeys : ∀ column ∈ comparison.keyColumns, column ∈ comparison.columns)
    (hwritable : ∀ column ∈ comparison.columns,
      isNonIdentityGeneratedColumn (columnInfoFor columnInfo column) = false)
    (hfaithful : KeysFaithful J comparison) (defaults : TableRow V) (stored : List V → TableRow V)
    (hstored : ∀ target ∈ comparison.targetRows, Represents J comparison (stored target) target) :
    Synced J comparison (executeAll J defaults (generateDataSyncStatements J
        ⟨comparison.columns, comparison.keyColumns, columnInfo, result⟩)
          (comparison.targetRows.map stored)) ↔
      NullFree J comparison := by
  obtain ⟨⟨hne, hsource, htarget⟩, rfl⟩ := (compareDataRows_eq_ok_iff result).mp hcompare
  have h : Planned J comparison columnInfo :=
    ⟨hsource, htarget, hkeys, by simpa [SyncOptions.isWritable,
      CompareDataRowsOptions.plan] using hwritable,
      hfaithful⟩
  have hcolumns : comparison.columns ≠ [] := by
    obtain ⟨column, hcolumn⟩ := exists_mem_of_ne_nil _ hne
    exact ne_nil_of_mem (hkeys column hcolumn)
  change Synced J comparison (executeAll J defaults (generateDataSyncStatements J
    (comparison.plan J columnInfo)) (comparison.targetRows.map stored)) ↔ _
  constructor
  · intro hsynced target htargetMem
    by_cases hcomplete : KeyComplete J comparison target
    · exact .inl hcomplete
    -- a row with a NULL in its key stays as it is, so it has to be in the source
    have hmem : target ∈ comparison.sourceRows ++ comparison.targetRows := by simp [htargetMem]
    have hrow := representsKey_stored h hstored htargetMem
    have hupdated : updatedRow J (comparison.plan J columnInfo) (stored target) =
        stored target := by
      refine updatedRow_of_unmatched h hrow hmem fun source _ hkey hsourceComplete => ?_
      exact absurd ((keyComplete_congr hkey).mpr hsourceComplete) hcomplete
    have hfinal : stored target ∈ executeAll J defaults (generateDataSyncStatements J
        (comparison.plan J columnInfo)) (comparison.targetRows.map stored) :=
      (mem_executeAll_iff h hstored hcolumns _).mpr
        (.inl ⟨target, htargetMem, fun hstays => hcomplete hstays.2, hupdated⟩)
    obtain ⟨source, hsourceMem, hkey⟩ := mem_map.mp
      ((hsynced.keys _).mp (mem_map_of_mem hfinal))
    rw [tableKey_eq hrow] at hkey
    refine .inr ⟨source, hsourceMem, hkey, fun column hdiffer => ?_⟩
    have heq := hsynced.rows _ hfinal source hsourceMem (by rw [tableKey_eq hrow, hkey]) column
      hdiffer.1
    rw [hstored target htargetMem column hdiffer.1] at heq
    exact absurd (J.eq_symm _ _ heq) (by simp [hdiffer.2.2])
  · intro hfree
    refine ⟨nodup_executeAll h hstored hcolumns, fun key => ?_, ?_⟩
    · constructor
      · intro hkey
        obtain ⟨row, hrow, rfl⟩ := mem_map.mp hkey
        rcases (mem_executeAll_iff h hstored hcolumns row).mp hrow with
          ⟨target, htargetMem, hstays, rfl⟩ | ⟨source, hsourceMem, -, rfl⟩
        · rw [tableKey_updatedRow h hstored htargetMem, mem_map]
          rcases hfree target htargetMem with hcomplete | ⟨source, hsourceMem, hkey, -⟩
          · -- it stays and its key is complete, so it has a partner
            have halone : comparison.isAlone J comparison.sourceRows target = false := by
              by_contra hne
              exact hstays ⟨by simpa using hne, hcomplete⟩
            exact not_isAlone_iff.mp halone
          · exact ⟨source, hsourceMem, hkey⟩
        · rw [tableKey_insertedRow h]
          exact mem_map_of_mem hsourceMem
      · intro hkey
        obtain ⟨source, hsourceMem, rfl⟩ := mem_map.mp hkey
        rw [mem_map]
        cases halone : comparison.isAlone J comparison.targetRows source with
        | true =>
          exact ⟨_, (mem_executeAll_iff h hstored hcolumns _).mpr
            (.inr ⟨source, hsourceMem, halone, rfl⟩), tableKey_insertedRow h source⟩
        | false =>
          obtain ⟨target, htargetMem, hkey⟩ := not_isAlone_iff.mp halone
          refine ⟨_, (mem_executeAll_iff h hstored hcolumns _).mpr
            (.inl ⟨target, htargetMem, fun hstays => ?_, rfl⟩), ?_⟩
          · exact isAlone_iff.mp hstays.1 source hsourceMem hkey.symm
          · rw [tableKey_updatedRow h hstored htargetMem, hkey]
    · intro row hrow source hsourceMem hkey column hcolumn
      rcases (mem_executeAll_iff h hstored hcolumns row).mp hrow with
        ⟨target, htargetMem, -, rfl⟩ | ⟨source', hsourceMem', -, rfl⟩
      · rw [tableKey_updatedRow h hstored htargetMem] at hkey
        exact eq_updatedRow h hstored hsourceMem htargetMem hkey (hfree target htargetMem) hcolumn
      · rw [tableKey_insertedRow h] at hkey
        obtain rfl := inj_on_of_nodup_map hsource hsourceMem' hsourceMem hkey
        rw [represents_insertedRow defaults source' column hcolumn]
        exact J.eq_refl _

open Json (SerdeValue serdeJson)

/-- A cell of a boolean column. -/
def flag (b : Bool) : SerdeValue := ⟨.bool b, rfl⟩

/-- A row to update, a row to delete, and a row with a `NULL` key that stays as it is. -/
def flagsComparison : CompareDataRowsOptions SerdeValue where
  columns := ["id".toList, "flag".toList]
  keyColumns := ["id".toList]
  sourceRows := [[flag true, flag true], [serdeJson.null, flag false]]
  targetRows := [[flag true, flag false], [flag false, serdeJson.null],
    [serdeJson.null, flag false]]

theorem synced_flagsComparison :
    Synced serdeJson flagsComparison (executeAll serdeJson (fun _ => serdeJson.null)
      (generateDataSyncStatements serdeJson ⟨flagsComparison.columns, flagsComparison.keyColumns,
        [], flagsComparison.diff serdeJson⟩)
      (flagsComparison.targetRows.map fun row => cell serdeJson flagsComparison.columns row)) := by
  have hcompare : compareDataRows serdeJson flagsComparison =
      .ok (flagsComparison.diff serdeJson) :=
    (compareDataRows_eq_ok_iff _).mpr ⟨⟨by decide, by decide +kernel, by decide +kernel⟩, rfl⟩
  refine (synced_iff_nullFree serdeJson flagsComparison hcompare [] (by decide)
    (by decide +kernel) ?_ (fun _ => serdeJson.null) (cell serdeJson flagsComparison.columns)
    fun _ _ _ _ => rfl).mpr ?_
  · unfold KeysFaithful
    decide +kernel
  · -- the row with a NULL key is in the source with the same value
    intro target htarget
    simp only [flagsComparison, mem_cons, not_mem_nil, or_false] at htarget
    rcases htarget with rfl | rfl | rfl
    · exact .inl (by unfold KeyComplete; decide +kernel)
    · exact .inl (by unfold KeyComplete; decide +kernel)
    · refine .inr ⟨_, mem_cons_of_mem _ mem_cons_self, rfl, fun column hdiffer => ?_⟩
      have heq := serdeJson.eq_refl (cell serdeJson flagsComparison.columns
        [serdeJson.null, flag false] column)
      exact absurd (hdiffer.2.2.symm.trans heq) Bool.false_ne_true

/-- A target row with a `NULL` key that is not in the source. -/
def nullKeyComparison : CompareDataRowsOptions SerdeValue where
  columns := ["id".toList]
  keyColumns := ["id".toList]
  sourceRows := []
  targetRows := [[serdeJson.null]]

/-- **A row with a `NULL` key is never deleted**: `id = NULL` is true of no row, so the row is still
there after the plan, although the source has no row with its key. -/
theorem not_synced_nullKeyComparison :
    compareDataRows serdeJson nullKeyComparison = .ok (nullKeyComparison.diff serdeJson) ∧
      ¬ Synced serdeJson nullKeyComparison (executeAll serdeJson (fun _ => serdeJson.null)
        (generateDataSyncStatements serdeJson ⟨nullKeyComparison.columns,
          nullKeyComparison.keyColumns, [], nullKeyComparison.diff serdeJson⟩)
        (nullKeyComparison.targetRows.map
          fun row => cell serdeJson nullKeyComparison.columns row)) := by
  refine ⟨(compareDataRows_eq_ok_iff _).mpr ⟨⟨by decide, by decide, by decide⟩, rfl⟩, ?_⟩
  intro hsynced
  -- the row with the key `NULL` is still in the target
  have hnone := (hsynced.keys "null".toList).mp (by decide +kernel)
  simp [nullKeyComparison] at hnone

end Dbx.Compare
