import Dbx.Json.Value
import Dbx.Keyed.Table

/-!
# Comparison of the rows of two tables

The rows of two tables are compared by key: the rows whose key is in the source only are added,
those whose key is in the target only removed, and those with a common key and a differing column
modified. The key of a row is the text of its key values, joined by unit separators.

## Main definitions

* `keyForRow`: the key of a row
* `collectCompareRows`: the rows of one side by their keys
* `compareDataRows`: the comparison

## Main results

* `keyForRow_eq_iff`: two rows have one key when their key values have the same texts
* `collectCompareRows_ok_iff`: what collecting returns, and when
* `compareDataRows_spec`: the comparison fails on an empty key list and on duplicate keys only, and
  finds exactly the added, removed and modified rows
-/

namespace Dbx.Compare

open Json List

variable {V : Type} (J : JsonType V)

/-! ### Rows and keys -/

open Function

/-- A map after the insertion of entries, one after the other. -/
def insertAll {β : Type} (entries : List (Text × β)) (map : Text → Option β) : Text → Option β :=
  entries.foldl (fun map entry => update map entry.1 (some entry.2)) map

/-- `column_index_map`: the index of a column, the last one where a name occurs twice. -/
def columnIndexMap (columns : List Text) : Text → Option Nat :=
  insertAll columns.zipIdx fun _ => none

/-- `row_value`. -/
def rowValue (row : List V) (index : Nat) : V := row.getD index J.null

def cell (columns : List Text) (row : List V) (column : Text) : V :=
  ((columnIndexMap columns column).map (rowValue J row)).getD J.null

def keyTexts (columns keyColumns : List Text) (row : List V) : List Text :=
  keyColumns.map fun column => J.stringify (cell J columns row column)

/-- `key_for_row`. -/
def keyForRow (columns keyColumns : List Text) (row : List V) : Text :=
  intercalate [unitSeparator] (keyTexts J columns keyColumns row)

/-- `normalize_row_len`. -/
def normalizeRowLen (row : List V) (columnLen : Nat) : List V :=
  if row.length < columnLen then row ++ replicate (columnLen - row.length) J.null else row

/-- `row_object`: later columns of a name replace earlier ones. -/
def rowObject (columns : List Text) (row : List V) : Text → Option V :=
  insertAll (columns.zipIdx.map fun column => (column.1, rowValue J row column.2)) fun _ => none

/-- `key_values_for_row`. -/
def keyValuesForRow (columns keyColumns : List Text) (row : List V) : Text → Option V :=
  insertAll (keyColumns.map fun column => (column, cell J columns row column)) fun _ => none

/-! ### The comparison -/

/-- `CompareDataRowsOptions`. -/
structure CompareDataRowsOptions (V : Type) where
  columns : List Text
  keyColumns : List Text
  sourceRows : List (List V)
  targetRows : List (List V)

/-- `DataCompareRow`. -/
structure DataCompareRow (V : Type) where
  key : Text
  keyValues : Text → Option V
  values : Text → Option V

/-- `DataCompareChangedCell`. -/
structure DataCompareChangedCell (V : Type) where
  column : Text
  source : V
  target : V

/-- `DataCompareModifiedRow`. -/
structure DataCompareModifiedRow (V : Type) where
  key : Text
  keyValues : Text → Option V
  sourceValues : Text → Option V
  targetValues : Text → Option V
  changes : List (DataCompareChangedCell V)

/-- `DataCompareResult`. -/
structure DataCompareResult (V : Type) where
  added : List (DataCompareRow V)
  removed : List (DataCompareRow V)
  modified : List (DataCompareModifiedRow V)

/-- The rows of one side by key, and the keys in the order of the rows. -/
structure CompareRows (V : Type) where
  items : Text → Option (List V)
  order : List Text

/-- `duplicate_key_error`. -/
def duplicateKeyError (label : Text) (keyColumns : List Text) (key : Text) : Text :=
  let columns := intercalate ", ".toList keyColumns
  let keyDisplay := if 1 < keyColumns.length then
      '[' :: intercalate ", ".toList (Text.splitOn (· = unitSeparator) key) ++ [']']
    else key
  "Duplicate ".toList ++ label ++ " key for column(s) [".toList ++ columns ++ "]: ".toList ++
    keyDisplay

/-- The loop of `collect_compare_rows`. -/
def collectFrom (columns keyColumns : List Text) (label : Text) (rows : CompareRows V) :
    List (List V) → Except Text (CompareRows V)
  | [] => .ok rows
  | row :: more =>
    let key := keyForRow J columns keyColumns row
    if (rows.items key).isSome then .error (duplicateKeyError label keyColumns key)
    else
      collectFrom columns keyColumns label
        { items := update rows.items key (some (normalizeRowLen J row columns.length))
          order := rows.order ++ [key] } more

/-- `collect_compare_rows`. -/
def collectCompareRows (columns keyColumns : List Text) (rows : List (List V)) (label : Text) :
    Except Text (CompareRows V) :=
  collectFrom J columns keyColumns label ⟨fun _ => none, []⟩ rows

/-- The changes between two rows, in the columns that are no key columns. -/
def changesBetween (columns keyColumns : List Text) (source target : List V) :
    List (DataCompareChangedCell V) :=
  (columns.filter (!keyColumns.contains ·)).filterMap fun column =>
    (columnIndexMap columns column).bind fun index =>
      if !J.eq (rowValue J source index) (rowValue J target index) then
        some ⟨column, rowValue J source index, rowValue J target index⟩
      else none

/-- The row that is reported for a key on one side only. -/
def compareRow (columns keyColumns : List Text) (key : Text) (row : List V) : DataCompareRow V :=
  ⟨key, keyValuesForRow J columns keyColumns row, rowObject J columns row⟩

/-- The row that is reported for a key on both sides. -/
def modifiedRow (columns keyColumns : List Text) (key : Text) (source target : List V) :
    DataCompareModifiedRow V :=
  ⟨key, keyValuesForRow J columns keyColumns source, rowObject J columns source,
    rowObject J columns target, changesBetween J columns keyColumns source target⟩

/-- `compare_data_rows`. -/
def compareDataRows (options : CompareDataRowsOptions V) : Except Text (DataCompareResult V) :=
  if options.keyColumns.isEmpty then
    .error "At least one key column is required for data comparison".toList
  else
    match collectCompareRows J options.columns options.keyColumns options.sourceRows
      "source".toList with
    | .error error => .error error
    | .ok source =>
      match collectCompareRows J options.columns options.keyColumns options.targetRows
        "target".toList with
      | .error error => .error error
      | .ok target =>
        .ok
          { added := source.order.filterMap fun key =>
              match source.items key, target.items key with
              | some row, none => some (compareRow J options.columns options.keyColumns key row)
              | _, _ => none
            removed := target.order.filterMap fun key =>
              match target.items key, source.items key with
              | some row, none => some (compareRow J options.columns options.keyColumns key row)
              | _, _ => none
            modified := source.order.filterMap fun key =>
              match source.items key, target.items key with
              | some row, some targetRow =>
                let modified := modifiedRow J options.columns options.keyColumns key row targetRow
                if modified.changes.isEmpty then none else some modified
              | _, _ => none }

/-! ### Columns and keys -/

variable {rows : List (List V)} {row : List V} {β : Type}

section Lemmas

variable {J} {columns keyColumns : List Text}

/-- Inserting images is inserting and mapping. -/
theorem insertAll_map {α β : Type} (f : α → β) (entries : List (Text × α)) (map : Text → Option α)
    (column : Text) :
    insertAll (entries.map fun entry => (entry.1, f entry.2)) (fun column => (map column).map f)
        column = (insertAll entries map column).map f := by
  induction entries generalizing map with
  | nil => rfl
  | cons entry entries ih =>
    -- one insertion commutes with the map
    have hstep : update (fun column => (map column).map f) entry.1 (some (f entry.2)) =
        fun column => (update map entry.1 (some entry.2) column).map f := by
      funext column'
      by_cases h : column' = entry.1
      · subst h
        simp
      · simp [h]
    simp only [map_cons, insertAll, foldl_cons] at ih ⊢
    rw [hstep]
    exact ih _

theorem rowObject_eq (columns : List Text) (row : List V) (column : Text) :
    rowObject J columns row column = (columnIndexMap columns column).map (rowValue J row) :=
  insertAll_map (rowValue J row) columns.zipIdx (fun _ => none) column

/-- A name is in the map when it is inserted, or was there before. -/
theorem isSome_insertAll (entries : List (Text × β)) (map : Text → Option β) (column : Text) :
    (insertAll entries map column).isSome ↔ (map column).isSome ∨
      column ∈ entries.map Prod.fst := by
  induction entries generalizing map with
  | nil => simp [insertAll]
  | cons entry entries ih =>
    simp only [insertAll, foldl_cons] at ih ⊢
    rw [ih]
    by_cases h : column = entry.1
    · simp [h]
    · simp [h]

theorem isSome_columnIndexMap {column : Text} :
    (columnIndexMap columns column).isSome ↔ column ∈ columns := by
  rw [columnIndexMap, isSome_insertAll]
  simp

/-- Filling a row up with nulls does not change its values. -/
@[simp] theorem rowValue_normalizeRowLen (row : List V) (columnLen index : Nat) :
    rowValue J (normalizeRowLen J row columnLen) index = rowValue J row index := by
  unfold normalizeRowLen rowValue
  split
  · rw [getD_eq_getElem?_getD, getD_eq_getElem?_getD, getElem?_append]
    split
    · rfl
    next hlength =>
    rw [getElem?_eq_none (by omega : row.length ≤ index), getElem?_replicate]
    split <;> rfl
  · rfl

@[simp] theorem cell_normalizeRowLen (row : List V) (columnLen : Nat) (column : Text) :
    cell J columns (normalizeRowLen J row columnLen) column = cell J columns row column := by
  unfold cell
  congr 2
  funext index
  simp

/-- Two rows have one key exactly when their key values have the same texts. -/
theorem keyForRow_eq_iff (row row' : List V) :
    keyForRow J columns keyColumns row = keyForRow J columns keyColumns row' ↔
      keyTexts J columns keyColumns row = keyTexts J columns keyColumns row' := by
  constructor
  · intro h
    cases keyColumns with
    | nil => rfl
    | cons column keyColumns =>
      -- splitting at the separators gives the texts back
      have split (row : List V) : splitOn unitSeparator
          (keyForRow J columns (column :: keyColumns) row) =
            keyTexts J columns (column :: keyColumns) row := by
        refine splitOn_intercalate unitSeparator ?_ ?_
        · intro text htext
          obtain ⟨column', -, rfl⟩ := mem_map.mp htext
          exact J.separator _
        · simp [keyTexts]
      rw [← split row, h, split row']
  · intro h
    rw [keyForRow, keyForRow, h]

theorem nodup_keys_iff (rows : List (List V)) :
    (rows.map (keyForRow J columns keyColumns)).Nodup ↔
      (rows.map (keyTexts J columns keyColumns)).Nodup := by
  simp only [List.Nodup, pairwise_map, ne_eq, keyForRow_eq_iff]

/-! ### Collecting the rows of one side -/

/-- The rows by key, after those before. -/
structure Collected (J : JsonType V) (columns keyColumns : List Text) (before : CompareRows V)
    (rows : List (List V)) (after : CompareRows V) : Prop where
  order : after.order = before.order ++ rows.map (keyForRow J columns keyColumns)
  items : ∀ key, after.items key =
    ((rows.find? (keyForRow J columns keyColumns · = key)).map
      (normalizeRowLen J · columns.length)).or (before.items key)

/-- The first of some rows is inserted, and no other one has its key. -/
theorem or_update {items : Text → Option (List V)}
    (hnew : ∀ other ∈ rows, keyForRow J columns keyColumns other ≠
      keyForRow J columns keyColumns row) (key : Text) :
    ((rows.find? (keyForRow J columns keyColumns · = key)).map
        (normalizeRowLen J · columns.length)).or
        (update items (keyForRow J columns keyColumns row)
          (some (normalizeRowLen J row columns.length)) key) =
      (((row :: rows).find? (keyForRow J columns keyColumns · = key)).map
        (normalizeRowLen J · columns.length)).or (items key) := by
  by_cases hkey : keyForRow J columns keyColumns row = key
  · subst hkey
    have hnone : rows.find? (keyForRow J columns keyColumns · =
        keyForRow J columns keyColumns row) = none := by
      simpa using hnew
    simp [hnone]
  · simp [hkey, update_of_ne (Ne.symm hkey)]

/-- What the loop returns, and when: no key occurs twice, and none was there before. -/
theorem collectFrom_ok_iff (label : Text) (rows : List (List V)) (before after : CompareRows V) :
    collectFrom J columns keyColumns label before rows = .ok after ↔
      (rows.map (keyForRow J columns keyColumns)).Nodup ∧
        (∀ row ∈ rows, before.items (keyForRow J columns keyColumns row) = none) ∧
        Collected J columns keyColumns before rows after := by
  induction rows generalizing before with
  | nil =>
    simp only [collectFrom, Except.ok.injEq]
    constructor
    · rintro rfl
      exact ⟨by simp, by simp, by simp, by simp⟩
    · rintro ⟨-, -, horder, hitems⟩
      obtain ⟨items, order⟩ := before
      obtain ⟨items', order'⟩ := after
      simp only [map_nil, append_nil] at horder
      obtain rfl : items = items' := funext fun key => (hitems key).symm
      rw [horder]
  | cons row rows ih =>
    simp only [collectFrom]
    split
    · next hduplicate =>
      constructor
      · rintro ⟨⟩
      · rintro ⟨-, hfresh, -⟩
        simp [hfresh row (by simp)] at hduplicate
    · next hfresh =>
      have hnone : before.items (keyForRow J columns keyColumns row) = none := by
        simpa using hfresh
      rw [ih]
      -- the key of the first row is inserted, so it may not occur among the others
      constructor
      · rintro ⟨hnodup, hbefore, horder, hitems⟩
        have hnew : ∀ other ∈ rows, keyForRow J columns keyColumns other ≠
            keyForRow J columns keyColumns row := by
          intro other hother heq
          simpa [heq] using hbefore other hother
        refine ⟨?_, ?_, by simpa using horder, fun key => ?_⟩
        · rw [map_cons, nodup_cons]
          refine ⟨?_, hnodup⟩
          rw [mem_map]
          rintro ⟨other, hother, heq⟩
          exact hnew other hother heq
        · intro other hother
          rcases mem_cons.mp hother with rfl | hother
          · exact hnone
          · simpa [hnew other hother] using hbefore other hother
        · exact (hitems key).trans (or_update hnew key)
      · rintro ⟨hnodup, hbefore, horder, hitems⟩
        rw [map_cons, nodup_cons, mem_map] at hnodup
        have hnew : ∀ other ∈ rows, keyForRow J columns keyColumns other ≠
            keyForRow J columns keyColumns row :=
          fun other hother heq => hnodup.1 ⟨other, hother, heq⟩
        refine ⟨hnodup.2, fun other hother => ?_, by simpa using horder, fun key => ?_⟩
        · simpa [hnew other hother] using hbefore other (by simp [hother])
        · exact (hitems key).trans (or_update hnew key).symm

/-- The rows of one side by key. -/
def collectedRows (J : JsonType V) (columns keyColumns : List Text) (rows : List (List V)) :
    CompareRows V where
  items key := (rows.find? (keyForRow J columns keyColumns · = key)).map
    (normalizeRowLen J · columns.length)
  order := rows.map (keyForRow J columns keyColumns)

/-- Collecting succeeds exactly on rows with distinct keys, and returns the rows by key. -/
theorem collectCompareRows_ok_iff (rows : List (List V)) (label : Text) (after : CompareRows V) :
    collectCompareRows J columns keyColumns rows label = .ok after ↔
      (rows.map (keyForRow J columns keyColumns)).Nodup ∧
        after = collectedRows J columns keyColumns rows := by
  rw [collectCompareRows, collectFrom_ok_iff]
  refine and_congr_right fun _ => ?_
  constructor
  · rintro ⟨-, horder, hitems⟩
    obtain ⟨items, order⟩ := after
    simp only [Option.or_none] at hitems
    rw [collectedRows]
    congr 1
    exact funext hitems
  · rintro rfl
    exact ⟨by simp, by simp [collectedRows], by simp [collectedRows]⟩

theorem not_nodup_of_error {label error : Text}
    (h : collectCompareRows J columns keyColumns rows label = .error error) :
    ¬ (rows.map (keyForRow J columns keyColumns)).Nodup := by
  intro hnodup
  rw [(collectCompareRows_ok_iff rows label _).mpr ⟨hnodup, rfl⟩] at h
  cases h

/-- The row of a key is the only one. -/
theorem find?_key_of_mem (hnodup : (rows.map (keyForRow J columns keyColumns)).Nodup)
    (hrow : row ∈ rows) :
    rows.find? (keyForRow J columns keyColumns · = keyForRow J columns keyColumns row) =
      some row := by
  let table : Keyed.Table (keyForRow J columns keyColumns) := ⟨rows, hnodup⟩
  exact table.find_eq_some_iff.mpr ⟨hrow, rfl⟩

@[simp] theorem rowObject_normalizeRowLen (row : List V) (columnLen : Nat) :
    rowObject J columns (normalizeRowLen J row columnLen) = rowObject J columns row := by
  funext column
  simp only [rowObject_eq]
  congr 1
  funext index
  simp

@[simp] theorem keyValuesForRow_normalizeRowLen (row : List V) (columnLen : Nat) :
    keyValuesForRow J columns keyColumns (normalizeRowLen J row columnLen) =
      keyValuesForRow J columns keyColumns row := by
  simp [keyValuesForRow]

@[simp] theorem changesBetween_normalizeRowLen (source target : List V) (columnLen : Nat) :
    changesBetween J columns keyColumns (normalizeRowLen J source columnLen)
        (normalizeRowLen J target columnLen) =
          changesBetween J columns keyColumns source target := by
  simp [changesBetween]

end Lemmas

/-! ### What the comparison finds -/

section Diff

variable (options : CompareDataRowsOptions V)

/-- The key of a row under the options of a comparison. -/
def CompareDataRowsOptions.key (row : List V) : Text :=
  keyForRow J options.columns options.keyColumns row

/-- A row whose key no row of the other side has. -/
def CompareDataRowsOptions.isAlone (others : List (List V)) (row : List V) : Bool :=
  (others.find? (options.key J · = options.key J row)).isNone

/-- The comparison of rows with distinct keys. -/
def CompareDataRowsOptions.diff : DataCompareResult V where
  added := (options.sourceRows.filter (options.isAlone J options.targetRows)).map fun row =>
    compareRow J options.columns options.keyColumns (options.key J row) row
  removed := (options.targetRows.filter (options.isAlone J options.sourceRows)).map fun row =>
    compareRow J options.columns options.keyColumns (options.key J row) row
  modified := options.sourceRows.filterMap fun row =>
    (options.targetRows.find? (options.key J · = options.key J row)).bind fun target =>
      if (changesBetween J options.columns options.keyColumns row target).isEmpty then none
      else some (modifiedRow J options.columns options.keyColumns (options.key J row) row target)

variable {J options}

theorem items_of_find? {key : Text} {found : Option (List V)}
    (h : rows.find? (options.key J · = key) = found) :
    (collectedRows J options.columns options.keyColumns rows).items key =
      found.map (normalizeRowLen J · options.columns.length) :=
  congrArg (Option.map _) h

theorem items_collectedRows (hnodup : (rows.map (options.key J)).Nodup) (hrow : row ∈ rows) :
    (collectedRows J options.columns options.keyColumns rows).items (options.key J row) =
      some (normalizeRowLen J row options.columns.length) :=
  items_of_find? (find?_key_of_mem hnodup hrow)

open CompareDataRowsOptions

/-- With distinct keys, the loop over the keys of one side finds the rows that are alone there. -/
theorem filterMap_alone {others : List (List V)} (hrows : (rows.map (options.key J)).Nodup) :
    ((collectedRows J options.columns options.keyColumns rows).order.filterMap fun key =>
      match (collectedRows J options.columns options.keyColumns rows).items key,
        (collectedRows J options.columns options.keyColumns others).items key with
      | some row, none => some (compareRow J options.columns options.keyColumns key row)
      | _, _ => none) =
    (rows.filter (options.isAlone J others)).map fun row =>
      compareRow J options.columns options.keyColumns (options.key J row) row := by
  conv_rhs => rw [← filterMap_eq_map, filterMap_filter]
  refine (filterMap_map (f := options.key J) ..).trans (filterMap_congr fun row hrow => ?_)
  have hitems := items_collectedRows hrows hrow
  cases hother : others.find? (options.key J · = options.key J row) with
  | none =>
    simp only [comp_apply, hitems, items_of_find? hother, Option.map, isAlone, hother]
    simp [compareRow]
  | some other =>
    simp only [comp_apply, hitems, items_of_find? hother, Option.map, isAlone, hother]
    simp

/-- With distinct keys, the loop over the source's keys finds the rows that were modified. -/
theorem filterMap_modified (hsource : (options.sourceRows.map (options.key J)).Nodup) :
    ((collectedRows J options.columns options.keyColumns
        options.sourceRows).order.filterMap fun key =>
      match (collectedRows J options.columns options.keyColumns options.sourceRows).items key,
        (collectedRows J options.columns options.keyColumns options.targetRows).items key with
      | some row, some targetRow =>
        let modified := modifiedRow J options.columns options.keyColumns key row targetRow
        if modified.changes.isEmpty then none else some modified
      | _, _ => none) = (options.diff J).modified := by
  refine (filterMap_map (f := options.key J) ..).trans (filterMap_congr fun row hrow => ?_)
  have hitems := items_collectedRows hsource hrow
  cases hother : options.targetRows.find? (options.key J · = options.key J row) with
  | none =>
    simp [comp_apply, hitems, items_of_find? hother]
  | some target =>
    simp only [comp_apply, hitems, items_of_find? hother, Option.map_some, Option.bind_some]
    simp [modifiedRow]

/-- The comparison fails exactly on an empty key list and on duplicate keys. -/
theorem compareDataRows_eq_ok_iff (result : DataCompareResult V) :
    compareDataRows J options = .ok result ↔
      (options.keyColumns ≠ [] ∧ (options.sourceRows.map (options.key J)).Nodup ∧
        (options.targetRows.map (options.key J)).Nodup) ∧ result = options.diff J := by
  unfold compareDataRows
  split
  · next hempty => exact iff_of_false nofun fun h => h.1.1 (by simpa using hempty)
  · next hempty =>
    have hne : options.keyColumns ≠ [] := by simpa using hempty
    split
    · next herror => exact iff_of_false nofun fun h => not_nodup_of_error herror h.1.2.1
    · next source hsource =>
      obtain ⟨hsourceNodup, rfl⟩ := (collectCompareRows_ok_iff _ _ _).mp hsource
      split
      · next herror => exact iff_of_false nofun fun h => not_nodup_of_error herror h.1.2.2
      · next target htarget =>
        obtain ⟨htargetNodup, rfl⟩ := (collectCompareRows_ok_iff _ _ _).mp htarget
        rw [filterMap_alone hsourceNodup, filterMap_alone htargetNodup,
          filterMap_modified hsourceNodup, Except.ok.injEq, eq_comm]
        exact ⟨fun h => ⟨⟨hne, hsourceNodup, htargetNodup⟩, h⟩, And.right⟩

/-- Two rows differ in a column that is compared and no key column. -/
def CompareDataRowsOptions.Differ (J : JsonType V) (options : CompareDataRowsOptions V)
    (source target : List V) (column : Text) : Prop :=
  column ∈ options.columns ∧ column ∉ options.keyColumns ∧
    J.eq (cell J options.columns source column) (cell J options.columns target column) = false

instance (source target : List V) (column : Text) :
    Decidable (options.Differ J source target column) :=
  inferInstanceAs (Decidable (_ ∧ _ ∧ _))

/-- The changes between two rows name the columns in which they differ. -/
theorem map_column_changesBetween (source target : List V) :
    (changesBetween J options.columns options.keyColumns source target).map (·.column) =
      options.columns.filter (options.Differ J source target ·) := by
  unfold changesBetween
  rw [map_filterMap, filterMap_filter, ← filterMap_eq_filter]
  refine filterMap_congr fun column hcolumn => ?_
  obtain ⟨index, hindex⟩ := Option.isSome_iff_exists.mp (isSome_columnIndexMap.mpr hcolumn)
  by_cases hkey : column ∈ options.keyColumns
  · simp [hkey, CompareDataRowsOptions.Differ, Option.guard]
  · cases heq : J.eq (rowValue J source index) (rowValue J target index) <;>
      simp [hkey, CompareDataRowsOptions.Differ, cell, hindex, hcolumn, heq, Option.guard]

theorem isEmpty_changesBetween (source target : List V) :
    (changesBetween J options.columns options.keyColumns source target).isEmpty = false ↔
      ∃ column, options.Differ J source target column := by
  have hcolumns : _ = options.columns.filter (options.Differ J source target ·) :=
    map_column_changesBetween source target
  rw [← Bool.not_eq_true, List.isEmpty_iff, ← List.map_eq_nil_iff, hcolumns, List.filter_eq_nil_iff]
  simp only [decide_eq_true_eq, not_forall, not_not]
  exact exists_congr fun column => ⟨fun hdiffer => hdiffer.2, fun hdiffer => ⟨hdiffer.1, hdiffer⟩⟩

theorem isAlone_iff {others : List (List V)} :
    options.isAlone J others row ↔ ∀ other ∈ others, options.key J other ≠ options.key J row := by
  simp [isAlone]

/-- A row that is reported as modified comes from two rows with its key. -/
theorem mem_diff_modified {modified : DataCompareModifiedRow V} :
    modified ∈ (options.diff J).modified ↔ ∃ row ∈ options.sourceRows,
      ∃ target, options.targetRows.find? (options.key J · = options.key J row) = some target ∧
        (∃ column, options.Differ J row target column) ∧
        modified = modifiedRow J options.columns options.keyColumns (options.key J row) row
          target := by
  simp only [diff, mem_filterMap, Option.bind_eq_some_iff]
  refine exists_congr fun row => and_congr_right fun _ => exists_congr fun target =>
    and_congr_right fun _ => ?_
  rw [← isEmpty_changesBetween]
  cases (changesBetween J options.columns options.keyColumns row target).isEmpty <;>
    simp [eq_comm]

/-- A result names exactly the keys of the rows to add, to remove and to modify, each key once, and
for a modified row exactly the columns in which it differs. -/
structure ExactDiff (J : JsonType V) (options : CompareDataRowsOptions V)
    (result : DataCompareResult V) : Prop where
  added : ∀ key, key ∈ result.added.map (·.key) ↔
    (∃ row ∈ options.sourceRows, options.key J row = key) ∧
      ∀ other ∈ options.targetRows, options.key J other ≠ key
  removed : ∀ key, key ∈ result.removed.map (·.key) ↔
    (∃ row ∈ options.targetRows, options.key J row = key) ∧
      ∀ other ∈ options.sourceRows, options.key J other ≠ key
  modified : ∀ key, key ∈ result.modified.map (·.key) ↔
    ∃ source ∈ options.sourceRows, ∃ target ∈ options.targetRows,
      options.key J source = key ∧ options.key J target = key ∧
        ∃ column, options.Differ J source target column
  once : (result.added.map (·.key) ++ result.removed.map (·.key) ++
    result.modified.map (·.key)).Nodup
  changes : ∀ row ∈ result.modified, ∀ source ∈ options.sourceRows, ∀ target ∈ options.targetRows,
    options.key J source = row.key → options.key J target = row.key →
      row.changes.map (·.column) = options.columns.filter (options.Differ J source target ·)

theorem filterMap_sublist_map {α β : Type} {f : α → β} {g : α → Option β}
    (h : ∀ a, ∀ b ∈ g a, b = f a) (l : List α) : (l.filterMap g).Sublist (l.map f) := by
  induction l with
  | nil => exact List.Sublist.refl _
  | cons a l ih =>
    cases hg : g a with
    | none => simpa [hg] using ih.cons (f a)
    | some b =>
      obtain rfl := h a b hg
      simpa [hg] using ih.cons_cons (f a)

/-- The keys of the modified rows are keys of source rows, in their order. -/
theorem modified_keys_sublist :
    ((options.diff J).modified.map (·.key)).Sublist (options.sourceRows.map (options.key J)) := by
  rw [diff, map_filterMap]
  refine filterMap_sublist_map (fun row key hkey => ?_) _
  obtain ⟨modified, hmodified, rfl⟩ := Option.map_eq_some_iff.mp hkey
  obtain ⟨target, -, htarget⟩ := Option.bind_eq_some_iff.mp hmodified
  split at htarget <;> cases htarget
  rfl

theorem added_keys (options : CompareDataRowsOptions V) :
    (options.diff J).added.map (·.key) =
      (options.sourceRows.filter (options.isAlone J options.targetRows)).map (options.key J) := by
  simp [diff, compareRow, comp_def]

theorem removed_keys (options : CompareDataRowsOptions V) :
    (options.diff J).removed.map (·.key) =
      (options.targetRows.filter (options.isAlone J options.sourceRows)).map (options.key J) := by
  simp [diff, compareRow, comp_def]

/-- The keys of the rows that are alone. -/
theorem mem_alone_keys {rows others : List (List V)} {key : Text} :
    key ∈ (rows.filter (options.isAlone J others)).map (options.key J) ↔
      (∃ row ∈ rows, options.key J row = key) ∧ ∀ other ∈ others, options.key J other ≠ key := by
  simp only [mem_map, mem_filter, isAlone_iff]
  constructor
  · rintro ⟨row, ⟨hrow, halone⟩, rfl⟩
    exact ⟨⟨row, hrow, rfl⟩, halone⟩
  · rintro ⟨⟨row, hrow, rfl⟩, halone⟩
    exact ⟨row, ⟨hrow, halone⟩, rfl⟩

/-- The comparison of rows with distinct keys is exact. -/
theorem exactDiff_diff (hsource : (options.sourceRows.map (options.key J)).Nodup)
    (htarget : (options.targetRows.map (options.key J)).Nodup) :
    ExactDiff J options (options.diff J) := by
  have hadded (key : Text) : key ∈ (options.diff J).added.map (·.key) ↔
      (∃ row ∈ options.sourceRows, options.key J row = key) ∧
        ∀ other ∈ options.targetRows, options.key J other ≠ key := by
    rw [added_keys, mem_alone_keys]
  have hremoved (key : Text) : key ∈ (options.diff J).removed.map (·.key) ↔
      (∃ row ∈ options.targetRows, options.key J row = key) ∧
        ∀ other ∈ options.sourceRows, options.key J other ≠ key := by
    rw [removed_keys, mem_alone_keys]
  have hmodified (key : Text) : key ∈ (options.diff J).modified.map (·.key) ↔
      ∃ source ∈ options.sourceRows, ∃ target ∈ options.targetRows,
        options.key J source = key ∧ options.key J target = key ∧
          ∃ column, options.Differ J source target column := by
    simp only [mem_map, mem_diff_modified]
    constructor
    · rintro ⟨_, ⟨row, hrow, target, hfind, hdiffer, rfl⟩, rfl⟩
      have hkey : options.key J target = options.key J row := by
        simpa using find?_some hfind
      exact ⟨row, hrow, target, mem_of_find?_eq_some hfind, rfl, hkey, hdiffer⟩
    · rintro ⟨row, hrow, target, htargetMem, rfl, hkey, hdiffer⟩
      have hfind : options.targetRows.find? (options.key J · = options.key J target) =
        some target :=
        find?_key_of_mem htarget htargetMem
      exact ⟨_, ⟨row, hrow, target, by rwa [hkey] at hfind, hdiffer, rfl⟩, rfl⟩
  refine ⟨hadded, hremoved, hmodified, ?_, ?_⟩
  · -- each list is duplicate free, and no two of them share a key
    have haddedNodup : ((options.diff J).added.map (·.key)).Nodup := by
      rw [added_keys]
      exact hsource.sublist (filter_sublist.map _)
    have hremovedNodup : ((options.diff J).removed.map (·.key)).Nodup := by
      rw [removed_keys]
      exact htarget.sublist (filter_sublist.map _)
    rw [nodup_append, nodup_append]
    refine ⟨⟨haddedNodup, hremovedNodup, ?_⟩, hsource.sublist modified_keys_sublist, ?_⟩
    · rintro key hkey _ hkey' rfl
      obtain ⟨row, hrow, hrowKey⟩ := ((hadded key).mp hkey).1
      exact ((hremoved key).mp hkey').2 row hrow hrowKey
    · rintro key hkey _ hkey' rfl
      obtain ⟨source, hsourceMem, target, htargetMem, hsourceKey, htargetKey, -⟩ :=
        (hmodified key).mp hkey'
      rcases mem_append.mp hkey with hkey | hkey
      · exact ((hadded key).mp hkey).2 target htargetMem htargetKey
      · exact ((hremoved key).mp hkey).2 source hsourceMem hsourceKey
  · intro modified hmem source hsourceMem target htargetMem hsourceKey htargetKey
    obtain ⟨row, hrow, target', hfind, -, rfl⟩ := mem_diff_modified.mp hmem
    have hkey' : options.key J target' = options.key J row := by
      simpa using find?_some hfind
    -- the rows with the key of the report are those it was made from
    obtain rfl : source = row := inj_on_of_nodup_map hsource hsourceMem hrow hsourceKey
    obtain rfl : target = target' :=
      inj_on_of_nodup_map htarget htargetMem (mem_of_find?_eq_some hfind)
        (htargetKey.trans hkey'.symm)
    exact map_column_changesBetween source target

end Diff

/-- **The comparison is exact**: it fails exactly when the key list is empty or two rows of one side
have key values with the same texts; otherwise it reports exactly the keys to add, to remove and to
modify, each once, and the differing columns of each modified row; and two rows have one key exactly
when their key values have the same texts, one by one. -/
theorem compareDataRows_spec (J : JsonType V) (options : CompareDataRowsOptions V) :
    ((∃ error, compareDataRows J options = .error error) ↔ options.keyColumns = [] ∨
        ¬ (options.sourceRows.map (keyTexts J options.columns options.keyColumns)).Nodup ∨
        ¬ (options.targetRows.map (keyTexts J options.columns options.keyColumns)).Nodup) ∧
      (∀ result, compareDataRows J options = .ok result → ExactDiff J options result) ∧
      ∀ row row' : List V, keyForRow J options.columns options.keyColumns row =
            keyForRow J options.columns options.keyColumns row' ↔
          keyTexts J options.columns options.keyColumns row =
            keyTexts J options.columns options.keyColumns row' := by
  have hnodup (rows : List (List V)) : (rows.map (options.key J)).Nodup ↔
      (rows.map (keyTexts J options.columns options.keyColumns)).Nodup :=
    nodup_keys_iff rows
  refine ⟨?_, ?_, keyForRow_eq_iff⟩
  · -- the comparison fails when it does not succeed
    have hfails : (∃ error, compareDataRows J options = .error error) ↔
        ¬ ∃ result, compareDataRows J options = .ok result := by
      cases compareDataRows J options <;> simp
    rw [hfails]
    simp only [compareDataRows_eq_ok_iff, exists_and_left, exists_eq, and_true, hnodup,
      not_and_or, ne_eq, not_not]
  · intro result hresult
    obtain ⟨⟨-, hsource, htarget⟩, rfl⟩ := (compareDataRows_eq_ok_iff result).mp hresult
    exact exactDiff_diff hsource htarget

end Dbx.Compare
