import Dbx.Grid.Save

/-!
# Which rows a save without a primary key changes

What a save is for is said by the edits of the grid alone: every edited row of the table is to end
with its changed cells, every deleted row is to go, and every other row is to stay. The guards of a
save are all evaluated on the table before the first statement, while each statement runs on the
table that the ones before it have left. A save that passes its guards does what it is for when the
rows are still as they were loaded, and no row that it has edited looks like a row that is saved
later. The guards ask for neither.

## Main definitions

* `Edit`, `edits`: the edits of a grid
* `asEdited`: the table that the edits ask for
* `SaveCorrect`: a save that passes its guards leaves that table
* `Matches`, `Addressed`: the rows are as they were loaded, and stay apart

## Main results

* `buildDataGridSaveStatements_eq`: the statements of a save, from its edits
* `verifyKeylessGuards_eq_none`: what it means that the guards pass
* `saveCorrect_iff`: a save is correct exactly when its rows are addressed
-/

namespace Dbx.Grid

open List

open Table (HitsTargets Undisturbed affectedAll runAll applyAll)

variable {ρ : Type} (engine : Engine) (checks : Checks) (options : DataGridSaveStatementOptions)
  (origin : Nat → ρ) (table : List (ρ × StoredRow))

/-! ## What the edits ask for -/

/-- The column that the changed cell at a position of a row is saved to. A cell that comes from no
column of the table is not saved, nor is a cell of a column that the database fills itself. -/
def savedColumn (index : Nat) : Option Text :=
  (effectiveColumns checks options)[index]?.join.filter fun column =>
    !isGridUpdateOmittedColumn options column

/-- The value that is meant by what was entered in a cell. -/
def savedValue (column : Text) (value : Value) : Value :=
  if emptyStringSavesAsNull value (columnInfoFor options.columnInfo column) then .null else value

/-- What the changes of a row ask for in a column, if they ask for anything: the last one counts. -/
def changedValue (changes : List (Nat × Value)) (column : Text) : Option Value :=
  (changes.reverse.find? fun change => savedColumn checks options change.1 = some column).map
    fun change => savedValue options column change.2

/-- The stored row with its changed cells. -/
def StoredRow.edited (row : StoredRow) (changes : List (Nat × Value)) : StoredRow :=
  { row with cells := fun column =>
      (changedValue checks options changes column).getD (row.cells column) }

/-- What was done to a row of the grid. -/
inductive Edit
  | change (changes : List (Nat × Value))
  | delete
  deriving DecidableEq, Repr

/-- What is to become of the stored row. -/
def Edit.apply : Edit → StoredRow → Option StoredRow
  | .change changes, row => some (engine.refresh (row.edited checks options changes))
  | .delete, _ => none

/-- The row was loaded, and a cell of it that is saved was changed. -/
def isChanged (dirty : Nat × List (Nat × Value)) : Bool :=
  dirty.1 < options.rows.length &&
    dirty.2.any fun change => (savedColumn checks options change.1).isSome

/-- The edits of the loaded rows, each with the position of its row. -/
def edits : List (Nat × Edit) :=
  let changed := options.dirtyRows.filter (isChanged checks options)
  let deleted := options.deletedRows.filter (· < options.rows.length)
  changed.map (fun dirty => (dirty.1, .change dirty.2)) ++ deleted.map fun index => (index, .delete)

/-- The table that the edits ask for: the row that an edited grid row was loaded from is as edited,
or gone, and every other row is as it was. -/
def asEdited [DecidableEq ρ] : List (ρ × StoredRow) :=
  table.filterMap fun row =>
    match (edits checks options).find? fun edit => origin edit.1 = row.1 with
    | none => some row
    | some edit => (edit.2.apply engine checks options row.2).map (Prod.mk row.1)

/-! ## Correct saves -/

/-- The statements affect exactly the rows that the edited grid rows were loaded from, one row each,
and leave the table that the edits ask for. -/
def SavesExactly [DecidableEq ρ] (statements : List SaveStatement) : Prop :=
  affectedAll table (statements.map (SaveStatement.onTable ρ engine)) =
      (edits checks options).map (fun edit => [origin edit.1]) ∧
    runAll table (statements.map (SaveStatement.onTable ρ engine)) =
      asEdited engine checks options origin table

def DataGridSaveStatementOptions.loaded (index : Nat) : List Value := options.rows.getD index []

/-- An edited row was loaded with a locator that no row of the table has. -/
def Stale : Prop :=
  ∃ edit ∈ edits checks options, ∃ index id, rowIdIndex checks options = some index ∧
    parsePostgresCtidRowId ((options.loaded edit.1).getD index .null) = some id ∧
      ∀ row ∈ table, row.2.rowId ≠ id

/-- A save whose guards pass does what the edits ask for, and the guards refuse a save of a row
whose locator no row has. -/
def SaveCorrect [DecidableEq ρ] (hasBackendSaveTarget : Bool) : Prop :=
  let prepared := prepareDataGridSave checks options
  let refusal := verifyKeylessGuards hasBackendSaveTarget
    (fun predicate => some (matchedRows engine table predicate)) prepared.keylessGuards
  prepared.validationError = none →
    (refusal = none → SavesExactly engine checks options origin table prepared.statements) ∧
      (Stale checks options table → refusal ≠ none)

/-- A stored row is as the grid has loaded it: it has the locator that was loaded, or, where none
was loaded, every column that the grid shows compares equal to its loaded value. -/
def Matches (loaded : List Value) (stored : StoredRow) : Prop :=
  match rowIdIndex checks options with
  | some index => parsePostgresCtidRowId (loaded.getD index .null) = some stored.rowId
  | none => ∀ index column, (effectiveColumns checks options)[index]? = some (some column) →
      isSyntheticRowId options.databaseType column = false →
        columnTruth engine stored (column, loaded.getD index .null) = some true

/-- Two rows of the table are as one edited row was loaded. -/
def Ambiguous : Prop :=
  ∃ edit ∈ edits checks options, ∃ a ∈ table, ∃ b ∈ table, a.1 ≠ b.1 ∧
    Matches engine checks options (options.loaded edit.1) a.2 ∧
      Matches engine checks options (options.loaded edit.1) b.2

/-- Every edited row is in the table as it was loaded, and no row looks, once it is saved, like a
row that is saved after it. -/
structure Addressed : Prop where
  present : ∀ edit ∈ edits checks options, ∃ stored, (origin edit.1, stored) ∈ table ∧
    Matches engine checks options (options.loaded edit.1) stored
  undisturbed : (edits checks options).Pairwise fun earlier later => ∀ stored saved,
    (origin earlier.1, stored) ∈ table →
      earlier.2.apply engine checks options stored = some saved →
        ¬ Matches engine checks options (options.loaded later.1) saved

/-! ## The statements of the edits -/

variable {engine checks options origin table}

theorem updateSets_eq (changes : List (Nat × Value)) :
    updateSets checks options changes = changes.filterMap fun change =>
      (savedColumn checks options change.1).map fun column =>
        (column, savedValue options column change.2) := by
  unfold updateSets
  refine filterMap_congr ?_
  rintro ⟨index, value⟩ -
  dsimp only [savedColumn]
  cases (effectiveColumns checks options)[index]?.join with
  | none => rfl
  | some column =>
    rw [Option.bind_some, Option.filter_some]
    cases isGridUpdateOmittedColumn options column with
    | true => rfl
    | false =>
      simp only [Bool.not_false, if_true, Bool.false_eq_true, if_false, Option.map_some, savedValue]
      split <;> rfl

/-- **The assignments of an UPDATE make the row what the changes ask for.** -/
theorem assign_updateSets (row : StoredRow) (changes : List (Nat × Value)) :
    row.assign (updateSets checks options changes) = row.edited checks options changes := by
  -- a later change overrides an earlier one, so the induction takes changes off the end
  induction changes using List.reverseRecOn with
  | nil => rfl
  | append_singleton changes change ih =>
    rw [updateSets_eq] at ih ⊢
    rw [filterMap_append, StoredRow.assign, foldl_append]
    rw [StoredRow.assign] at ih
    rw [ih]
    unfold StoredRow.edited changedValue
    simp only [reverse_append, reverse_singleton, singleton_append]
    cases hcolumn : savedColumn checks options change.1 with
    | none => simp [hcolumn]
    | some saved =>
      simp only [filterMap_cons, filterMap_nil, hcolumn, Option.map_some, foldl_cons, foldl_nil,
        StoredRow.mk.injEq, and_true]
      funext column
      by_cases heq : column = saved
      · simp [heq, hcolumn]
      · have hne : ¬ saved = column := fun h => heq h.symm
        simp [heq, hne, hcolumn]

/-- The change that a statement makes for an edit. -/
def Edit.toChange (checks : Checks) (options : DataGridSaveStatementOptions) : Edit → Change
  | .change changes => .update (updateSets checks options changes)
  | .delete => .delete

theorem Edit.apply_toChange (edit : Edit) :
    (edit.toChange checks options).apply engine = edit.apply engine checks options := by
  funext row
  cases edit with
  | change changes => rw [toChange, Change.apply, Edit.apply, assign_updateSets]
  | delete => rfl

/-- The statement of an edit. -/
def statementOf (checks : Checks) (options : DataGridSaveStatementOptions) (edit : Nat × Edit) :
    SaveStatement :=
  ⟨edit.1, edit.2.toChange checks options,
    buildPrimaryKeyPredicate checks options (options.loaded edit.1)⟩

/-- **A save has one statement for each edit, in their order.** -/
theorem buildDataGridSaveStatements_eq :
    buildDataGridSaveStatements checks options =
      (edits checks options).map (statementOf checks options) := by
  have hloaded : ∀ index : Nat, options.rows[index]? =
      if index < options.rows.length then some (options.loaded index) else none := by
    intro index
    rw [DataGridSaveStatementOptions.loaded, getD_eq_getElem?_getD]
    split
    · next hlt => rw [getElem?_eq_getElem hlt, Option.getD_some]
    · next hge => exact getElem?_eq_none (Nat.not_lt.mp hge)
  -- a row has assignments exactly if one of its changes is to a column that is saved
  have hsets : ∀ changes : List (Nat × Value), (updateSets checks options changes).isEmpty =
      !changes.any fun change => (savedColumn checks options change.1).isSome := by
    intro changes
    rw [updateSets_eq]
    induction changes with
    | nil => rfl
    | cons change changes ih =>
      cases hcolumn : savedColumn checks options change.1 <;> simp [hcolumn, ih]
  unfold buildDataGridSaveStatements edits
  rw [map_append, map_map, map_map, ← filterMap_eq_map', ← filterMap_eq_map', filterMap_filter,
    filterMap_filter]
  -- the updates, and then the deletions; rows that are not on the page have neither
  congr 1
  · refine filterMap_congr fun dirty _ => ?_
    unfold updateStatement isChanged
    dsimp only
    rw [hloaded, hsets]
    by_cases hlt : dirty.1 < options.rows.length
    · rw [if_pos hlt, Option.bind_some, decide_eq_true hlt, Bool.true_and]
      cases dirty.2.any fun change => (savedColumn checks options change.1).isSome <;> rfl
    · rw [if_neg hlt, decide_eq_false hlt]
      rfl
  · refine filterMap_congr fun index _ => ?_
    unfold deleteStatement
    rw [hloaded]
    by_cases hlt : index < options.rows.length
    · rw [if_pos hlt, decide_eq_true hlt]
      rfl
    · rw [if_neg hlt, decide_eq_false hlt]
      rfl

/-! ## Predicates -/

open Predicate (columns truth selects)

theorem mem_buildRowWhere {loaded : List Value} {part : Text × Value} :
    part ∈ buildRowWhere checks options loaded ↔
      ∃ index, (effectiveColumns checks options)[index]? = some (some part.1) ∧
        isSyntheticRowId options.databaseType part.1 = false ∧
          part.2 = loaded.getD index .null := by
  unfold buildRowWhere
  rw [mem_filterMap]
  constructor
  · rintro ⟨⟨_ | column, index⟩, hmem, hpart⟩
    · cases hpart
    · rw [mem_zipIdx_iff_getElem?] at hmem
      dsimp only [Option.bind_some] at hpart
      split at hpart <;> cases hpart
      next hsynthetic => exact ⟨index, hmem, by simpa using hsynthetic, rfl⟩
  · rintro ⟨index, hcolumn, hsynthetic, hvalue⟩
    refine ⟨(some part.1, index), mem_zipIdx_iff_getElem?.mpr hcolumn, ?_⟩
    dsimp only [Option.bind_some]
    rw [hsynthetic, ← hvalue]
    rfl

/-- The predicate of a loaded row selects the rows that match it. -/
theorem selects_buildPrimaryKeyPredicate {loaded : List Value} {row : StoredRow} :
    (buildPrimaryKeyPredicate checks options loaded).selects engine row ↔
      Matches engine checks options loaded row := by
  unfold buildPrimaryKeyPredicate Matches selects
  rw [decide_eq_true_eq]
  cases rowIdIndex checks options with
  | none =>
    dsimp only [truth]
    rw [Table.foldr_and3_eq_true]
    constructor
    · intro h index column hcolumn hsynthetic
      exact h _ (mem_buildRowWhere.mpr ⟨index, hcolumn, hsynthetic, rfl⟩)
    · rintro h ⟨column, value⟩ hpart
      obtain ⟨index, hcolumn, hsynthetic, rfl⟩ := mem_buildRowWhere.mp hpart
      exact h index column hcolumn hsynthetic
  | some index =>
    unfold buildPostgresCtidPredicate
    dsimp only
    cases parsePostgresCtidRowId (loaded.getD index .null) with
    | none => simp [truth]
    | some id => simp [truth, eq_comm]

/-- A save that passes validation has no empty predicate. -/
theorem predicate_ne_empty (hkeyless : usesKeylessRowPredicate options.databaseType)
    (hvalid : validateDataGridSave checks options = none) {edit : Nat × Edit}
    (h : edit ∈ edits checks options) :
    buildPrimaryKeyPredicate checks options (options.loaded edit.1) ≠ .columns [] := by
  have htouched : options.loaded edit.1 ∈ touchedRows options := by
    have hrow : edit.1 ∈ options.dirtyRows.map Prod.fst ++ options.deletedRows ∧
        edit.1 < options.rows.length := by
      rcases mem_append.mp h with hmem | hmem
      · obtain ⟨dirty, hdirty, rfl⟩ := mem_map.mp hmem
        rw [mem_filter, isChanged, Bool.and_eq_true, decide_eq_true_eq] at hdirty
        exact ⟨mem_append_left _ (mem_map_of_mem hdirty.1), hdirty.2.1⟩
      · obtain ⟨index, hindex, rfl⟩ := mem_map.mp hmem
        rw [mem_filter, decide_eq_true_eq] at hindex
        exact ⟨mem_append_right _ hindex.1, hindex.2⟩
    refine mem_filterMap.mpr ⟨edit.1, hrow.1, ?_⟩
    rw [DataGridSaveStatementOptions.loaded, getD_eq_getElem?_getD,
      getElem?_eq_getElem hrow.2, Option.getD_some]
  have hwhere : validateKeylessRowPredicate checks options = none := by
    simp only [validateDataGridSave, Option.orElse_eq_orElse, Option.orElse_eq_or,
      Option.or_eq_none_iff] at hvalid
    exact hvalid.2.2.2.1
  intro hempty
  unfold buildPrimaryKeyPredicate at hempty
  split at hempty
  · next index _ =>
    unfold buildPostgresCtidPredicate at hempty
    cases hid : parsePostgresCtidRowId ((options.loaded edit.1).getD index .null) with
    | none | some id =>
      rw [hid] at hempty
      cases hempty
  · -- the predicate without a locator is the one that validation has found not to be empty
    have hparts := columns.inj hempty
    have hany : ((touchedRows options).any fun row =>
        (buildRowWhere checks options row).isEmpty) :=
      any_eq_true.mpr ⟨_, htouched, by rw [hparts, isEmpty_nil]⟩
    rw [validateKeylessRowPredicate, hkeyless, hany] at hwhere
    cases hwhere

/-! ## Guards -/

/-- The predicates that get a guard. -/
theorem mem_foldl_guardPredicate {predicates guarded : List Predicate} {predicate : Predicate} :
    predicate ∈ predicates.foldl guardPredicate guarded ↔
      predicate ∈ guarded ∨ predicate ∈ predicates ∧ predicate ≠ .columns [] := by
  induction predicates generalizing guarded with
  | nil => simp
  | cons p predicates ih =>
    rw [foldl_cons, ih, mem_cons]
    unfold guardPredicate
    split
    · -- a predicate that is skipped is empty or has its guard already
      next hskip =>
      rw [Bool.or_eq_true, decide_eq_true_eq, contains_iff_mem] at hskip
      constructor
      · rintro (hmem | ⟨hmem, hne⟩)
        · exact .inl hmem
        · exact .inr ⟨.inr hmem, hne⟩
      · rintro (hmem | ⟨rfl | hmem, hne⟩)
        · exact .inl hmem
        · exact .inl (hskip.resolve_left hne)
        · exact .inr ⟨hmem, hne⟩
    · next hkeep =>
      rw [Bool.or_eq_true, not_or, decide_eq_true_eq] at hkeep
      rw [mem_append, mem_singleton]
      constructor
      · rintro ((hmem | rfl) | ⟨hmem, hne⟩)
        · exact .inl hmem
        · exact .inr ⟨.inl rfl, hkeep.1⟩
        · exact .inr ⟨.inr hmem, hne⟩
      · rintro (hmem | ⟨rfl | hmem, hne⟩)
        · exact .inl (.inl hmem)
        · exact .inl (.inr rfl)
        · exact .inr ⟨hmem, hne⟩

theorem verifyEachGuard_eq_none {count : Predicate → Nat} {guards : List DataGridSaveGuard} :
    verifyEachGuard (fun predicate => some (count predicate)) guards = none ↔
      ∀ guard ∈ guards, count guard.predicate ≤ guard.maxMatchedRows := by
  induction guards with
  | nil => simp [verifyEachGuard]
  | cons guard guards ih =>
    rw [forall_mem_cons, ← ih, verifyEachGuard]
    dsimp only
    split
    · next h => simp [Nat.not_le.mpr h]
    · next h => simp [Nat.not_lt.mp h]

/-- The predicates that are guarded in a valid save are those of its edits. -/
theorem guarded_iff (hkeyless : usesKeylessRowPredicate options.databaseType)
    (hvalid : validateDataGridSave checks options = none) {predicate : Predicate} :
    (∃ guard ∈ buildKeylessGuards checks options, guard.predicate = predicate) ↔
      ∃ edit ∈ edits checks options,
        buildPrimaryKeyPredicate checks options (options.loaded edit.1) = predicate := by
  simp only [buildKeylessGuards, buildDataGridSaveStatements_eq, map_map, mem_map,
    mem_foldl_guardPredicate, not_mem_nil, false_or]
  constructor
  · rintro ⟨_, ⟨_, ⟨⟨edit, hmem, rfl⟩, -⟩, rfl⟩, rfl⟩
    exact ⟨edit, hmem, rfl⟩
  · rintro ⟨edit, hmem, rfl⟩
    exact ⟨_, ⟨_, ⟨⟨edit, hmem, rfl⟩, predicate_ne_empty hkeyless hvalid hmem⟩, rfl⟩, rfl⟩

/-- **The guards of a valid save pass exactly when the predicate of every edit selects at most one
row.** -/
theorem verifyKeylessGuards_eq_none (hkeyless : usesKeylessRowPredicate options.databaseType)
    (hvalid : validateDataGridSave checks options = none) (hasBackendSaveTarget : Bool)
    (count : Predicate → Nat) :
    verifyKeylessGuards hasBackendSaveTarget (fun predicate => some (count predicate))
        (buildKeylessGuards checks options) = none ↔
      edits checks options = [] ∨ hasBackendSaveTarget ∧ ∀ edit ∈ edits checks options,
        count (buildPrimaryKeyPredicate checks options (options.loaded edit.1)) ≤ 1 := by
  have hguards := @guarded_iff _ _ hkeyless hvalid
  have hmax : ∀ guard ∈ buildKeylessGuards checks options, guard.maxMatchedRows = 1 := by
    intro guard hguard
    obtain ⟨_, -, rfl⟩ := mem_map.mp hguard
    rfl
  -- a save without edits has no guards, and needs no server
  have hempty : buildKeylessGuards checks options = [] ↔ edits checks options = [] := by
    simp only [eq_nil_iff_forall_not_mem]
    constructor
    · intro h edit hmem
      obtain ⟨guard, hguard, -⟩ := hguards.mpr ⟨edit, hmem, rfl⟩
      exact h guard hguard
    · intro h guard hmem
      obtain ⟨edit, hedit, -⟩ := hguards.mp ⟨guard, hmem, rfl⟩
      exact h edit hedit
  unfold verifyKeylessGuards
  rw [← hempty]
  split
  · next hnil => simp [isEmpty_iff.mp hnil]
  next hnil =>
  rw [List.isEmpty_iff] at hnil
  cases hasBackendSaveTarget with
  | false => simp [hnil]
  | true =>
    rw [if_neg (by simp), verifyEachGuard_eq_none]
    simp only [hnil, false_or, true_and]
    constructor
    · intro h edit hmem
      obtain ⟨guard, hguard, hpredicate⟩ := hguards.mpr ⟨edit, hmem, rfl⟩
      rw [← hpredicate, ← hmax guard hguard]
      exact h guard hguard
    · intro h guard hguard
      obtain ⟨edit, hmem, hpredicate⟩ := hguards.mp ⟨guard, hguard, rfl⟩
      rw [← hpredicate, hmax guard hguard]
      exact h edit hmem

/-! ## Saves -/

/-- The statement of every edit on the table, with the row that the edited row was loaded from. -/
def targeted (engine : Engine) (checks : Checks) (options : DataGridSaveStatementOptions)
    (origin : Nat → ρ) : List (Table.Statement ρ StoredRow × ρ) :=
  (edits checks options).map fun edit =>
    ((statementOf checks options edit).onTable ρ engine, origin edit.1)

theorem targeted_fst (origin : Nat → ρ) :
    (targeted engine checks options origin).map Prod.fst =
      (buildDataGridSaveStatements checks options).map (SaveStatement.onTable ρ engine) := by
  rw [targeted, map_map, buildDataGridSaveStatements_eq, map_map]
  rfl

theorem targeted_snd :
    (targeted engine checks options origin).map Prod.snd =
      (edits checks options).map fun edit => origin edit.1 := by
  rw [targeted, map_map]
  rfl

/-- The edits applied to the rows they are for are what the edits ask for. -/
theorem applyAll_targeted [DecidableEq ρ] :
    applyAll table (targeted engine checks options origin) =
      asEdited engine checks options origin table := by
  unfold applyAll asEdited targeted
  refine filterMap_congr fun row _ => ?_
  rw [find?_map]
  dsimp only [Function.comp_def]
  cases (edits checks options).find? fun edit => decide (origin edit.1 = row.1) with
  | none => rfl
  | some edit =>
    dsimp only [Option.map_some, SaveStatement.onTable, statementOf]
    rw [Edit.apply_toChange]

/-- A save does what its edits ask for exactly when its statements hit the rows of the edits. -/
theorem savesExactly_iff [DecidableEq ρ] (hids : (table.map Prod.fst).Nodup)
    (htargets : ((edits checks options).map fun edit => origin edit.1).Nodup) :
    SavesExactly engine checks options origin table (buildDataGridSaveStatements checks options) ↔
      HitsTargets table (targeted engine checks options origin) := by
  have haffected : (targeted engine checks options origin).map (fun q => [q.2]) =
      (edits checks options).map fun edit => [origin edit.1] := by
    rw [targeted, map_map]
    rfl
  unfold SavesExactly
  rw [← targeted_fst origin, ← haffected, ← Table.hitsTargets_iff_affectedAll,
    ← applyAll_targeted]
  refine and_iff_left_of_imp fun hhits => ?_
  exact Table.runAll_eq_applyAll hhits hids (targeted_snd ▸ htargets)

theorem selects_statementOf {edit : Nat × Edit} {stored : StoredRow} :
    ((statementOf checks options edit).onTable ρ engine).selects stored ↔
      Matches engine checks options (options.loaded edit.1) stored :=
  selects_buildPrimaryKeyPredicate

/-- The rows of a save are addressed when its statements, as statements on the table, have their
targets present and undisturbed. -/
theorem addressed_iff :
    ((∀ q ∈ targeted engine checks options origin, q.2 ∈ q.1.affected table) ∧
      Undisturbed table (targeted engine checks options origin)) ↔
      Addressed engine checks options origin table := by
  unfold Undisturbed targeted
  rw [pairwise_map, forall_mem_map]
  simp only [Table.Statement.mem_affected, selects_statementOf, ← Bool.not_eq_true]
  have hedit : ∀ edit : Nat × Edit, ((statementOf checks options edit).onTable ρ engine).edit =
      fun _ => edit.2.apply engine checks options := by
    intro edit
    funext _
    exact Edit.apply_toChange edit.2
  simp only [hedit]
  exact ⟨fun h => ⟨h.1, h.2⟩, fun h => ⟨h.present, h.undisturbed⟩⟩

theorem length_affected (edit : Nat × Edit) :
    (((statementOf checks options edit).onTable ρ engine).affected table).length =
      matchedRows engine table
        (buildPrimaryKeyPredicate checks options (options.loaded edit.1)) := by
  rw [Table.Statement.affected, length_map, matchedRows, countP_eq_length_filter]
  rfl

/-- Every guard counts at most one row exactly when no two rows are as one edited row was loaded. -/
theorem matchedRows_le_one_iff (hids : (table.map Prod.fst).Nodup) :
    (∀ edit ∈ edits checks options, matchedRows engine table
        (buildPrimaryKeyPredicate checks options (options.loaded edit.1)) ≤ 1) ↔
      ¬ Ambiguous engine checks options table := by
  simp only [← length_affected, Table.Statement.length_affected_le_one_iff hids,
    selects_statementOf]
  constructor
  · rintro h ⟨edit, hmem, a, ha, b, hb, hne, hmatchA, hmatchB⟩
    exact hne (h edit hmem a ha b hb hmatchA hmatchB)
  · intro h edit hmem a ha b hb hmatchA hmatchB
    by_contra hne
    exact h ⟨edit, hmem, a, ha, b, hb, hne, hmatchA, hmatchB⟩

/-- Where no edited row is ambiguous, the statements hit the rows of the edits exactly when these
are addressed. -/
theorem hitsTargets_iff_addressed (hids : (table.map Prod.fst).Nodup)
    (htargets : ((edits checks options).map fun edit => origin edit.1).Nodup)
    (hunique : ¬ Ambiguous engine checks options table) :
    HitsTargets table (targeted engine checks options origin) ↔
      Addressed engine checks options origin table := by
  refine (Table.hitsTargets_iff hids (targeted_snd ▸ htargets) ?_).trans addressed_iff
  rw [targeted, forall_mem_map]
  intro edit hmem
  rw [length_affected]
  exact (matchedRows_le_one_iff hids).mpr hunique edit hmem

/-- No edited row of an addressed save was loaded with a locator that no row has. -/
theorem Addressed.not_stale (h : Addressed engine checks options origin table) :
    ¬ Stale checks options table := by
  rintro ⟨edit, hmem, index, id, hindex, hid, hgone⟩
  obtain ⟨stored, hstored, hmatches⟩ := h.present edit hmem
  simp only [Matches, hindex, hid, Option.some.injEq] at hmatches
  exact hgone _ hstored hmatches.symm

/-- **When a save without a primary key is correct.** For a save that passes validation, correctness
is that the rows are addressed whenever there is a server to ask and no two rows of the table are as
one edited row was loaded. -/
theorem saveCorrect_iff [DecidableEq ρ] {hasBackendSaveTarget : Bool}
    (hkeyless : usesKeylessRowPredicate options.databaseType = true)
    (hvalid : validateDataGridSave checks options = none) (hids : (table.map Prod.fst).Nodup)
    (htargets : ((edits checks options).map fun edit => origin edit.1).Nodup) :
    SaveCorrect engine checks options origin table hasBackendSaveTarget ↔
      (hasBackendSaveTarget = true → ¬ Ambiguous engine checks options table →
        Addressed engine checks options origin table) := by
  have hprepared : prepareDataGridSave checks options =
      ⟨none, buildDataGridSaveStatements checks options, buildKeylessGuards checks options⟩ := by
    rw [prepareDataGridSave, hvalid]
  have hpass := verifyKeylessGuards_eq_none hkeyless hvalid hasBackendSaveTarget
    (matchedRows engine table)
  rw [matchedRows_le_one_iff hids] at hpass
  have hempty (hnil : edits checks options = []) : ¬ Ambiguous engine checks options table := by
    rintro ⟨edit, hmem, -⟩
    rw [hnil] at hmem
    cases hmem
  unfold SaveCorrect
  rw [hprepared]
  dsimp only
  -- the guards pass where no edit is ambiguous, and then the statements hit the edited rows
  rw [hpass, savesExactly_iff hids htargets]
  constructor
  · intro hcorrect htarget hunique
    have hhits := (hcorrect rfl).1 (.inr ⟨htarget, hunique⟩)
    exact (hitsTargets_iff_addressed hids htargets hunique).mp hhits
  · -- a save that passes has no edits, or is addressed
    intro haddressed _
    have hpassed : edits checks options = [] ∨ hasBackendSaveTarget = true ∧
        ¬ Ambiguous engine checks options table →
        Addressed engine checks options origin table := by
      rintro (hnil | ⟨htarget, hunique⟩)
      · constructor <;> simp [hnil]
      · exact haddressed htarget hunique
    refine ⟨fun hpasses => ?_, fun hstale hpasses => ?_⟩
    · have hunique := hpasses.elim hempty And.right
      exact (hitsTargets_iff_addressed hids htargets hunique).mpr (hpassed hpasses)
    · exact (hpassed (hpass.mp hpasses)).not_stale hstale

/-! ## Two saves -/

/-- A database that compares values as they are and computes no column. -/
def plainEngine : Engine where
  equal _ a b := a = b
  refresh := id

/-- No other check refuses a save. -/
def noChecks : Checks where
  resolveHiveTargetColumn _ column := column
  beforeLocator _ := none
  lobPredicate _ := none
  afterPredicate _ := none

/-- A stored row of one column `a`. -/
def storedRow (a : Value) (xmin : Nat) : StoredRow where
  cells column := if column = ['a'] then a else .null
  rowId := ⟨1, 0, 1, xmin⟩

/-- The options of a save of a grid with the given columns. -/
def gridOptions (databaseType : DatabaseType) (columns : List Text) (rows : List (List Value))
    (dirtyRows : List (Nat × List (Nat × Value))) (deletedRows : List Nat) :
    DataGridSaveStatementOptions where
  databaseType := some databaseType
  tableMeta := ⟨none⟩
  columns := columns
  sourceColumns := none
  rows := rows
  dirtyRows := dirtyRows
  deletedRows := deletedRows

/-- Two rows of an SQLite table, where `a` is 1 and 2. -/
def numbered : List (Nat × StoredRow) :=
  [(0, storedRow (.number ['1']) 5), (1, storedRow (.number ['2']) 5)]

/-- Setting `a` from 1 to 3 in the first row and deleting the second. -/
def changeAndDelete : DataGridSaveStatementOptions :=
  gridOptions .sqlite [['a']] [[.number ['1']], [.number ['2']]] [(0, [(0, .number ['3'])])] [1]

theorem saveCorrect_changeAndDelete :
    SaveCorrect plainEngine noChecks changeAndDelete id numbered true := by
  refine (saveCorrect_iff (by decide) (by decide +kernel) (by decide) (by decide +kernel)).mpr ?_
  intro _ _
  have hedits : edits noChecks changeAndDelete =
      [(0, .change [(0, .number ['3'])]), (1, .delete)] := by decide +kernel
  constructor
  · rw [hedits, forall_mem_cons, forall_mem_singleton]
    refine ⟨⟨_, mem_cons_self, ?_⟩, ⟨_, mem_cons_of_mem _ mem_cons_self, ?_⟩⟩
    · exact selects_buildPrimaryKeyPredicate.mp (by decide +kernel)
    · exact selects_buildPrimaryKeyPredicate.mp (by decide +kernel)
  · -- the edited row has 3 in `a`, whatever it had before, and the deleted row has 2
    rw [hedits, pairwise_pair]
    rintro stored saved - ⟨⟩ hmatches
    exact Bool.false_ne_true (selects_buildPrimaryKeyPredicate.mpr hmatches)

/-- Setting `a` from 1 to 2 in the first row and from 2 to 3 in the second. -/
def shiftNumbers : DataGridSaveStatementOptions :=
  gridOptions .sqlite [['a']] [[.number ['1']], [.number ['2']]]
    [(0, [(0, .number ['2'])]), (1, [(0, .number ['3'])])] []

/-- Deleting a PostgreSQL row that was loaded with `xmin` 4. -/
def deleteLocated : DataGridSaveStatementOptions :=
  gridOptions .postgres [['a'], dbxRowidColumn] [[.number ['1'], .string "1:(0,1):4".toList]] [] [0]

/-- The second UPDATE of a save changes the row that the first has edited as well, and a row that
is gone is deleted without a refusal: in both saves every guard passes. -/
theorem saves_unaddressed_rows : ¬ SaveCorrect plainEngine noChecks shiftNumbers id numbered true ∧
      ¬ SaveCorrect plainEngine noChecks deleteLocated id numbered true := by
  constructor
  · intro hcorrect
    have hexact := (hcorrect (by decide +kernel)).1 (by decide +kernel)
    have hasked : (edits noChecks shiftNumbers).map (fun edit => [id edit.1]) = [[0], [1]] := by
      decide +kernel
    have haffected : affectedAll numbered
        ((prepareDataGridSave noChecks shiftNumbers).statements.map
          (SaveStatement.onTable Nat plainEngine)) = [[0], [0, 1]] := by decide +kernel
    exact absurd (haffected.symm.trans (hexact.1.trans hasked)) (by decide)
  · intro hcorrect
    refine (hcorrect (by decide +kernel)).2 ?_ (by decide +kernel)
    have hedits : edits noChecks deleteLocated = [(0, .delete)] := by decide +kernel
    unfold Stale
    rw [hedits]
    exact ⟨_, mem_singleton_self _, 1, ⟨1, 0, 1, 4⟩, by decide +kernel, by decide +kernel,
      by decide⟩

end Dbx.Grid
