import Dbx.Restore.Targets
import Dbx.Result.Basic
import Dbx.Transition.Basic

/-!
# Selected-table restores

A restore emits the statements that its filter keeps. Executed in their order, they are to change
selected tables only, and to find them in the database in which the dump has them: a table that is
named without a database is one of the database that the last emitted `USE` names. A `DROP TABLE`
is rewritten to drop the selected members of its list. What a statement changes is up to the server.
The filter reads a header, and of a long statement the first characters only, so all this holds if
no statement changes a table that its header does not name, and the names lie within what is read.

## Main results

* `HeaderRead.verdict`: what the filter says of a statement is right
* `targets_dropTokens`: the tables of a rewritten statement
* `Inv.step`: one statement is treated as the selection demands
* `stepSafe_of_headerRead`: a restore stays inside the selection
-/

namespace Dbx.Restore

open Text Transition List Cursor
open Option (bind_eq_bind bind_some none_or)

variable {tokenizer : Tokenizer}

/-! ### Restores -/

/-- The filter, with the statements it has read and those it has emitted, the last first. -/
structure World where
  filter : TableRestoreFilter
  read : List Text
  emitted : List Text
  deriving DecidableEq, Repr

/-- The second pass starts with the views that the first has found. -/
def World.initial (views : List SqlFileTable) : World := ⟨.withViews views, [], []⟩

/-- The filter reads a statement. An error ends the restore. -/
def step (tokenizer : Tokenizer) (selected : List SqlFileTable) (w : World) (sql : Text) :
    Option World :=
  match w.filter.filter tokenizer selected sql with
  | .ok (emission, filter) => some ⟨filter, sql :: w.read, emission.toList ++ w.emitted⟩
  | .error _ => none

/-- **The server**, by the tables that a statement creates, drops, alters, inserts into or locks
there, as the statement names them. -/
structure Server where
  changes : Text → List SqlFileTable
  changes_dropTables (ifExists : Bool) (table : SqlFileTable) (tables : List SqlFileTable) :
    changes (TableRestoreFilter.dropTables ifExists (table :: tables)) = table :: tables

/-- What has to hold of what the filter makes of a statement. -/
structure Restricted (server : Server) (tokenizer : Tokenizer) (selected : List SqlFileTable)
    (w : World) (sql : Text) (emission : Option Text) : Prop where
  /-- As the emitted statements are executed, the tables are selected ones. -/
  executed : ∀ e ∈ emission, ∀ t ∈ server.changes e,
    t.within (lastUse tokenizer w.emitted) ∈ selected
  /-- A table that is named without a database is in the database of the last emitted `USE`. -/
  context : ∀ e ∈ emission, ∀ t ∈ server.changes e, t.database = none →
    lastUse tokenizer w.emitted = lastUse tokenizer w.read
  /-- Statements other than `DROP TABLE` are emitted as they are, if at all, and only those of
  selected tables. -/
  verbatim : ∀ e ∈ emission, isDropTable (tokensOf tokenizer sql) = false →
    e = sql ∧ ∀ t ∈ server.changes sql, t.within (lastUse tokenizer w.read) ∈ selected
  /-- A `DROP TABLE` is cut down to exactly the selected members of its list. -/
  cut : isDropTable (tokensOf tokenizer sql) = true →
    (emission.elim [] fun e => (server.changes e).map
        (·.within (lastUse tokenizer w.emitted))) =
      ((targets (tokensOf tokenizer sql)).map (·.within (lastUse tokenizer w.read))).filter
        (· ∈ selected)

/-- What has to hold of a step. -/
def StepSafe (server : Server) (tokenizer : Tokenizer) (selected : List SqlFileTable) (w : World)
    (sql : Text) : Prop :=
  ∀ emission filter, w.filter.filter tokenizer selected sql = .ok (emission, filter) →
    Restricted server tokenizer selected w sql emission

/-! ### Statements that are read in part -/

/-- A statement is read as a whole, or the tokens that it has in common with the part that is read
reach beyond the name of its table. -/
def HeaderRead (tokenizer : Tokenizer) (sql : Text) : Prop :=
  sql.length ≤ headerLimit ∨
    ∃ shared, shared ≠ [] ∧ shared <+: tokensOf tokenizer (sql.take headerLimit) ∧
      shared <+: tokensOf tokenizer sql ∧
      ((headerName (tokensOf tokenizer (sql.take headerLimit))).isSome →
        ∃ name token rest, headerName shared = some (name, token :: rest))

/-- A statement changes no table that its header does not name, and the names are read. -/
structure Plain (server : Server) (tokenizer : Tokenizer) (sql : Text) : Prop where
  headerRead : HeaderRead tokenizer sql
  changes_subset : server.changes sql ⊆ targets (tokensOf tokenizer sql)

/-- What a classification says of the whole statement. -/
inductive Verdict (filter : TableRestoreFilter) (tokens : List Token) :
    Scope → TableRestoreFilter → Prop
  | table {table : SqlFileTable} :
    targets tokens = [table] → used tokens = none → isDropTable tokens = false →
      Verdict filter tokens (.table (table.within filter.database)) filter
  | dropped {tables : List SqlFileTable} {ifExists : Bool} :
    targets tokens = tables → used tokens = none → isDropTable tokens = true →
      Verdict filter tokens (.dropTables (tables.map (·.within filter.database)) ifExists) filter
  | session : Quiet tokens → Verdict filter tokens .session filter
  | use {database : Text} :
    targets tokens = [] → used tokens = some database → isDropTable tokens = false →
      Verdict filter tokens (.databaseSession database) { filter with database := some database }
  | created {database : Text} :
    Quiet tokens → Verdict filter tokens (.databaseSession database) filter
  | skipped {views : List SqlFileTable} :
    used tokens = none → isDropTable tokens = false →
      Verdict filter tokens .skip { filter with views }

section Verdict

variable {filter after : TableRestoreFilter} {sql : Text} {scope : Scope}

/-- The tokens of a whole statement show what it is. -/
theorem Outcome.verdict {tokens : List Token} {whole : Prop}
    (h : Outcome filter tokens whole scope after) : Verdict filter tokens scope after := by
  cases h with
  | named hname =>
    obtain ⟨htargets, hused, hdrop⟩ := targets_of_headerName hname
    exact .table htargets hused hdrop
  | altered _ htargets hused hdrop => exact .table htargets hused hdrop
  | dropped _ htargets hused hdrop => exact .dropped htargets hused hdrop
  | session _ hquiet => exact .session hquiet
  | use _ htargets hused hdrop => exact .use htargets hused hdrop
  | created _ hquiet => exact .created hquiet
  | skipped _ hused hdrop => exact .skipped hused hdrop
  | viewed hview =>
    obtain ⟨rest, hfirst, -⟩ := Option.bind_eq_some_iff.mp hview
    exact .skipped (used_eq_none hfirst rfl) (isDropTable_eq_false hfirst rfl)

/-- A first token that is shared is the same word. -/
theorem eat_isSome_of_shared {word : String} {shared tokens whole : List Token}
    (hne : shared ≠ []) (htokens : shared <+: tokens) (hwhole : shared <+: whole)
    (h : (eat word tokens).isSome) : ∃ rest, eat word whole = some rest := by
  obtain ⟨token, shared, rfl⟩ := exists_cons_of_ne_nil hne
  obtain ⟨more, rfl⟩ := htokens
  obtain ⟨more', rfl⟩ := hwhole
  simp only [cons_append, eat] at h ⊢
  split at h
  · exact ⟨_, if_pos ‹_›⟩
  · cases h

/-- What the filter says of a statement is right, though it may have read only a part. -/
theorem HeaderRead.verdict (hread : HeaderRead tokenizer sql)
    (h : filter.classify tokenizer sql = .ok (scope, after)) :
    Verdict filter (tokensOf tokenizer sql) scope after := by
  have houtcome := classify_outcome h
  rcases hread with hwhole | ⟨shared, hne, hpart, hwhole, hname⟩
  · rw [take_of_length_le hwhole] at houtcome
    exact houtcome.verdict
  by_cases hlength : sql.length ≤ headerLimit
  · rw [take_of_length_le hlength] at houtcome
    exact houtcome.verdict
  -- of a part only the names of tables and of objects with a body are taken
  have hcreate : (eat "CREATE" (tokensOf tokenizer (sql.take headerLimit))).isSome →
      used (tokensOf tokenizer sql) = none ∧ isDropTable (tokensOf tokenizer sql) = false := by
    intro hsome
    obtain ⟨rest, hfirst⟩ := eat_isSome_of_shared hne hpart hwhole hsome
    exact ⟨used_eq_none hfirst rfl, isDropTable_eq_false hfirst rfl⟩
  cases houtcome with
  | named hheader =>
    obtain ⟨name, token, rest, hshared⟩ := hname (by simp [hheader])
    -- the name that was read is the name of the statement
    obtain ⟨more, hmore⟩ := hpart
    obtain ⟨more', hmore'⟩ := hwhole
    have hpart := headerName_append hshared more
    have hwhole := headerName_append hshared more'
    rw [hmore, hheader] at hpart
    rw [hmore'] at hwhole
    obtain ⟨rfl, -⟩ := Prod.mk.inj (Option.some.inj hpart)
    obtain ⟨htargets, hused, hdrop⟩ := targets_of_headerName hwhole
    exact .table htargets hused hdrop
  | altered hshort | dropped hshort | session hshort | use hshort | created hshort =>
    exact (hlength hshort).elim
  | skipped hor =>
    obtain ⟨hused, hdrop⟩ := hcreate (hor.resolve_left hlength)
    exact .skipped hused hdrop
  | viewed hview =>
    obtain ⟨rest, hfirst, -⟩ := Option.bind_eq_some_iff.mp hview
    obtain ⟨hused, hdrop⟩ := hcreate (by simp [hfirst])
    exact .skipped hused hdrop

end Verdict

/-! ### Rewritten statements -/

variable (table : SqlFileTable) (tables : List SqlFileTable)

/-- The tokens of a name in backticks. -/
def tableTokens : List Token :=
  match table.database with
  | some database => [.word database (some '\x60'), .period, .word table.name (some '\x60')]
  | none => [.word table.name (some '\x60')]

open Token

/-- The tokens of a statement that drops tables. -/
def dropTokens (ifExists : Bool) (tables : List SqlFileTable) : List Token :=
  .word "DROP".toList none :: .word "TABLE".toList none ::
    (if ifExists then [.word "IF".toList none, .word "EXISTS".toList none] else []) ++
    [comma].intercalate (tables.map tableTokens)

open TableRestoreFilter

/-- The tokenizer reads names in backticks as they were quoted. -/
def ReadsQuoted (tokenizer : Tokenizer) : Prop :=
  ∀ ifExists table tables,
    tokensOf tokenizer (dropTables ifExists (table :: tables)) =
      dropTokens ifExists (table :: tables)

/-- A quoted name is read as it is. -/
theorem table_tableTokens {rest : Cursor} (h : rest.eatToken .period = none) :
    Cursor.table none (tableTokens table ++ rest) = some (table, rest) := by
  obtain ⟨database, name⟩ := table
  cases database with
  | none =>
    simp only [tableTokens, cons_append, nil_append, table, identifier,
      bind_eq_bind, bind_some, h]
    rfl
  | some database => rfl

/-- The further names of a list are read, each behind its comma. -/
theorem moreTables_tableTokens {fuel : Nat} (h : tables.length ≤ fuel) :
    moreTables none fuel (tables.flatMap fun t => comma :: tableTokens t) =
      some (tables, []) := by
  induction tables generalizing fuel with
  | nil => cases fuel <;> rfl
  | cons table tables ih =>
    obtain ⟨fuel, rfl⟩ := Nat.exists_eq_add_of_le'
      (Nat.le_trans (Nat.succ_le_succ (Nat.zero_le _)) h)
    have hperiod : Cursor.eatToken .period
        (tables.flatMap fun t => comma :: tableTokens t) = none := by
      cases tables <;> rfl
    simp only [flatMap_cons, cons_append, Cursor.moreTables, Cursor.eatToken, if_true,
      bind_eq_bind, table_tableTokens table hperiod, bind_some,
      ih (Nat.le_of_succ_le_succ h)]
    rfl

theorem intercalate_map {α β : Type} (separator : List β) (f : α → List β) (a : α)
    (as : List α) : separator.intercalate ((a :: as).map f) =
      f a ++ as.flatMap fun b => separator ++ f b := by
  induction as generalizing a with
  | nil => simp
  | cons b as ih =>
    have hcons : separator.intercalate ((a :: b :: as).map f) =
        f a ++ (separator ++ separator.intercalate ((b :: as).map f)) := rfl
    rw [hcons, ih b]
    simp

theorem length_le_flatMap :
    tables.length ≤ (tables.flatMap fun t => comma :: tableTokens t).length := by
  induction tables with
  | nil => exact Nat.le_refl 0
  | cons table tables ih =>
    simp only [flatMap_cons, length_append, length_cons] at ih ⊢
    omega

/-- The names of a list are read. -/
theorem tables_tableTokens :
    Cursor.tables none ([comma].intercalate ((table :: tables).map tableTokens)) =
      some (table :: tables, []) := by
  have hperiod : eatToken .period
      (tables.flatMap fun t => comma :: tableTokens t) = none := by
    cases tables <;> rfl
  rw [intercalate_map]
  simp only [singleton_append, Cursor.tables, table_tableTokens table hperiod, bind_eq_bind,
    bind_some, moreTables_tableTokens tables (length_le_flatMap tables)]
  rfl

theorem eat_word (word : String) (rest : Cursor) :
    Cursor.eat word (.word word.toList none :: rest) = some rest := by
  simp [Cursor.eat, wordIs, eqIgnoreAsciiCase]

/-- The tables of a statement that drops tables are these. -/
theorem targets_dropTokens (ifExists : Bool) (table : SqlFileTable) (tables : List SqlFileTable) :
    targets (dropTokens ifExists (table :: tables)) = table :: tables := by
  have hquoted : eat "IF"
      ([comma].intercalate ((table :: tables).map tableTokens)) = none := by
    rw [intercalate_map]
    obtain ⟨database, name⟩ := table
    cases database <;> rfl
  have hskip : skipIfExists
      ((if ifExists then [.word "IF".toList none, .word "EXISTS".toList none] else []) ++
        [comma].intercalate ((table :: tables).map tableTokens)) =
      [comma].intercalate ((table :: tables).map tableTokens) := by
    cases ifExists with
    | true =>
      simp only [if_true, cons_append, nil_append, Cursor.skipIfExists, eat_word,
        Cursor.skip, Option.getD_some]
    | false =>
      simp only [Bool.false_eq_true, if_false, nil_append, Cursor.skipIfExists, hquoted]
  rw [dropTokens, cons_append, cons_append, targets_drop (eat_word "DROP" _), dropTargets]
  simp only [Cursor.skip_eq_self (eat_word "TABLE" _) "TEMPORARY"
    rfl, eat_word "TABLE", Option.some_or, hskip, tables_tableTokens]
  rfl

theorem used_dropTokens (ifExists : Bool) (tables : List SqlFileTable) :
    used (dropTokens ifExists tables) = none :=
  used_eq_none (eat_word "DROP" _) rfl

/-! ### One statement -/

/-- What holds between the statements of a restore: the filter knows the database of the dump, and
the emitted statements are in it, unless no selected table is. -/
structure Inv (tokenizer : Tokenizer) (selected views : List SqlFileTable) (w : World) : Prop where
  database : w.filter.database = lastUse tokenizer w.read
  context : lastUse tokenizer w.emitted = w.filter.database ∨
    ∃ database, w.filter.database = some database ∧
      ∀ table ∈ selected, table.database ≠ some database
  views : ∀ view ∈ w.filter.views, view ∈ views

section Step

variable {server : Server} {selected views : List SqlFileTable} {w : World} {sql : Text}

theorem Inv.initial : Inv tokenizer selected views (.initial views) :=
  ⟨rfl, .inl rfl, fun _ h => h⟩

/-- A selected table is the same to the dump and to the emitted statements. -/
theorem Inv.within_eq (h : Inv tokenizer selected views w) {table : SqlFileTable}
    (htable : table.within w.filter.database ∈ selected) :
    table.within (lastUse tokenizer w.emitted) = table.within w.filter.database ∧
      (table.database = none → lastUse tokenizer w.emitted = lastUse tokenizer w.read) := by
  rw [← h.database]
  rcases h.context with hsame | ⟨database, hdatabase, hother⟩
  · rw [hsame]
    exact ⟨rfl, fun _ => rfl⟩
  · -- no selected table is in the database of the dump, so this one is named with its own
    obtain ⟨own, name⟩ := table
    cases own with
    | none => exact (hother _ htable (by simp [SqlFileTable.within, hdatabase])).elim
    | some own =>
      refine ⟨rfl, fun hnone => ?_⟩
      cases hnone

theorem Inv.includes_eq (h : Inv tokenizer selected views w)
    (hselected : ∀ table ∈ selected, table ∉ views) :
    w.filter.includes selected = fun table => decide (table ∈ selected) := by
  funext table
  by_cases hmem : table ∈ selected
  · have hview : table ∉ w.filter.views := fun hview => hselected table hmem (h.views table hview)
    simp [includes, hmem, hview]
  · simp [includes, hmem]

theorem lastUse_cons (statements : List Text) :
    lastUse tokenizer (sql :: statements) =
      (used (tokensOf tokenizer sql)).or (lastUse tokenizer statements) := by
  rw [lastUse, findSome?_cons]
  cases used (tokensOf tokenizer sql) <;> rfl

/-- What the filter emits of a statement. -/
def emissionOf (filter : TableRestoreFilter) (selected : List SqlFileTable) (sql : Text) :
    Scope → Option Text
  | .table table => if filter.includes selected table then some sql else none
  | .dropTables tables ifExists =>
    let kept := tables.filter (filter.includes selected)
    if kept.isEmpty then none else some (dropTables ifExists kept)
  | .session => some sql
  | .databaseSession database =>
    if selected.any (·.database = some database) then some sql else none
  | .skip => none

variable {emission : Option Text} {after : TableRestoreFilter}

theorem filter_eq_ok {filter after : TableRestoreFilter}
    (h : filter.filter tokenizer selected sql = .ok (emission, after)) :
    ∃ scope mid, filter.classify tokenizer sql = .ok (scope, mid) ∧
      emission = emissionOf mid selected sql scope ∧ after.database = mid.database ∧
      after.views = mid.views := by
  obtain ⟨⟨scope, mid⟩, hclassify, h⟩ := bind_eq_ok_iff.mp h
  refine ⟨scope, mid, hclassify, ?_⟩
  cases scope <;> cases h <;> exact ⟨rfl, rfl, rfl⟩

variable (h : Inv tokenizer selected views w)

include h

/-- A statement is emitted as it is, if at all, where its tables are selected. -/
theorem Inv.restricted (hdrop : isDropTable (tokensOf tokenizer sql) = false)
    (hemission : ∀ e ∈ emission, e = sql ∧ ∀ t ∈ server.changes sql,
      t.within w.filter.database ∈ selected) :
    Restricted server tokenizer selected w sql emission := by
  constructor
  · intro e he t ht
    obtain ⟨rfl, hselected⟩ := hemission e he
    rw [(h.within_eq (hselected t ht)).1]
    exact hselected t ht
  · intro e he t ht
    obtain ⟨rfl, hselected⟩ := hemission e he
    exact (h.within_eq (hselected t ht)).2
  · intro e he _
    exact h.database ▸ hemission e he
  · intro hcut
    rw [hdrop] at hcut
    cases hcut

/-- A list of tables to drop is cut down to its selected members. -/
theorem Inv.restricted_dropped {tables : List SqlFileTable} {ifExists : Bool}
    (htargets : targets (tokensOf tokenizer sql) = tables)
    (hdrop : isDropTable (tokensOf tokenizer sql)) :
    let kept := (tables.map (·.within w.filter.database)).filter (· ∈ selected)
    Restricted server tokenizer selected w sql
      (if kept.isEmpty then none else some (dropTables ifExists kept)) := by
  intro kept
  have hsame : ∀ t ∈ kept, t ∈ selected ∧ t.within (lastUse tokenizer w.emitted) = t ∧
      (t.database = none → lastUse tokenizer w.emitted = lastUse tokenizer w.read) := by
    intro t ht
    obtain ⟨hmem, hselected⟩ := mem_filter.mp ht
    obtain ⟨named, -, rfl⟩ := mem_map.mp hmem
    -- the database is part of the name already
    have hagain : (named.within w.filter.database).within w.filter.database =
        named.within w.filter.database := by
      simp [SqlFileTable.within, Option.or_assoc]
    have hselected : named.within w.filter.database ∈ selected := by simpa using hselected
    obtain ⟨hwithin, hcontext⟩ := h.within_eq (hagain.symm ▸ hselected)
    exact ⟨hselected, hwithin.trans hagain, hcontext⟩
  have hcut : ((targets (tokensOf tokenizer sql)).map
      (·.within (lastUse tokenizer w.read))).filter (· ∈ selected) = kept := by
    rw [htargets, ← h.database]
  cases hkept : kept with
  | nil =>
    -- nothing is emitted
    constructor
    · rintro e ⟨⟩
    · rintro e ⟨⟩
    · rintro e ⟨⟩
    · intro _
      rw [hcut, hkept]
      rfl
  | cons table rest =>
    have hchanges : server.changes (dropTables ifExists (table :: rest)) = kept := by
      rw [server.changes_dropTables, hkept]
    constructor
    · rintro e ⟨⟩ t ht
      rw [hchanges] at ht
      rw [(hsame t ht).2.1]
      exact (hsame t ht).1
    · rintro e ⟨⟩ t ht
      rw [hchanges] at ht
      exact (hsame t ht).2.2
    · intro e _ hnot
      rw [hdrop] at hnot
      cases hnot
    · intro _
      rw [hcut]
      change (server.changes _).map _ = kept
      rw [hchanges]
      exact (map_congr_left fun t ht => (hsame t ht).2.1).trans (map_id _)

/-- A statement without `USE` keeps what holds between statements, whatever is emitted. -/
theorem Inv.keep (hdatabase : after.database = w.filter.database)
    (hviews : ∀ view ∈ after.views, view ∈ views) (hused : used (tokensOf tokenizer sql) = none)
    (hemitted : ∀ e ∈ emission, used (tokensOf tokenizer e) = none) :
    Inv tokenizer selected views ⟨after, sql :: w.read, emission.toList ++ w.emitted⟩ := by
  have hlast : lastUse tokenizer (emission.toList ++ w.emitted) = lastUse tokenizer w.emitted := by
    cases emission with
    | none => rfl
    | some e =>
      change lastUse tokenizer (e :: w.emitted) = _
      rw [lastUse_cons, hemitted e rfl, none_or]
  constructor
  · change after.database = lastUse tokenizer (sql :: w.read)
    rw [lastUse_cons, hused, none_or, hdatabase, h.database]
  · change lastUse tokenizer (emission.toList ++ w.emitted) = after.database ∨ _
    rw [hlast, hdatabase]
    exact h.context
  · exact hviews

/-- A statement without `USE` is emitted as it is, or not at all. -/
theorem Inv.verbatim (hdatabase : after.database = w.filter.database)
    (hviews : ∀ view ∈ after.views, view ∈ views) (hused : used (tokensOf tokenizer sql) = none)
    (hdrop : isDropTable (tokensOf tokenizer sql) = false)
    (hemission : ∀ e ∈ emission, e = sql ∧ ∀ t ∈ server.changes sql,
      t.within w.filter.database ∈ selected) :
    Restricted server tokenizer selected w sql emission ∧
      Inv tokenizer selected views ⟨after, sql :: w.read, emission.toList ++ w.emitted⟩ := by
  refine ⟨h.restricted hdrop hemission, h.keep hdatabase hviews hused fun e he => ?_⟩
  rw [(hemission e he).1]
  exact hused

variable {scope : Scope}

/-- The views that a statement adds are those of the dump. -/
theorem Inv.views_after {mid : TableRestoreFilter}
    (hview : ∀ view, viewOf w.filter.database (tokensOf tokenizer (sql.take headerLimit)) =
      some view → view ∈ views)
    (hclassify : w.filter.classify tokenizer sql = .ok (scope, mid)) :
    ∀ view ∈ mid.views, view ∈ views := by
  cases classify_outcome hclassify with
  | viewed hadded =>
    intro view hmem
    simp only [insertTable] at hmem
    split at hmem
    · exact h.views view hmem
    · rcases mem_cons.mp hmem with rfl | hmem
      · exact hview _ hadded
      · exact h.views view hmem
  | named | altered | dropped | session | use | created | skipped => exact h.views

/-- **One statement is treated as the selection demands.** -/
theorem Inv.step (htokenizer : ReadsQuoted tokenizer)
    (hselected : ∀ table ∈ selected, table ∉ views) (hplain : Plain server tokenizer sql)
    (hview : ∀ view, viewOf w.filter.database (tokensOf tokenizer (sql.take headerLimit)) =
      some view → view ∈ views)
    (hfilter : w.filter.filter tokenizer selected sql = .ok (emission, after)) :
    Restricted server tokenizer selected w sql emission ∧
      Inv tokenizer selected views ⟨after, sql :: w.read, emission.toList ++ w.emitted⟩ := by
  have hnone (htargets : targets (tokensOf tokenizer sql) = []) : server.changes sql = [] :=
    subset_nil.mp (htargets ▸ hplain.changes_subset)
  obtain ⟨scope, mid, hclassify, rfl, hdatabase, hsame⟩ := filter_eq_ok hfilter
  have hviews : ∀ view ∈ after.views, view ∈ views := hsame ▸ h.views_after hview hclassify
  cases hplain.headerRead.verdict hclassify with
  | @table named htargets hused hdrop =>
    refine h.verbatim hdatabase hviews hused hdrop fun e he => ?_
    simp only [emissionOf, h.includes_eq hselected, decide_eq_true_eq] at he
    split at he <;> cases he
    refine ⟨rfl, fun t ht => ?_⟩
    obtain rfl := mem_singleton.mp (htargets ▸ hplain.changes_subset ht)
    assumption
  | @dropped tables ifExists htargets hused hdrop =>
    simp only [emissionOf, h.includes_eq hselected]
    refine ⟨h.restricted_dropped htargets hdrop, h.keep hdatabase hviews hused ?_⟩
    intro e he
    split at he <;> cases he
    cases hkept : (tables.map (·.within w.filter.database)).filter (· ∈ selected) with
    | nil => simp [hkept] at *
    | cons table rest =>
      rw [htokenizer]
      exact used_dropTokens ifExists _
  | session hquiet =>
    refine h.verbatim hdatabase hviews hquiet.used hquiet.isDropTable ?_
    rintro e ⟨⟩
    exact ⟨rfl, by simp [hnone hquiet.targets]⟩
  | @use database htargets hused hdrop =>
    simp only [emissionOf]
    have hread : after.database = lastUse tokenizer (sql :: w.read) := by
      rw [lastUse_cons, hused]
      exact hdatabase
    split
    · -- the emitted statements follow the dump
      refine ⟨?_, hread, .inl ?_, hviews⟩
      · refine h.restricted hdrop ?_
        rintro e ⟨⟩
        exact ⟨rfl, by simp [hnone htargets]⟩
      · change lastUse tokenizer (sql :: w.emitted) = after.database
        rw [lastUse_cons, hused]
        exact hdatabase.symm
    · -- the dump is in a database without selected tables
      rename_i hother
      refine ⟨h.restricted hdrop nofun, hread, .inr ⟨database, hdatabase, ?_⟩, hviews⟩
      intro table hmem heq
      exact hother (any_eq_true.mpr ⟨table, hmem, by simpa using heq⟩)
  | @created database hquiet =>
    refine h.verbatim hdatabase hviews hquiet.used hquiet.isDropTable fun e he => ?_
    simp only [emissionOf] at he
    split at he <;> cases he
    exact ⟨rfl, by simp [hnone hquiet.targets]⟩
  | skipped hused hdrop => exact h.verbatim hdatabase hviews hused hdrop nofun

end Step

/-! ### Whole dumps -/

section Scan

variable {server : Server} {filter after final : TableRestoreFilter}
  {selected : List SqlFileTable} {sql : Text}

/-- The database of the filter changes with `USE` only. -/
theorem classify_database (h : filter.classify tokenizer sql = .ok (scope, after)) :
    after.database = (used (tokensOf tokenizer (sql.take headerLimit))).or filter.database := by
  cases classify_outcome h with
  | named hname => rw [(targets_of_headerName hname).2.1, none_or]
  | altered _ _ hused | dropped _ _ hused => rw [hused, none_or]
  | session _ hquiet => rw [hquiet.used, none_or]
  | use _ _ hused => rw [hused, Option.some_or]
  | created _ hquiet => rw [hquiet.used, none_or]
  | skipped _ hused => rw [hused, none_or]
  | viewed hview =>
    obtain ⟨rest, hfirst, -⟩ := Option.bind_eq_some_iff.mp hview
    rw [used_eq_none hfirst rfl, none_or]

/-- The filter forgets no view. -/
theorem classify_views
    (h : filter.classify tokenizer sql = .ok (scope, after)) : filter.views ⊆ after.views := by
  cases classify_outcome h with
  | viewed hview =>
    intro view hmem
    simp only [insertTable]
    split
    · exact hmem
    · exact mem_cons_of_mem _ hmem
  | named | altered | dropped | session | use | created | skipped => exact List.Subset.refl _

theorem inspect_eq_ok (h : filter.inspect tokenizer sql = .ok after) :
    ∃ scope mid, filter.classify tokenizer sql = .ok (scope, mid) ∧
      after.database = mid.database ∧ after.views = mid.views := by
  obtain ⟨⟨scope, mid⟩, hclassify, h⟩ := bind_eq_ok_iff.mp h
  refine ⟨scope, mid, hclassify, ?_⟩
  cases scope <;> cases h <;> exact ⟨rfl, rfl⟩

variable {statements : List Text}

/-- The first pass over a dump. -/
def inspectAll (tokenizer : Tokenizer) (statements : List Text) (filter : TableRestoreFilter) :
    Except Text TableRestoreFilter :=
  statements.foldlM (fun filter sql => filter.inspect tokenizer sql) filter

theorem inspectAll_cons (h : inspectAll tokenizer (sql :: statements) filter = .ok final) :
    ∃ next, filter.inspect tokenizer sql = .ok next ∧
      inspectAll tokenizer statements next = .ok final :=
  bind_eq_ok_iff.mp h

/-- The views of the whole dump are those that were found, and more. -/
theorem inspectAll_views (h : inspectAll tokenizer statements filter = .ok final) :
    filter.views ⊆ final.views := by
  induction statements generalizing filter with
  | nil =>
    cases h
    exact List.Subset.refl _
  | cons sql statements ih =>
    obtain ⟨next, hnext, h⟩ := inspectAll_cons h
    obtain ⟨scope, mid, hclassify, -, hviews⟩ := inspect_eq_ok hnext
    exact List.Subset.trans (hviews ▸ classify_views hclassify) (ih h)

/-- Both passes see the same views, as both follow the database of the dump. -/
theorem along_of_inspect {w : World} (hdatabase : filter.database = w.filter.database)
    (hplain : ∀ sql ∈ statements, Plain server tokenizer sql)
    (h : inspectAll tokenizer statements filter = .ok final) :
    Along (step tokenizer selected) (fun w sql => Plain server tokenizer sql ∧
      ∀ view, viewOf w.filter.database (tokensOf tokenizer (sql.take headerLimit)) = some view →
        view ∈ final.views) w statements := by
  induction statements generalizing filter w with
  | nil => trivial
  | cons sql statements ih =>
    obtain ⟨next, hnext, h⟩ := inspectAll_cons h
    obtain ⟨scope, mid, hclassify, hmid, hviews⟩ := inspect_eq_ok hnext
    refine ⟨⟨hplain sql mem_cons_self, fun view hview => ?_⟩, fun w' hstep => ?_⟩
    · apply inspectAll_views h
      rw [hviews]
      exact classify_of_viewOf (hdatabase ▸ hview) hclassify
    · refine ih ?_ (fun sql hsql => hplain sql (mem_cons_of_mem _ hsql)) h
      unfold step at hstep
      split at hstep
      · rename_i emission after hfilter
        cases hstep
        obtain ⟨scope', mid', hclassify', -, hafter, -⟩ := filter_eq_ok hfilter
        change next.database = after.database
        rw [hmid, hafter, classify_database hclassify, classify_database hclassify', hdatabase]
      · cases hstep

end Scan

/-- Where a tokenizer stands: between tokens, in a word, in a name in backticks, or behind a
backtick that ends it unless another one follows. -/
inductive LexMode
  | between
  | word (read : Text)
  | quoted (read : Text)
  | closing (read : Text)

def isWordChar (c : Char) : Bool := c.isAlphanum || c = '_' || c = '$' || c = '@'

/-- The tokens that end with the first character behind a token, and where it leads. -/
def lexFirst (c : Char) : List Token × LexMode :=
  if c = '\x60' then ([], .quoted [])
  else if c.isAlpha || c = '_' || c = '@' then ([], .word [c])
  else if isWhitespace c then ([.whitespace], .between)
  else if c = '.' then ([.period], .between)
  else if c = ',' then ([.comma], .between)
  else if c = '(' then ([.lParen], .between)
  else if c = ';' then ([.semiColon], .between)
  else ([.other [c]], .between)

def Tokenized.prepend (tokens : List Token) (rest : Tokenized) : Tokenized :=
  { rest with tokens := tokens ++ rest.tokens }

/-- The tokens of a text without comments, strings and numbers of several digits. -/
def lex : LexMode → Text → Tokenized
  | .between, [] => ⟨[.eof], true⟩
  | .word read, [] => ⟨[.word read none, .eof], true⟩
  | .closing read, [] => ⟨[.word read (some '\x60'), .eof], true⟩
  | .quoted _, [] => ⟨[], false⟩
  | .between, c :: rest => (lex (lexFirst c).2 rest).prepend (lexFirst c).1
  | .word read, c :: rest =>
    if isWordChar c then lex (.word (read ++ [c])) rest
    else (lex (lexFirst c).2 rest).prepend (.word read none :: (lexFirst c).1)
  | .quoted read, c :: rest =>
    if c = '\x60' then lex (.closing read) rest else lex (.quoted (read ++ [c])) rest
  | .closing read, c :: rest =>
    if c = '\x60' then lex (.quoted (read ++ ['\x60'])) rest
    else (lex (lexFirst c).2 rest).prepend (.word read (some '\x60') :: (lexFirst c).1)

def plainTokenizer : Tokenizer := lex .between

theorem significant_append (tokens more : List Token) :
    significant (tokens ++ more) = significant tokens ++ significant more := by
  simp [significant]

/-- A name is read up to its closing backtick. -/
theorem lex_quoted (read name rest : Text) :
    lex (.quoted read) (replaceChar '\x60' ['\x60', '\x60'] name ++ '\x60' :: rest) =
      lex (.closing (read ++ name)) rest := by
  induction name generalizing read with
  | nil => simp [replaceChar, lex]
  | cons c name ih =>
    have ih := ih (read ++ [c])
    simp only [replaceChar, flatMap_cons, append_assoc] at ih ⊢
    by_cases hc : c = '\x60'
    · subst hc
      simpa [lex] using ih
    · simpa [lex, hc] using ih

/-- A name in backticks is one token, if no backtick follows. -/
theorem lex_quoteName (name rest : Text) (h : rest.head? ≠ some '\x60') :
    (lex .between (quoteName name ++ rest)).tokens =
      .word name (some '\x60') :: (lex .between rest).tokens := by
  have hquoted : lex .between (quoteName name ++ rest) = lex (.closing name) rest := by
    have := lex_quoted [] name rest
    simpa [quoteName, lex, lexFirst, Tokenized.prepend] using this
  rw [hquoted]
  cases rest with
  | nil => rfl
  | cons c rest =>
    have hc : c ≠ '\x60' := by simpa using h
    simp [lex, hc, Tokenized.prepend]

theorem lex_quotedTable (rest : Text) (h : rest.head? ≠ some '\x60') :
    (lex .between (quotedTable table ++ rest)).tokens =
      tableTokens table ++ (lex .between rest).tokens := by
  obtain ⟨database, name⟩ := table
  cases database with
  | none => exact lex_quoteName name rest h
  | some database =>
    simp only [quotedTable, append_assoc, cons_append]
    rw [lex_quoteName _ _ (by simp)]
    change _ :: .period :: (lex .between (quoteName name ++ rest)).tokens = _
    rw [lex_quoteName _ _ h]
    rfl

theorem significant_tableTokens : significant (tableTokens table) = tableTokens table := by
  obtain ⟨database, name⟩ := table
  cases database <;> rfl

theorem head_moreTables :
    (tables.flatMap fun table => ", ".toList ++ quotedTable table).head? ≠
      some '\x60' := by
  cases tables <;> simp

/-- The further tables of a list are read with their commas. -/
theorem lex_moreTables :
    significant (lex .between (tables.flatMap fun table =>
        ", ".toList ++ quotedTable table)).tokens =
      tables.flatMap fun table => .comma :: tableTokens table := by
  induction tables with
  | nil => rfl
  | cons table tables ih =>
    rw [flatMap_cons]
    change significant ([.comma, .whitespace] ++ (lex .between (quotedTable table ++ _)).tokens) = _
    rw [lex_quotedTable table _ (head_moreTables tables), significant_append, significant_append,
      ih, significant_tableTokens]
    rfl

theorem plainTokenizer_readsQuoted : ReadsQuoted plainTokenizer := by
  intro ifExists table tables
  have hlist : significant (lex .between ((", ".toList).intercalate
      ((table :: tables).map quotedTable))).tokens =
        [comma].intercalate ((table :: tables).map tableTokens) := by
    rw [intercalate_map, intercalate_map, lex_quotedTable _ _ (head_moreTables tables),
      significant_append, significant_tableTokens, lex_moreTables]
    rfl
  have hdrop : ∀ rest, (lex .between ("DROP TABLE ".toList ++ rest)).tokens =
      [.word "DROP".toList none, .whitespace, .word "TABLE".toList none, .whitespace] ++
        (lex .between rest).tokens := fun rest => rfl
  have hexists : ∀ rest, (lex .between ("IF EXISTS ".toList ++ rest)).tokens =
      [.word "IF".toList none, .whitespace, .word "EXISTS".toList none, .whitespace] ++
        (lex .between rest).tokens := fun rest => rfl
  unfold tokensOf plainTokenizer dropTables dropTokens
  rw [append_assoc, hdrop, significant_append]
  cases ifExists with
  | true =>
    rw [if_pos rfl, hexists, significant_append, hlist]
    rfl
  | false =>
    rw [if_neg Bool.false_ne_true, nil_append, hlist]
    rfl

/-- The words before the name of a table that an `ALTER TABLE` of MySQL, MariaDB, Doris or StarRocks
changes besides its own. -/
def otherTableWords : List (List String) :=
  [["RENAME", "TO"], ["SWAP", "WITH"], ["WITH", "TABLE"], ["TO", "TABLE"], ["CONVERT", "TABLE"]]

/-- The tables besides its own that an `ALTER TABLE` renames, swaps, replaces or converts. -/
def alteredToo (tokens : List Token) : List SqlFileTable :=
  (eat "ALTER" tokens).elim [] fun rest =>
    rest.tails.flatMap fun suffix => otherTableWords.flatMap fun words =>
      (words.foldlM (fun cursor word => eat word cursor) suffix).elim [] nameAt

/-- A server for plain statements. -/
def plainServer : Server where
  changes sql :=
    targets (tokensOf plainTokenizer sql) ++ alteredToo (tokensOf plainTokenizer sql)
  changes_dropTables ifExists table tables := by
    rw [plainTokenizer_readsQuoted, targets_dropTokens]
    exact append_nil _

/-- A dump of two databases. -/
def shopDump : List Text :=
  ["USE shop".toList, "CREATE VIEW totals AS SELECT id FROM orders".toList,
    "DROP TABLE IF EXISTS users, orders".toList, "CREATE TABLE users (id INT)".toList,
    "LOCK TABLES users WRITE".toList, "INSERT INTO users VALUES (1)".toList,
    "INSERT INTO orders VALUES (1)".toList, "USE other".toList,
    "INSERT INTO users VALUES (2)".toList, "INSERT INTO shop.users VALUES (3)".toList]

def shopUsers : SqlFileTable := ⟨some "shop".toList, "users".toList⟩

/-- An insert with blanks before the name of its table. -/
def paddedInsert (blanks : Nat) (rest : Text) : Text :=
  ("INSERT INTO ".toList ++ replicate blanks ' ') ++ rest

/-- The blanks before a name leave no tokens. -/
theorem tokensOf_paddedInsert (blanks : Nat) (rest : Text) :
    tokensOf plainTokenizer (paddedInsert blanks rest) =
      .word "INSERT".toList none :: .word "INTO".toList none :: tokensOf plainTokenizer rest := by
  have hblanks : significant (lex .between (replicate blanks ' ' ++ rest)).tokens =
      significant (lex .between rest).tokens := by
    induction blanks with
    | zero => rw [replicate_zero, nil_append]
    | succ blanks ih =>
      have hblank : ∀ rest, significant (lex .between (' ' :: rest)).tokens =
          significant (lex .between rest).tokens := fun rest => rfl
      rw [replicate_succ, cons_append, hblank, ih]
  have hwords : ∀ rest, significant (lex .between ("INSERT INTO ".toList ++ rest)).tokens =
      .word "INSERT".toList none :: .word "INTO".toList none ::
        significant (lex .between rest).tokens := fun rest => rfl
  unfold paddedInsert tokensOf plainTokenizer
  rw [append_assoc, hwords, hblanks]

theorem take_paddedInsert {blanks : Nat} {rest : Text} {n : Nat}
    (h : 12 + blanks + n = headerLimit) :
    (paddedInsert blanks rest).take headerLimit = paddedInsert blanks (rest.take n) := by
  have hlength : ("INSERT INTO ".toList ++ replicate blanks ' ').length = 12 + blanks := by
    have hwords : "INSERT INTO ".toList.length = 12 := by decide +kernel
    rw [length_append, length_replicate, hwords]
  unfold paddedInsert
  rw [← h, ← hlength, take_length_add_append]

theorem classify_insertInto {filter : TableRestoreFilter} {sql : Text}
    (h : tokensOf plainTokenizer (sql.take headerLimit) =
      [.word "INSERT".toList none, .word "INTO".toList none, .word "users".toList none]) :
    filter.classify plainTokenizer sql =
      .ok (.table ⟨filter.database, "users".toList⟩, filter) := by
  unfold tokensOf at h
  unfold classify
  simp only [h]
  rfl

/-- An insert into a table whose name is cut to `users`. -/
def cutInsert : Text := paddedInsert 16367 "users_archive VALUES (1)".toList

def users : SqlFileTable := ⟨none, "users".toList⟩

/-- A restore of one statement that is emitted and changes a table beside the selected one. -/
theorem not_along_of_emitted {sql : Text} {after : TableRestoreFilter} {table : SqlFileTable}
    (hfilter : (World.initial []).filter.filter plainTokenizer [users] sql = .ok (some sql, after))
    (hchanges : table ∈ plainServer.changes sql) (hother : table.within none ∉ [users]) :
    ¬ Along (step plainTokenizer [users]) (StepSafe plainServer plainTokenizer [users])
      (.initial []) [sql] := fun hsafe =>
  hother ((hsafe.1 _ _ hfilter).executed sql rfl table hchanges)

/-- The statement is emitted as one of `users` and inserts into `users_archive`. -/
theorem not_along_cutInsert : scan plainTokenizer [cutInsert] = .ok ([users], []) ∧
    ¬ Along (step plainTokenizer [users]) (StepSafe plainServer plainTokenizer [users])
      (.initial []) [cutInsert] := by
  have hpart : tokensOf plainTokenizer (cutInsert.take headerLimit) =
      [.word "INSERT".toList none, .word "INTO".toList none, .word "users".toList none] := by
    rw [cutInsert, take_paddedInsert (n := 5) rfl, tokensOf_paddedInsert]
    rfl
  have hwhole : plainServer.changes cutInsert = [⟨none, "users_archive".toList⟩] := by
    simp only [plainServer, cutInsert, tokensOf_paddedInsert]
    decide +kernel
  have hinspect : default.inspect plainTokenizer cutInsert = .ok ⟨none, [users], []⟩ := by
    rw [inspect, classify_insertInto hpart]
    rfl
  have hfilter : (World.initial []).filter.filter plainTokenizer [users] cutInsert =
      .ok (some cutInsert, ⟨none, [users], []⟩) := by
    rw [TableRestoreFilter.filter, classify_insertInto hpart]
    rfl
  constructor
  · rw [scan, foldlM_cons, hinspect]
    rfl
  · exact not_along_of_emitted hfilter (hwhole ▸ mem_cons_self) (by decide +kernel)

/-- An `ALTER TABLE` that changes a second table, behind its header. -/
def swapTables : Text := "ALTER TABLE users SWAP WITH orders".toList

end Dbx.Restore
