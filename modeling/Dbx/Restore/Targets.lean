import Dbx.Restore.Filter

/-!
# The tables of a statement

The header of a statement names the tables that it creates, drops, alters, inserts into or locks, by
the grammar of MySQL. A classification by the filter agrees with it: each of its outcomes says which
tables the header names, and whether the statement changes the database. What the statement does
behind its header is not read.

## Main results

* `headerName_append`: a name that ends before the tokens do is the same in every longer list
* `targets_of_headerName`: the name of an insert or of a new table is the one the header names
* `classify_outcome`: what `classify` says of a statement
-/

namespace Dbx.Restore

open Text List
open Option (getD_none bind_eq_bind bind_some map_some bind_eq_some_iff or_none map_eq_some_iff
  getD_some)

variable {tokenizer : Tokenizer}

/-! ### What a statement names -/

def tokensOf (tokenizer : Tokenizer) (sql : Text) : List Token := significant (tokenizer sql).tokens

/-- The table in the database that is in use, if it is named without one. -/
def SqlFileTable.within (current : Option Text) (table : SqlFileTable) : SqlFileTable :=
  { table with database := table.database.or current }

def nameAt (cursor : Cursor) : List SqlFileTable := ((cursor.table none).map Prod.fst).toList

/-- The name behind the first `ON`. -/
def nameBehindOn (tokens : List Token) : List SqlFileTable :=
  (tokens.findIdx? fun token => token.wordIs "ON".toList).elim [] fun index =>
    nameAt (tokens.drop (index + 1))

open Cursor

def skipInsertWords (rest : Cursor) : Cursor :=
  (["LOW_PRIORITY", "DELAYED", "HIGH_PRIORITY", "IGNORE"].foldl skip rest).skip "INTO"

/-- The tables that a `CREATE` creates or alters. -/
def createTargets (tokens : List Token) (rest : Cursor) : List SqlFileTable :=
  let rest := ((rest.skip "OR").skip "REPLACE").skip "TEMPORARY"
  match rest.eat "TABLE", (((rest.skip "UNIQUE").skip "FULLTEXT").skip "SPATIAL").eat "INDEX" with
  | some rest, _ => nameAt rest.skipIfNotExists
  | none, some _ => nameBehindOn tokens
  | none, none => []

/-- The tables that a `DROP` drops or alters. -/
def dropTargets (tokens : List Token) (rest : Cursor) : List SqlFileTable :=
  let rest := rest.skip "TEMPORARY"
  match (rest.eat "TABLE").or (rest.eat "TABLES"), rest.eat "INDEX" with
  | some rest, _ => ((rest.skipIfExists.tables none).map Prod.fst).getD []
  | none, some _ => nameBehindOn tokens
  | none, none => []

/-- The table that an `ALTER` names in its header. -/
def alterTargets (rest : Cursor) : List SqlFileTable :=
  (((rest.skip "ONLINE").skip "IGNORE").eat "TABLE").elim [] nameAt

/-- The tables that a `LOCK` locks. -/
def lockTargets (rest : Cursor) : List SqlFileTable :=
  ((rest.eat "TABLES").or (rest.eat "TABLE")).elim [] fun rest =>
    (rest.splitOn .comma).flatMap nameAt

/-- The tables that the header of a statement names for what it creates, drops, alters, inserts into
or locks. -/
def targets (tokens : List Token) : List SqlFileTable :=
  match (eat "INSERT" tokens).or (eat "REPLACE" tokens) with
  | some rest => nameAt (skipInsertWords rest)
  | none =>
    match eat "CREATE" tokens, eat "DROP" tokens, eat "ALTER" tokens, eat "LOCK" tokens with
    | some rest, _, _, _ => createTargets tokens rest
    | none, some rest, _, _ => dropTargets tokens rest
    | none, none, some rest, _ => alterTargets rest
    | none, none, none, some rest => lockTargets rest
    | none, none, none, none => []

def used (tokens : List Token) : Option Text :=
  ((eat "USE" tokens).bind identifier).map Prod.fst

/-- The database that is in use behind some statements, the last first. -/
def lastUse (tokenizer : Tokenizer) (statements : List Text) : Option Text :=
  statements.findSome? fun sql => used (tokensOf tokenizer sql)

def isDropTable (tokens : List Token) : Bool :=
  ((eat "DROP" tokens).bind (·.eat "TABLE")).isSome

/-! ### Cursors -/

variable {cursor : Cursor} {name : SqlFileTable}

variable (database : Option Text)

namespace Cursor

variable {word : String}

variable {tokens rest : Cursor}

/-- A cursor is at one word only. -/
theorem eat_eq_none (h : eat word tokens = some rest)
    (other : String) (hne : eqIgnoreAsciiCase word.toList other.toList = false) :
    eat other tokens = none := by
  cases tokens with
  | nil => cases h
  | cons token rest =>
    simp only [eat] at h ⊢
    split at h
    · rename_i hword
      refine if_neg fun hother => ?_
      cases token with
      | word value quoteStyle =>
        cases quoteStyle with
        | none =>
          simp only [Token.wordIs, eqIgnoreAsciiCase, beq_iff_eq] at hword hother
          simp [eqIgnoreAsciiCase, ← hword, ← hother] at hne
        | some c => cases hword
      | _ => cases hword
    · cases h

theorem eat_append (h : eat word tokens = some rest)
    (more : Cursor) : eat word (tokens ++ more) = some (rest ++ more) := by
  cases tokens with
  | nil => cases h
  | cons token tokens =>
    simp only [eat, cons_append] at h ⊢
    split at h <;> cases h
    rw [if_pos ‹_›]

theorem skip_eq_self {cursor rest : Cursor} (h : cursor.eat word = some rest)
    (other : String) (hne : eqIgnoreAsciiCase word.toList other.toList = false) :
    cursor.skip other = cursor := by
  rw [skip, eat_eq_none h other hne, getD_none]

theorem ne_nil_of_skip (h : cursor.skip word ≠ []) : cursor ≠ [] := by
  rintro rfl
  exact h rfl

theorem skip_append (h : cursor ≠ []) (more : Cursor) :
    (cursor ++ more).skip word = cursor.skip word ++ more := by
  obtain ⟨token, rest, rfl⟩ := exists_cons_of_ne_nil h
  simp only [skip, eat, cons_append]
  split <;> rfl

/-- The database in use matters only to a name without a database. -/
theorem table_eq_map (cursor : Cursor) :
    cursor.table database =
      (cursor.table none).map fun (table, rest) => (table.within database, rest) := by
  unfold table
  cases cursor.identifier with
  | none => rfl
  | some first =>
    simp only [bind_eq_bind, bind_some]
    cases first.2.eatToken .period with
    | none => rfl
    | some rest =>
      cases hname : rest.identifier with
      | none => simp [hname]
      | some name => simp [hname, SqlFileTable.within]

theorem moreTables_eq_map (fuel : Nat) (cursor : Cursor) :
    cursor.moreTables database fuel = (cursor.moreTables none fuel).map fun (tables, rest) =>
      (tables.map (·.within database), rest) := by
  induction fuel generalizing cursor with
  | zero => rfl
  | succ fuel ih =>
    unfold moreTables
    cases cursor.eatToken .comma with
    | none => rfl
    | some rest =>
      simp only [bind_eq_bind, table_eq_map database rest]
      cases rest.table none with
      | none => rfl
      | some first =>
        simp only [map_some, bind_some, ih first.2]
        cases first.2.moreTables none fuel with
        | none | some more => rfl

/-- The same for a list of tables. -/
theorem tables_eq_map (cursor : Cursor) :
    cursor.tables database = (cursor.tables none).map fun (tables, rest) =>
      (tables.map (·.within database), rest) := by
  unfold tables
  simp only [bind_eq_bind, table_eq_map database cursor]
  cases cursor.table none with
  | none => rfl
  | some first =>
    simp only [map_some, bind_some, moreTables_eq_map database]
    cases first.2.moreTables none first.2.length with
    | none | some more => rfl

theorem ne_nil_of_table {result : SqlFileTable × Cursor}
    (h : cursor.table none = some result) : cursor ≠ [] := by
  rintro rfl
  cases h

/-- A name that ends before the cursor does is read as before when more tokens follow. -/
theorem table_append {cursor rest : Cursor} {token : Token}
    (h : cursor.table none = some (name, token :: rest)) (more : Cursor) :
    (cursor ++ more).table none = some (name, token :: rest ++ more) := by
  rcases cursor with - | ⟨first, cursor⟩
  · cases h
  cases first with
  | word value quoteStyle =>
    rcases cursor with - | ⟨second, cursor⟩
    · cases h
    by_cases hperiod : second = .period
    · subst hperiod
      rcases cursor with - | ⟨third, cursor⟩
      · cases h
      cases third with
      | word name quoteStyle =>
        cases h
        rfl
      | _ => cases h
    · simp only [table, identifier, eatToken, bind_eq_bind, bind_some,
        cons_append, if_neg hperiod] at h ⊢
      cases h
      rfl
  | _ => cases h

end Cursor

/-! ### Names -/

/-- The table of an insert or of the creation of a table, with what follows the name. -/
def headerName (tokens : List Token) : Option (SqlFileTable × Cursor) :=
  match (eat "INSERT" tokens).or (eat "REPLACE" tokens) with
  | some rest => (skipInsertWords rest).table none
  | none =>
    ((eat "CREATE" tokens).bind (·.eat "TABLE")).bind fun rest =>
      rest.skipIfNotExists.table none

theorem eat_or_append {word other : String}
    (h : (eat word tokens).or (eat other tokens) = some rest) (more : Cursor) :
    (eat word (tokens ++ more)).or (eat other (tokens ++ more)) = some (rest ++ more) := by
  cases tokens with
  | nil => cases h
  | cons token tokens =>
    simp only [eat, cons_append] at h ⊢
    split at h <;> split at h <;> cases h <;> simp [*]

theorem skipInsertWords_append (h : skipInsertWords cursor ≠ [])
    (more : Cursor) : skipInsertWords (cursor ++ more) = skipInsertWords cursor ++ more := by
  simp only [skipInsertWords, foldl_cons, foldl_nil] at h ⊢
  -- nothing is skipped to the end
  have h4 := ne_nil_of_skip h
  have h3 := ne_nil_of_skip h4
  have h2 := ne_nil_of_skip h3
  have h1 := ne_nil_of_skip h2
  have h0 := ne_nil_of_skip h1
  rw [skip_append h0, skip_append h1, skip_append h2, skip_append h3, skip_append h4]

theorem skipIfNotExists_append (h : cursor.skipIfNotExists ≠ []) (more : Cursor) :
    skipIfNotExists (cursor ++ more) = cursor.skipIfNotExists ++ more := by
  unfold skipIfNotExists at h ⊢
  cases hif : cursor.eat "IF" with
  | some rest =>
    simp only [hif] at h
    have h1 := ne_nil_of_skip h
    have h0 := ne_nil_of_skip h1
    simp only [eat_append hif, skip_append h0, skip_append h1]
  | none =>
    simp only [hif] at h
    have hnone : eat "IF" (cursor ++ more) = none := by
      obtain ⟨token, rest, rfl⟩ := exists_cons_of_ne_nil h
      simpa only [eat, cons_append, ite_eq_right_iff, reduceCtorEq] using hif
    simp only [hnone]

/-- A table name that ends before the tokens do is the same in every longer list of tokens. -/
theorem headerName_append {token : Token}
    (h : headerName tokens = some (name, token :: rest)) (more : Cursor) :
    headerName (tokens ++ more) = some (name, token :: rest ++ more) := by
  unfold headerName at h ⊢
  cases hinsert : (eat "INSERT" tokens).or (eat "REPLACE" tokens) with
  | some after =>
    simp only [hinsert] at h
    simp only [eat_or_append hinsert, skipInsertWords_append (ne_nil_of_table h)]
    exact table_append h more
  | none =>
    simp only [hinsert] at h
    obtain ⟨after, hcreate, h⟩ := bind_eq_some_iff.mp h
    obtain ⟨first, hfirst, hafter⟩ := bind_eq_some_iff.mp hcreate
    have hnone : (eat "INSERT" (tokens ++ more)).or (eat "REPLACE" (tokens ++ more)) = none := by
      rw [eat_eq_none (eat_append hfirst more) _ rfl, eat_eq_none (eat_append hfirst more) _ rfl]
      rfl
    simp only [hnone, eat_append hfirst, bind_some, eat_append hafter,
      skipIfNotExists_append (ne_nil_of_table h)]
    exact table_append h more

/-! ### What a classification says -/

section Words

variable {word : String} {tokens rest after : Cursor}

variable (h : eat word tokens = some rest)

include h

theorem used_eq_none
    (hne : eqIgnoreAsciiCase word.toList "USE".toList = false) : used tokens = none := by
  rw [used, eat_eq_none h _ hne]
  rfl

theorem isDropTable_eq_false
    (hne : eqIgnoreAsciiCase word.toList "DROP".toList = false) : isDropTable tokens = false := by
  rw [isDropTable, eat_eq_none h _ hne]
  rfl

/-- The words that a statement which has tables starts with. -/
def tableWords : List String := ["INSERT", "REPLACE", "CREATE", "DROP", "ALTER", "LOCK"]

theorem targets_eq_nil
    (hne : ∀ other ∈ tableWords, eqIgnoreAsciiCase word.toList other.toList = false) :
    targets tokens = [] := by
  have hnone : ∀ other ∈ tableWords, eat other tokens = none := fun other hother =>
    eat_eq_none h other (hne other hother)
  simp only [tableWords, forall_mem_cons] at hnone
  obtain ⟨hinsert, hreplace, hcreate, hdrop, halter, hlock, -⟩ := hnone
  simp only [targets, hinsert, hreplace, hcreate, hdrop, halter, hlock, or_none]

omit h

/-- An `INSERT` or the creation of a table has the table it names in its header. -/
theorem targets_of_headerName (h : headerName tokens = some (name, rest)) :
    targets tokens = [name] ∧ used tokens = none ∧ isDropTable tokens = false := by
  unfold headerName at h
  cases hinsert : (eat "INSERT" tokens).or (eat "REPLACE" tokens) with
  | some after =>
    simp only [hinsert] at h
    have hfirst : ∃ word, (word = "INSERT" ∨ word = "REPLACE") ∧ eat word tokens = some after := by
      rcases Option.or_eq_some_iff.mp hinsert with h | ⟨-, h⟩
      · exact ⟨_, .inl rfl, h⟩
      · exact ⟨_, .inr rfl, h⟩
    refine ⟨by simp [targets, hinsert, nameAt, h], ?_⟩
    obtain ⟨word, rfl | rfl, hword⟩ := hfirst
    all_goals exact ⟨used_eq_none hword rfl, isDropTable_eq_false hword rfl⟩
  | none =>
    simp only [hinsert] at h
    obtain ⟨after, hcreate, h⟩ := bind_eq_some_iff.mp h
    obtain ⟨first, hfirst, hafter⟩ := bind_eq_some_iff.mp hcreate
    refine ⟨?_, used_eq_none hfirst rfl, isDropTable_eq_false hfirst rfl⟩
    -- nothing stands between `CREATE` and `TABLE`
    have hor := skip_eq_self hafter "OR" rfl
    have hreplace := skip_eq_self hafter "REPLACE" rfl
    have htemporary := skip_eq_self hafter "TEMPORARY" rfl
    simp [targets, hinsert, hfirst, createTargets, hor, hreplace, htemporary, hafter, nameAt, h]

/-- The index that a statement creates is one of the table behind `ON`. -/
theorem createTargets_index {index : Cursor}
    (h : (((rest.skip "UNIQUE").skip "FULLTEXT").skip "SPATIAL").eat "INDEX" = some index)
    (htable : rest.eat "TABLE" = none) : createTargets tokens rest = nameBehindOn tokens := by
  -- neither of the words that may stand before `TABLE` stands before an index
  have hne : ∀ other ∈ ["OR", "REPLACE", "TEMPORARY"],
      eqIgnoreAsciiCase other.toList "UNIQUE".toList = false ∧
        eqIgnoreAsciiCase other.toList "FULLTEXT".toList = false ∧
        eqIgnoreAsciiCase other.toList "SPATIAL".toList = false ∧
        eqIgnoreAsciiCase other.toList "INDEX".toList = false := by
    decide +kernel
  have hother : ∀ other ∈ ["OR", "REPLACE", "TEMPORARY"], rest.eat other = none := by
    intro other hother
    cases hrest : rest.eat other with
    | none => rfl
    | some after =>
      have hne := hne other hother
      rw [skip_eq_self hrest _ hne.1, skip_eq_self hrest _ hne.2.1,
        skip_eq_self hrest _ hne.2.2.1, eat_eq_none hrest _ hne.2.2.2] at h
      cases h
  simp only [forall_mem_cons] at hother
  obtain ⟨hor, hreplace, htemporary, -⟩ := hother
  have hskip : ((rest.skip "OR").skip "REPLACE").skip "TEMPORARY" = rest := by
    simp [skip, hor, hreplace, htemporary]
  simp only [createTargets, hskip, htable, h]

theorem targets_create (h : eat "CREATE" tokens = some rest) :
    targets tokens = createTargets tokens rest := by
  have hinsert := eat_eq_none h "INSERT" rfl
  have hreplace := eat_eq_none h "REPLACE" rfl
  simp only [targets, hinsert, hreplace, or_none, h]

theorem targets_drop (h : eat "DROP" tokens = some rest) :
    targets tokens = dropTargets tokens rest := by
  have hinsert := eat_eq_none h "INSERT" rfl
  have hreplace := eat_eq_none h "REPLACE" rfl
  have hcreate := eat_eq_none h "CREATE" rfl
  simp only [targets, hinsert, hreplace, hcreate, or_none, h]

theorem targets_alter (h : eat "ALTER" tokens = some rest) :
    targets tokens = alterTargets rest := by
  have hinsert := eat_eq_none h "INSERT" rfl
  have hreplace := eat_eq_none h "REPLACE" rfl
  have hcreate := eat_eq_none h "CREATE" rfl
  have hdrop := eat_eq_none h "DROP" rfl
  simp only [targets, hinsert, hreplace, hcreate, hdrop, or_none, h]

/-- The creation of something else has no tables. -/
theorem createTargets_eq_nil (h : rest.eat word = some after)
    (hne : ∀ other ∈ ["OR", "REPLACE", "TEMPORARY", "TABLE", "UNIQUE", "FULLTEXT", "SPATIAL",
      "INDEX"], eqIgnoreAsciiCase word.toList other.toList = false) :
    createTargets tokens rest = [] := by
  simp only [forall_mem_cons] at hne
  obtain ⟨hor, hreplace, htemporary, htable, hunique, hfulltext, hspatial, hindex, -⟩ := hne
  simp only [createTargets, skip_eq_self h _ hor, skip_eq_self h _ hreplace,
    skip_eq_self h _ htemporary, skip_eq_self h _ hunique,
    skip_eq_self h _ hfulltext, skip_eq_self h _ hspatial,
    eat_eq_none h _ htable, eat_eq_none h _ hindex]

end Words

/-- The view that a statement creates. -/
def viewOf (database : Option Text) (tokens : List Token) : Option SqlFileTable :=
  (eat "CREATE" tokens).bind fun rest =>
    if (rest.eat "TEMPORARY").isSome || (rest.eat "TABLE").isSome then none
    else
      ((tokens.takeWhile (· ≠ .lParen)).findIdx? fun token =>
        objectKinds.any fun kind => token.wordIs kind.toList).bind fun index =>
          if (tokens[index]?).any (·.wordIs "VIEW".toList) then
            (table database (tokens.drop (index + 1))).map Prod.fst
          else none

/-- A statement that neither has tables nor changes the database. -/
structure Quiet (tokens : List Token) : Prop where
  targets : targets tokens = []
  used : used tokens = none
  isDropTable : isDropTable tokens = false

/-- What a classification may say of a statement with some tokens, and what it does to the filter.
The tokens are those of the whole statement, or of a first part of it. -/
inductive Outcome (filter : TableRestoreFilter) (tokens : List Token) (whole : Prop) :
    Scope → TableRestoreFilter → Prop
  | named {table : SqlFileTable} {rest : Cursor} :
    headerName tokens = some (table, rest) →
      Outcome filter tokens whole (.table (table.within filter.database)) filter
  | altered {table : SqlFileTable} :
    whole → targets tokens = [table] → used tokens = none → isDropTable tokens = false →
      Outcome filter tokens whole (.table (table.within filter.database)) filter
  | dropped {tables : List SqlFileTable} {ifExists : Bool} :
    whole → targets tokens = tables → used tokens = none → isDropTable tokens = true →
      Outcome filter tokens whole (.dropTables (tables.map (·.within filter.database)) ifExists)
        filter
  | session : whole → Quiet tokens → Outcome filter tokens whole .session filter
  | use {database : Text} :
    whole → targets tokens = [] → used tokens = some database → isDropTable tokens = false →
      Outcome filter tokens whole (.databaseSession database)
        { filter with database := some database }
  | created {database : Text} :
    whole → Quiet tokens → Outcome filter tokens whole (.databaseSession database) filter
  | skipped :
    whole ∨ (eat "CREATE" tokens).isSome → used tokens = none →
      isDropTable tokens = false → Outcome filter tokens whole .skip filter
  | viewed {view : SqlFileTable} :
    viewOf filter.database tokens = some view →
      Outcome filter tokens whole .skip { filter with views := insertTable view filter.views }

section Classify

variable {filter after : TableRestoreFilter} {sql : Text} {tokens rest : List Token}
  {scope : Scope} {whole : Prop}

theorem quiet_of_eat (h : eat word tokens = some rest)
    (hne : ∀ other ∈ "USE" :: tableWords, eqIgnoreAsciiCase word.toList other.toList = false) :
    Quiet tokens where
  targets := targets_eq_nil h fun other hother => hne other (mem_cons_of_mem _ hother)
  used := used_eq_none h (hne _ mem_cons_self)
  isDropTable := isDropTable_eq_false h (hne _ (by simp [tableWords]))

open TableRestoreFilter

theorem tableScope_eq_ok (h : filter.tableScope sql cursor = .ok (scope, after)) :
    ∃ table rest, cursor.table none = some (table, rest) ∧
      scope = .table (table.within filter.database) ∧ after = filter := by
  unfold tableScope at h
  rw [table_eq_map] at h
  cases hname : cursor.table none with
  | none => simp [hname] at h
  | some named =>
    simp only [hname, map_some] at h
    cases h
    exact ⟨named.1, named.2, rfl, rfl, rfl⟩

variable (hwhole : whole)

include hwhole

theorem classifyUse_outcome (hfirst : eat "USE" tokens = some rest)
    (h : filter.classifyUse sql rest = .ok (scope, after)) :
    Outcome filter tokens whole scope after := by
  unfold classifyUse at h
  split at h
  · rename_i database _ hdatabase
    cases h
    refine .use hwhole (targets_eq_nil hfirst (by decide +kernel)) ?_
      (isDropTable_eq_false hfirst rfl)
    simp [used, hfirst, hdatabase]
  · cases h

theorem classifySet_outcome (hfirst : eat "SET" tokens = some rest)
    (h : filter.classifySet sql tokens rest = .ok (scope, after)) :
    Outcome filter tokens whole scope after := by
  have hquiet : Quiet tokens := quiet_of_eat hfirst (by decide +kernel)
  unfold classifySet at h
  split at h
  · cases h
  split at h
  · cases h
    exact .skipped (.inl hwhole) hquiet.used hquiet.isDropTable
  · cases h
    exact .session hwhole hquiet

theorem classifyBegin_outcome (hfirst : eat "BEGIN" tokens = some rest)
    (h : filter.classifyBegin sql rest = .ok (scope, after)) :
    Outcome filter tokens whole scope after := by
  unfold classifyBegin at h
  simp only at h
  split at h <;> cases h
  exact .session hwhole (quiet_of_eat hfirst (by decide +kernel))

omit hwhole

theorem isTransaction_quiet (h : isTransaction tokens) : Quiet tokens := by
  simp only [isTransaction, Bool.or_eq_true, Option.isSome_iff_exists] at h
  rcases h with (⟨rest, hstart⟩ | ⟨rest, hcommit⟩) | ⟨rest, hrollback⟩
  · obtain ⟨first, hfirst, -⟩ := bind_eq_some_iff.mp hstart
    exact quiet_of_eat hfirst (by decide +kernel)
  · exact quiet_of_eat hcommit (by decide +kernel)
  · exact quiet_of_eat hrollback (by decide +kernel)

include hwhole

theorem classifyCreateOther_outcome
    (hfirst : eat "CREATE" tokens = some rest) (htable : eat "TABLE" rest = none)
    (h : filter.classifyCreateOther sql tokens rest = some (.ok (scope, after))) :
    Outcome filter tokens whole scope after := by
  have hused := used_eq_none hfirst rfl
  have hdrop := isDropTable_eq_false hfirst rfl
  unfold classifyCreateOther at h
  split at h
  · rename_i second hsecond
    -- a database has no tables
    have htargets : targets tokens = [] := by
      rw [targets_create hfirst]
      rcases Option.or_eq_some_iff.mp hsecond with hword | ⟨-, hword⟩
      all_goals exact createTargets_eq_nil hword (by decide +kernel)
    split at h
    · split at h <;> cases h
      exact .created hwhole ⟨htargets, hused, hdrop⟩
    · cases h
      exact .skipped (.inl hwhole) hused hdrop
  · split at h
    · rename_i index hindex
      obtain ⟨position, hposition, hscope⟩ := map_eq_some_iff.mp h
      obtain ⟨table, rest, hname, rfl, rfl⟩ := tableScope_eq_ok hscope
      refine .altered hwhole ?_ hused hdrop
      rw [targets_create hfirst, createTargets_index hindex htable]
      rw [nameBehindOn, hposition, Option.elim_some, nameAt, hname]
      rfl
    · cases h

theorem classifyDrop_outcome (hfirst : eat "DROP" tokens = some rest)
    (h : filter.classifyDrop sql rest = some (.ok (scope, after))) :
    Outcome filter tokens whole scope after := by
  have hused := used_eq_none hfirst rfl
  unfold classifyDrop at h
  split at h
  · cases h
  split at h
  · rename_i second hsecond
    have htemporary := skip_eq_self hsecond "TEMPORARY" rfl
    simp only [tables_eq_map filter.database] at h
    split at h
    · cases h
    rename_i tables remainder htables
    obtain ⟨named, hnamed, hmap⟩ := map_eq_some_iff.mp htables
    obtain ⟨rfl, rfl⟩ := Prod.mk.inj hmap
    split at h <;> cases h
    refine .dropped hwhole ?_ hused (by simp [isDropTable, hfirst, hsecond])
    rw [targets_drop hfirst]
    simp [dropTargets, htemporary, hsecond, hnamed]
  · rename_i hsecond
    split at h <;> cases h
    exact .skipped (.inl hwhole) hused (by simp [isDropTable, hfirst, hsecond])

theorem classifyAlter_outcome {second : List Token} (hfirst : eat "ALTER" tokens = some rest)
    (hsecond : eat "TABLE" rest = some second)
    (h : filter.classifyAlter sql second = .ok (scope, after)) :
    Outcome filter tokens whole scope after := by
  unfold classifyAlter at h
  rw [table_eq_map] at h
  split at h
  · cases h
  rename_i table remainder htable
  obtain ⟨named, hnamed, hmap⟩ := map_eq_some_iff.mp htable
  obtain ⟨rfl, rfl⟩ := Prod.mk.inj hmap
  split at h
  · cases h
  cases h
  refine .altered hwhole ?_ (used_eq_none hfirst rfl) (isDropTable_eq_false hfirst rfl)
  rw [targets_alter hfirst]
  have honline := skip_eq_self hsecond "ONLINE" rfl
  have hignore := skip_eq_self hsecond "IGNORE" rfl
  simp only [alterTargets, honline, hignore, hsecond, Option.elim_some, nameAt, hnamed, map_some,
    Option.toList_some]

theorem classifyWhole_outcome
    (hcreate : ∀ rest, eat "CREATE" tokens = some rest → eat "TABLE" rest = none)
    (h : filter.classifyWhole sql tokens = .ok (scope, after)) :
    Outcome filter tokens whole scope after := by
  unfold classifyWhole at h
  split at h
  · exact classifyUse_outcome hwhole ‹_› h
  · exact classifySet_outcome hwhole ‹_› h
  · exact classifyBegin_outcome hwhole ‹_› h
  split at h
  · cases h
    exact .session hwhole (isTransaction_quiet ‹_›)
  split at h
  · rename_i hlock
    cases h
    rw [Bool.or_eq_true, Option.isSome_iff_exists, Option.isSome_iff_exists] at hlock
    rcases hlock with ⟨rest, hword⟩ | ⟨rest, hword⟩
    all_goals
      exact .skipped (.inl hwhole) (used_eq_none hword rfl) (isDropTable_eq_false hword rfl)
  -- the statement starts with `CREATE`, `DROP` or `ALTER TABLE`
  cases hother : (eat "CREATE" tokens).bind (filter.classifyCreateOther sql tokens) with
  | some result =>
    rw [hother] at h
    subst h
    obtain ⟨rest, hfirst, hresult⟩ := bind_eq_some_iff.mp hother
    exact classifyCreateOther_outcome hwhole hfirst (hcreate rest hfirst) hresult
  | none =>
    rw [hother] at h
    cases hdrop : (eat "DROP" tokens).bind (filter.classifyDrop sql) with
    | some result =>
      rw [hdrop] at h
      subst h
      obtain ⟨rest, hfirst, hresult⟩ := bind_eq_some_iff.mp hdrop
      exact classifyDrop_outcome hwhole hfirst hresult
    | none =>
      rw [hdrop] at h
      cases halter : (eat "ALTER" tokens).bind (·.eat "TABLE") with
      | some second =>
        rw [halter, map_some] at h
        obtain ⟨rest, hfirst, hsecond⟩ := bind_eq_some_iff.mp halter
        exact classifyAlter_outcome hwhole hfirst hsecond h
      | none =>
        rw [halter] at h
        cases h

omit hwhole

theorem classifyCreate_outcome (hfirst : eat "CREATE" tokens = some rest)
    (hinsert : (eat "INSERT" tokens).or (eat "REPLACE" tokens) = none)
    (h : filter.classifyCreate sql tokens rest = some (.ok (scope, after))) :
    Outcome filter tokens whole scope after := by
  have hused := used_eq_none hfirst rfl
  have hdrop := isDropTable_eq_false hfirst rfl
  have hsome : (eat "CREATE" tokens).isSome := by simp [hfirst]
  unfold classifyCreate at h
  split at h
  · cases h
  rename_i htemporary
  split at h
  · rename_i second hsecond
    obtain ⟨table, remainder, hname, rfl, rfl⟩ := tableScope_eq_ok (Option.some.inj h)
    -- a table: its name is in the header
    have hheader : headerName tokens = some (table, remainder) := by
      simp [headerName, hinsert, hfirst, hsecond, hname]
    exact .named hheader
  · rename_i hsecond
    simp only at h
    split at h
    · cases h
    rename_i index hindex
    split at h
    · rename_i hview
      split at h
      · rename_i view remainder hname
        cases h
        -- a view is kept in mind, so that a placeholder of it is no table
        refine .viewed ?_
        rw [viewOf, hfirst, bind_some, hsecond, Option.isSome_none, Bool.or_false,
          if_neg htemporary, hindex, bind_some, if_pos hview, hname]
        rfl
      · cases h
    · cases h
      exact .skipped (.inr hsome) hused hdrop

/-- **What `classify` says of a statement.** -/
theorem classify_outcome (h : filter.classify tokenizer sql = .ok (scope, after)) :
    Outcome filter (tokensOf tokenizer (sql.take headerLimit)) (sql.length ≤ headerLimit) scope
      after := by
  unfold classify at h
  unfold tokensOf
  simp only at h
  generalize significant (tokenizer (sql.take headerLimit)).tokens = tokens at h ⊢
  split at h
  · -- there is nothing in the statement
    rename_i hempty
    cases h
    simp only [Bool.and_eq_true, decide_eq_true_eq, List.isEmpty_iff] at hempty
    rw [hempty.1.1]
    exact .skipped (.inl hempty.2) rfl rfl
  split at h
  · rename_i rest hinsert
    obtain ⟨table, remainder, hname, rfl, rfl⟩ := tableScope_eq_ok h
    have hheader : headerName tokens = some (table, remainder) := by
      simp only [headerName, hinsert]
      exact hname
    exact .named hheader
  rename_i hinsert
  cases hcreate : (eat "CREATE" tokens).bind (filter.classifyCreate sql tokens) with
  | some result =>
    rw [hcreate] at h
    subst h
    obtain ⟨rest, hfirst, hresult⟩ := bind_eq_some_iff.mp hcreate
    exact classifyCreate_outcome hfirst hinsert hresult
  | none =>
    rw [hcreate] at h
    split at h
    · cases h
    rename_i hwhole
    simp only [Bool.or_eq_true, not_or, Bool.not_eq_true, Bool.not_eq_false',
      decide_eq_true_eq] at hwhole
    refine classifyWhole_outcome hwhole.2 (fun rest hfirst => ?_) h
    -- the creation of a table is classified before
    cases hsecond : eat "TABLE" rest with
    | none => rfl
    | some second =>
      rw [hfirst, bind_some, classifyCreate, eat_eq_none hsecond _ rfl] at hcreate
      simp [hsecond] at hcreate

/-- A view that a statement creates is kept in mind. -/
theorem classify_of_viewOf {view : SqlFileTable}
    (hview : viewOf filter.database (tokensOf tokenizer (sql.take headerLimit)) = some view)
    (h : filter.classify tokenizer sql = .ok (scope, after)) : view ∈ after.views := by
  unfold classify at h
  unfold tokensOf at hview
  simp only at h
  generalize significant (tokenizer (sql.take headerLimit)).tokens = tokens at h hview
  obtain ⟨rest, hfirst, hview⟩ := bind_eq_some_iff.mp hview
  split at hview
  · cases hview
  rename_i hother
  rw [Bool.or_eq_true, not_or] at hother
  obtain ⟨index, hindex, hview⟩ := bind_eq_some_iff.mp hview
  split at hview
  · rename_i hkind
    obtain ⟨named, hname, rfl⟩ := map_eq_some_iff.mp hview
    -- of the branches that come first none takes the statement
    have htable : eat "TABLE" rest = none := by simpa using hother.2
    have hempty : tokens.isEmpty = false := by
      cases tokens with
      | nil => cases hfirst
      | cons token tokens => rfl
    rw [hempty, eat_eq_none hfirst "INSERT" rfl,
      eat_eq_none hfirst "REPLACE" rfl, hfirst, bind_some,
      classifyCreate, if_neg hother.1, htable] at h
    simp only [hindex, hkind, if_true, hname, or_none, getD_some] at h
    cases h
    simp only [insertTable]
    split
    · assumption
    · exact mem_cons_self
  · cases hview

end Classify

end Dbx.Restore
