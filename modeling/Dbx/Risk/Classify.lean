import Dbx.Text.Basic

/-!
# Risk of a parsed statement

A statement is classified by its syntax tree. The tree is that of the parser, reduced to what the
classification reads: the constructors it tells apart, and of a query its common table expressions,
its body, its locks and the functions that it calls anywhere. Expressions stay abstract; of a
predicate only the verdict is used whether it is obviously unbounded.

An `EXPLAIN` executes its statement when `ANALYZE` is given, as a keyword or in the option list.

## Main results

* `not_readOnly_of_isDangerous`: a dangerous statement is not classified as a read
* `explained_risk_iff`: an executing `EXPLAIN` keeps the risk of its statement exactly when every
  level gives `ANALYZE` as the keyword
-/

namespace Dbx.Risk

/-- `SqlRisk`. -/
inductive SqlRisk
  | readOnly
  | write
  | ddl
  | transaction
  deriving DecidableEq, Repr

/-- The variants of `is_show_read_only_statement`. -/
inductive ShowStatement
  | tables | columns | catalogs | databases | schemas | views | functions | create | variable
  | variables | status | processList | charset | objects | collation
  deriving DecidableEq, Repr

/-- The variants that define or alter objects and rights. -/
inductive DdlStatement
  | createTable | createView | createIndex | createSchema | createSequence | createRole | createType
  | alterTable | alterIndex | alterView | drop | truncate | grant | revoke
  deriving DecidableEq, Repr

/-- The variants of transaction control. -/
inductive TransactionStatement
  | startTransaction | commit | rollback
  deriving DecidableEq, Repr

/-- `SqliteOnConflict`. -/
inductive SqliteOnConflict
  | rollback | abort | fail | ignore | replace
  deriving DecidableEq, Repr

/-- `OnInsert`, with the action of a conflict clause. -/
inductive OnInsert
  | duplicateKeyUpdate
  | onConflictDoNothing
  | onConflictDoUpdate
  | other
  deriving DecidableEq, Repr

/-- The value of an option in a parenthesised list. -/
inductive OptionValue
  | word (text : Text)
  | number (text : Text)
  | other
  deriving DecidableEq, Repr

/-- `UtilityOption`. -/
structure UtilityOption where
  name : Text
  value : Option OptionValue
  deriving DecidableEq, Repr

/-- An `EXPLAIN`: its `ANALYZE` keyword and its option list. -/
structure Explain where
  analyze : Bool
  options : Option (List UtilityOption)
  deriving DecidableEq, Repr

/-- What the classification reads of an `INSERT` besides its source. -/
structure InsertClauses where
  replaceInto : Bool
  overwrite : Bool
  orConflict : Option SqliteOnConflict
  on : Option OnInsert
  deriving DecidableEq, Repr

/-- What the classification reads of an `UPDATE`. -/
structure UpdateClauses (ε : Type) where
  hasJoins : Bool
  hasFrom : Bool
  orConflict : Option SqliteOnConflict
  selection : Option ε
  deriving DecidableEq, Repr

/-- What the classification reads of a `DELETE`; of each table of `FROM`, whether it has joins. -/
structure DeleteClauses (ε : Type) where
  tables : List Text
  hasUsing : Bool
  fromJoins : List Bool
  selection : Option ε
  deriving DecidableEq, Repr

mutual

/-- `Statement`. -/
inductive Statement (ε : Type)
  | query (query : Query ε)
  | explain (explain : Explain) (statement : Statement ε)
  | explainTable
  | show (statement : ShowStatement)
  | use
  | insert (clauses : InsertClauses) (source : Option (Query ε))
  | update (clauses : UpdateClauses ε)
  | delete (clauses : DeleteClauses ε)
  | merge
  | ddl (statement : DdlStatement)
  | transaction (statement : TransactionStatement)
  | copy
  | pragma
  | other

/-- `Query`: its common table expressions, its body, its number of locking clauses, and the last
name part of each function that it calls anywhere. -/
inductive Query (ε : Type)
  | mk (ctes : List (Query ε)) (body : SetExpr ε) (locks : Nat) (calls : List (Option Text))

/-- `SetExpr`. -/
inductive SetExpr (ε : Type)
  | select (hasInto : Bool)
  | query (query : Query ε)
  | setOperation (left right : SetExpr ε)
  | insert (statement : Statement ε)
  | update (statement : Statement ε)
  | delete (statement : Statement ε)
  | merge (statement : Statement ε)
  | values
  | table

end

/-- `SIDE_EFFECT_SELECT_FUNCTIONS`. -/
def sideEffectSelectFunctions : List Text :=
  ["lo_create".toList, "lo_import".toList, "lo_unlink".toList, "nextval".toList,
    "pg_advisory_lock".toList, "pg_advisory_unlock".toList, "pg_advisory_unlock_all".toList,
    "pg_advisory_xact_lock".toList, "pg_cancel_backend".toList, "pg_reload_conf".toList,
    "pg_terminate_backend".toList, "pg_try_advisory_lock".toList,
    "pg_try_advisory_xact_lock".toList, "setval".toList, "sys_cancel_backend".toList]

/-- `query_calls_known_side_effect_function`, of the functions that a query calls. -/
def callsKnownSideEffectFunction (calls : List (Option Text)) : Bool :=
  calls.any fun name => name.any fun name =>
    sideEffectSelectFunctions.any (Text.toAsciiUppercase name == Text.toAsciiUppercase ·)

section Classification

variable {ε : Type} (detectSelectInto : Bool)

mutual

/-- `query_is_write_capable`. -/
def queryIsWriteCapable : Query ε → Bool
  | .mk ctes body locks calls =>
    anyIsWriteCapable ctes || setExprIsWriteCapable body || locks != 0 ||
      callsKnownSideEffectFunction calls

/-- Some common table expression can write. -/
def anyIsWriteCapable : List (Query ε) → Bool
  | [] => false
  | cte :: ctes => queryIsWriteCapable cte || anyIsWriteCapable ctes

/-- `set_expr_is_write_capable`. -/
def setExprIsWriteCapable : SetExpr ε → Bool
  | .select hasInto => detectSelectInto && hasInto
  | .query query => queryIsWriteCapable query
  | .setOperation left right => setExprIsWriteCapable left || setExprIsWriteCapable right
  | .insert _ | .update _ | .delete _ | .merge _ => true
  | .values | .table => false

end

/-- `classify_statement`. -/
def classifyStatement : Statement ε → SqlRisk
  | .query query => if queryIsWriteCapable detectSelectInto query then .write else .readOnly
  | .explain explain statement =>
    if explain.analyze then classifyStatement statement else .readOnly
  | .explainTable => .readOnly
  | .show _ => .readOnly
  | .insert .. | .update _ | .delete _ | .merge => .write
  | .ddl _ => .ddl
  | .transaction _ => .transaction
  | .copy => .write
  | .pragma => .write
  | .use | .other => .write

/-- The body of a query is a list of rows. -/
def Query.isValues : Query ε → Bool
  | .mk _ .values _ _ => true
  | _ => false

/-- What makes an `INSERT` dangerous. -/
def insertIsDangerous (clauses : InsertClauses) (source : Option (Query ε)) : Bool :=
  clauses.replaceInto || clauses.overwrite || clauses.orConflict = some .replace ||
    (match clauses.on with
      | some .onConflictDoNothing | none => false
      | some .duplicateKeyUpdate | some .onConflictDoUpdate | some .other => true) ||
    source.any (!·.isValues)

variable (predicateIsObviouslyUnbounded : ε → Bool)

/-- What makes an `UPDATE` dangerous. -/
def updateIsDangerous (clauses : UpdateClauses ε) : Bool :=
  clauses.hasJoins || clauses.hasFrom || clauses.orConflict = some .replace ||
    clauses.selection.all predicateIsObviouslyUnbounded

/-- What makes a `DELETE` dangerous. -/
def deleteIsDangerous (clauses : DeleteClauses ε) : Bool :=
  !clauses.tables.isEmpty || clauses.hasUsing || clauses.fromJoins.length != 1 ||
    clauses.fromJoins.head?.all id || clauses.selection.all predicateIsObviouslyUnbounded

mutual

/-- `statement_is_dangerous`. -/
def statementIsDangerous : Statement ε → Bool
  | .use => false
  | .query query => queryIsDangerous query
  | .insert clauses source => insertIsDangerous clauses source
  | .update clauses => updateIsDangerous predicateIsObviouslyUnbounded clauses
  | .delete clauses => deleteIsDangerous predicateIsObviouslyUnbounded clauses
  | .merge => true
  | .explain explain statement =>
    if explain.analyze then statementIsDangerous statement
    else classifyStatement detectSelectInto (.explain explain statement) != .readOnly
  | .explainTable => classifyStatement detectSelectInto (.explainTable : Statement ε) != .readOnly
  | .show kind => classifyStatement detectSelectInto (.show kind : Statement ε) != .readOnly
  | .ddl kind => classifyStatement detectSelectInto (.ddl kind : Statement ε) != .readOnly
  | .transaction kind =>
    classifyStatement detectSelectInto (.transaction kind : Statement ε) != .readOnly
  | .copy => classifyStatement detectSelectInto (.copy : Statement ε) != .readOnly
  | .pragma => classifyStatement detectSelectInto (.pragma : Statement ε) != .readOnly
  | .other => classifyStatement detectSelectInto (.other : Statement ε) != .readOnly

/-- `query_is_dangerous`. -/
def queryIsDangerous : Query ε → Bool
  | .mk ctes body locks calls =>
    anyIsDangerous ctes || setExprIsDangerous body || locks != 0 ||
      callsKnownSideEffectFunction calls

/-- Some common table expression is dangerous. -/
def anyIsDangerous : List (Query ε) → Bool
  | [] => false
  | cte :: ctes => queryIsDangerous cte || anyIsDangerous ctes

/-- `set_expr_is_dangerous`. -/
def setExprIsDangerous : SetExpr ε → Bool
  | .select hasInto => detectSelectInto && hasInto
  | .query query => queryIsDangerous query
  | .setOperation left right => setExprIsDangerous left || setExprIsDangerous right
  | .insert statement | .update statement | .delete statement | .merge statement =>
    statementIsDangerous statement
  | .values | .table => false

end

/-! ### What is dangerous is no read -/

variable {detectSelectInto} {predicateIsObviouslyUnbounded}

mutual

theorem queryIsWriteCapable_of_isDangerous : ∀ query : Query ε,
    queryIsDangerous detectSelectInto predicateIsObviouslyUnbounded query →
      queryIsWriteCapable detectSelectInto query
  | .mk ctes body locks calls => by
    simp only [queryIsDangerous, queryIsWriteCapable, Bool.or_eq_true]
    rintro (((hctes | hbody) | hlocks) | hcalls)
    · exact .inl (.inl (.inl (anyIsWriteCapable_of_isDangerous ctes hctes)))
    · exact .inl (.inl (.inr (setExprIsWriteCapable_of_isDangerous body hbody)))
    · exact .inl (.inr hlocks)
    · exact .inr hcalls

theorem anyIsWriteCapable_of_isDangerous : ∀ ctes : List (Query ε),
    anyIsDangerous detectSelectInto predicateIsObviouslyUnbounded ctes →
      anyIsWriteCapable detectSelectInto ctes
  | [] => by simp [anyIsDangerous]
  | cte :: ctes => by
    simp only [anyIsDangerous, anyIsWriteCapable, Bool.or_eq_true]
    rintro (hcte | hctes)
    · exact .inl (queryIsWriteCapable_of_isDangerous cte hcte)
    · exact .inr (anyIsWriteCapable_of_isDangerous ctes hctes)

theorem setExprIsWriteCapable_of_isDangerous : ∀ body : SetExpr ε,
    setExprIsDangerous detectSelectInto predicateIsObviouslyUnbounded body →
      setExprIsWriteCapable detectSelectInto body
  | .select hasInto => id
  | .query query => queryIsWriteCapable_of_isDangerous query
  | .setOperation left right => by
    simp only [setExprIsDangerous, setExprIsWriteCapable, Bool.or_eq_true]
    rintro (hleft | hright)
    · exact .inl (setExprIsWriteCapable_of_isDangerous left hleft)
    · exact .inr (setExprIsWriteCapable_of_isDangerous right hright)
  | .insert _ | .update _ | .delete _ | .merge _ => fun _ => rfl
  | .values | .table => id

end

/-- A dangerous statement is not classified as a read. -/
theorem not_readOnly_of_isDangerous : ∀ statement : Statement ε,
    statementIsDangerous detectSelectInto predicateIsObviouslyUnbounded statement →
      classifyStatement detectSelectInto statement ≠ .readOnly
  | .query query => by
    intro h
    simp [classifyStatement, queryIsWriteCapable_of_isDangerous query h]
  | .explain explain statement => by
    simp only [statementIsDangerous, classifyStatement]
    split
    · exact not_readOnly_of_isDangerous statement
    · simp
  | .insert .. | .update _ | .delete _ | .merge | .use | .other | .copy | .pragma => by
    simp [classifyStatement]
  | .ddl _ | .transaction _ => by simp [classifyStatement]
  | .explainTable | .show _ => by simp [statementIsDangerous, classifyStatement]

end Classification

/-! ### Levels of `EXPLAIN` -/

/-- The boolean value of an option, where it has one: an option without a value is on. -/
def UtilityOption.isOn (option : UtilityOption) : Bool :=
  match option.value with
  | none => true
  | some (.word text) =>
    Text.toAsciiUppercase text = "TRUE".toList || Text.toAsciiUppercase text = "ON".toList
  | some (.number text) => text = "1".toList
  | some .other => false

/-- An `EXPLAIN` executes its statement: `ANALYZE` is given as the keyword, or the last `ANALYZE` of
the option list is on. -/
def Explain.executes (explain : Explain) : Bool :=
  explain.analyze || (((explain.options.getD []).filter fun option =>
    Text.toAsciiUppercase option.name = "ANALYZE".toList).getLast?.any UtilityOption.isOn)

/-- An `EXPLAIN` executes its statement by its option list alone. -/
def Explain.executesByOption (explain : Explain) : Bool := !explain.analyze && explain.executes

variable {ε : Type} {detectSelectInto : Bool} {predicateIsObviouslyUnbounded : ε → Bool}

/-- A statement under levels of `EXPLAIN`, the outermost first. -/
def explained (levels : List Explain) (statement : Statement ε) : Statement ε :=
  levels.foldr .explain statement

variable {levels : List Explain}

theorem explained_eq {β : Type} {f : Statement ε → β}
    (hf : ∀ level statement, level.analyze → f (.explain level statement) = f statement)
    (h : ∀ level ∈ levels, level.analyze) (statement : Statement ε) :
    f (explained levels statement) = f statement := by
  induction levels with
  | nil => rfl
  | cons level levels ih =>
    rw [explained, List.foldr_cons, hf level _ (h level (by simp))]
    exact ih fun level hlevel => h level (by simp [hlevel])

theorem classifyStatement_explained (h : ∀ level ∈ levels, level.analyze)
    (statement : Statement ε) :
    classifyStatement detectSelectInto (explained levels statement) =
      classifyStatement detectSelectInto statement :=
  explained_eq (fun _ _ hlevel => by rw [classifyStatement, if_pos hlevel]) h statement

theorem statementIsDangerous_explained
    (h : ∀ level ∈ levels, level.analyze) (statement : Statement ε) :
    statementIsDangerous detectSelectInto predicateIsObviouslyUnbounded
        (explained levels statement) =
      statementIsDangerous detectSelectInto predicateIsObviouslyUnbounded statement :=
  explained_eq (fun _ _ hlevel => by rw [statementIsDangerous, if_pos hlevel]) h statement

/-- Without the keyword at some level the statement counts as a read. -/
theorem classifyStatement_explained_readOnly
    (h : ∃ level ∈ levels, level.analyze = false) (statement : Statement ε) :
    classifyStatement detectSelectInto (explained levels statement) = .readOnly := by
  induction levels with
  | nil => simp at h
  | cons level levels ih =>
    rw [explained, List.foldr_cons, classifyStatement]
    -- the outermost level without the keyword decides
    split
    · next hanalyze =>
      apply ih
      obtain ⟨inner, hinner, hplain⟩ := h
      rcases List.mem_cons.mp hinner with rfl | hinner
      · simp [hanalyze] at hplain
      · exact ⟨inner, hinner, hplain⟩
    · rfl

/-- **An executing `EXPLAIN` keeps the risk of its statement exactly when every level gives
`ANALYZE` as the keyword**: a statement that can write or is dangerous, under levels of `EXPLAIN`
that all execute it, is not classified as a read and stays dangerous if and only if no level has
`ANALYZE` in the option list only. -/
theorem explained_risk_iff (statement : Statement ε) (levels : List Explain)
    (hrisk : classifyStatement detectSelectInto statement ≠ .readOnly ∨
      statementIsDangerous detectSelectInto predicateIsObviouslyUnbounded statement = true)
    (hexecutes : ∀ level ∈ levels, level.executes) :
    (classifyStatement detectSelectInto (explained levels statement) ≠ .readOnly ∧
      (statementIsDangerous detectSelectInto predicateIsObviouslyUnbounded statement = true →
        statementIsDangerous detectSelectInto predicateIsObviouslyUnbounded
          (explained levels statement) = true)) ↔
      ∀ level ∈ levels, level.executesByOption = false := by
  have hkeyword : (∀ level ∈ levels, level.executesByOption = false) ↔
      ∀ level ∈ levels, level.analyze = true := by
    refine forall₂_congr fun level hlevel => ?_
    simp [Explain.executesByOption, hexecutes level hlevel]
  rw [hkeyword]
  have hwrite : classifyStatement detectSelectInto statement ≠ .readOnly :=
    hrisk.elim id (not_readOnly_of_isDangerous statement)
  constructor
  · rintro ⟨hclass, -⟩ level hlevel
    by_contra hplain
    exact hclass (classifyStatement_explained_readOnly
      ⟨level, hlevel, by simpa using hplain⟩ statement)
  · intro hall
    refine ⟨?_, fun hdangerous => ?_⟩
    · rwa [classifyStatement_explained hall]
    · rwa [statementIsDangerous_explained hall]

/-- `DELETE FROM t` without a predicate. -/
def deleteAll : Statement Unit := .delete ⟨[], false, [false], none⟩

theorem explainAnalyze_deleteAll :
    (classifyStatement false (explained [⟨true, none⟩] deleteAll) ≠ .readOnly ∧
      (statementIsDangerous false (fun _ => false) deleteAll = true →
        statementIsDangerous false (fun _ => false)
          (explained [⟨true, none⟩] deleteAll) = true)) ↔
      ∀ level ∈ [(⟨true, none⟩ : Explain)], level.executesByOption = false :=
  explained_risk_iff deleteAll [⟨true, none⟩] (.inl (by decide)) (by decide)

/-- `EXPLAIN (ANALYZE, FORMAT JSON)`. -/
def explainAnalyzeOption : Explain :=
  ⟨false, some [⟨"ANALYZE".toList, none⟩, ⟨"FORMAT".toList, some (.word "JSON".toList)⟩]⟩

/-- **`ANALYZE` in the option list goes unseen**: the statement is executed, and classified as a
read that is not dangerous. -/
theorem explainAnalyzeOption_deleteAll : explainAnalyzeOption.executes = true ∧
      statementIsDangerous false (fun _ => false) deleteAll = true ∧
      classifyStatement false (explained [explainAnalyzeOption] deleteAll) = .readOnly ∧
      statementIsDangerous false (fun _ => false)
        (explained [explainAnalyzeOption] deleteAll) = false := by
  decide +kernel

end Dbx.Risk
