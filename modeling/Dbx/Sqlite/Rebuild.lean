import Dbx.Faulty.Program
import Mathlib.Data.Multiset.Count
import Mathlib.Logic.Relation

/-!
# The transaction of a SQLite structure change

`execute_change_transaction` turns foreign keys off, runs the statements of a plan in a transaction,
compares the foreign key violations and restores the pragmas. Every call of SQLite is a site at
which it may fail, and a failed call may have ended the transaction.

A statement of the plan is a batch for SQLite: the default of a new column stands in it as it was
typed, so a batch may end the transaction itself.

## Main results

* `executeChangeTransaction_unchanged_iff`: a failed change changes nothing, exactly where the
  batches leave the committed content alone
* `leavesCommitted_of_open`: as they do where none of them ends the transaction
* `executeChangeTransaction_done`: a change that is done is the one that was previewed
* `firstAddedForeignKeyViolation_le_iff`: the violations are compared as multisets
-/

namespace Dbx.Sqlite

open Faulty Faulty.Program Relation

/-- The committed content, the content in the open transaction, and the pragmas. -/
structure Connection (D : Type) where
  database : D
  transaction : Option D := none
  foreignKeys : Bool
  legacyAlterTable : Bool
  deriving DecidableEq

/-- The calls and checks that may fail. -/
inductive Failure
  | readForeignKeys | readLegacyAlterTable | disableForeignKeys | enableLegacyAlterTable
  | undoForeignKeys | begin | plan | revision | warnings | baseline | statement (index : Nat)
  | check | violation | commit | restoreLegacyAlterTable | restoreForeignKeys
  deriving DecidableEq

/-- The text of an error. The parts of an error are joined by semicolons. -/
def Failure.text (cause : String) : Failure → String
  | readForeignKeys => "Failed to read SQLite foreign_keys state: " ++ cause
  | readLegacyAlterTable => "Failed to read SQLite legacy_alter_table state: " ++ cause
  | disableForeignKeys => "Failed to disable SQLite foreign key enforcement: " ++ cause
  | enableLegacyAlterTable =>
    "Failed to enable SQLite legacy_alter_table for the backup rename: " ++ cause
  | undoForeignKeys => "failed to restore foreign_keys state: " ++ cause
  | begin => "Failed to begin SQLite table rebuild transaction: " ++ cause
  | plan | baseline | check => cause
  | revision => "SQLite schema changed or the structure draft differs from the preview. " ++
    "Refresh the table structure and preview the change again."
  | warnings => "SQLite structure change cannot be applied: " ++ cause
  | statement index => "SQLite structure statement " ++ toString (index + 1) ++ " failed: " ++ cause
  | violation =>
    "SQLite foreign key check found a new violation after rebuilding the table: " ++ cause
  | commit => "SQLite table rebuild COMMIT failed: " ++ cause
  | restoreLegacyAlterTable => "Failed to restore SQLite legacy_alter_table state: " ++ cause
  | restoreForeignKeys => "Failed to restore SQLite foreign_keys state: " ++ cause

def Failure.restoring : Failure → Bool
  | undoForeignKeys | restoreLegacyAlterTable | restoreForeignKeys => true
  | _ => false

/-- `SqliteChangePlan`. -/
structure ChangePlan where
  statements : List String
  revision : String
  warnings : List String

variable {D V : Type}

namespace Connection

variable (c : Connection D)

def isAutocommit : Bool := c.transaction.isNone

def content : D := c.transaction.getD c.database

/-- The pragma `foreign_keys` does nothing in a transaction. -/
def setForeignKeys (on : Bool) : Connection D :=
  if c.isAutocommit then { c with foreignKeys := on } else c

def setLegacyAlterTable (on : Bool) : Connection D := { c with legacyAlterTable := on }

def begun : Connection D := { c with transaction := some c.database }

def committed : Connection D := { c with database := c.content, transaction := none }

def rolledBack : Connection D := { c with transaction := none }

end Connection

/-- SQLite: what a batch does, and whether it is done, and the check of the foreign keys. -/
structure Engine (D V : Type) where
  executeBatch : String → Connection D → Bool × Connection D
  violations : D → List V

abbrev Call (D α : Type) := Program Failure Unit (Connection D) (List Failure) α

/-- A call. Where it fails, it may have ended the transaction. -/
def call (site : Failure) (f : Connection D → Connection D) : Call D Unit :=
  step site [site] f fun _ => .rolledBack

def refuse (condition : Prop) [Decidable condition] (site : Failure) : Call D Unit :=
  if condition then fail [site] else pure ()

variable (engine : Engine D V)

/-- The loop over the statements, with the index of the one that failed. -/
def executeStatements : Nat → List String → Connection D → Option Nat × Connection D
  | _, [], c => (none, c)
  | index, statement :: rest, c =>
    match engine.executeBatch statement c with
    | (true, c) => executeStatements (index + 1) rest c
    | (false, c) => (some index, c)

/-- A batch is done. -/
def Executes (batches : Set String) (c c' : Connection D) : Prop :=
  ∃ s ∈ batches, engine.executeBatch s c = (true, c')

/-- Whatever batches have been done before it, a batch leaves the committed content alone. -/
def LeavesCommitted (batches : Set String) (start : Connection D) : Prop :=
  ∀ c, ReflTransGen (Executes engine batches) start c →
    ∀ s ∈ batches, (engine.executeBatch s c).2.database = start.database

section Loop

variable {engine} {batches : Set String} {start c : Connection D} {statements : List String}

/-- **The loop over the statements** leaves the committed content alone, if every batch does. -/
theorem executeStatements_database (h : LeavesCommitted engine batches start)
    (hstatements : ∀ s ∈ statements, s ∈ batches) (index : Nat)
    (hc : ReflTransGen (Executes engine batches) start c) (hkept : c.database = start.database) :
    (executeStatements engine index statements c).2.database = start.database := by
  induction statements generalizing index c with
  | nil => exact hkept
  | cons s rest ih =>
    obtain ⟨hs, hrest⟩ := List.forall_mem_cons.mp hstatements
    have hbatch := h c hc s hs
    rw [executeStatements]
    rcases hrun : engine.executeBatch s c with ⟨_ | _, c'⟩ <;> rw [hrun] at hbatch
    · exact hbatch
    · exact ih hrest (index + 1) (hc.tail ⟨s, hs, hrun⟩) hbatch

theorem executeStatements_append (index : Nat) {before after : List String} {c c' : Connection D}
    (h : executeStatements engine index before c = (none, c')) :
    executeStatements engine index (before ++ after) c =
      executeStatements engine (index + before.length) after c' := by
  induction before generalizing index c with
  | nil =>
    cases h
    rfl
  | cons s before ih =>
    rw [executeStatements] at h
    rw [List.cons_append, executeStatements, List.length_cons, Nat.add_comm before.length,
      ← Nat.add_assoc]
    rcases hrun : engine.executeBatch s c with ⟨_ | _, next⟩ <;> rw [hrun] at h
    · cases h
    · exact ih (index + 1) h

/-- What batches reach, a list of statements reaches. -/
theorem exists_executeStatements (h : ReflTransGen (Executes engine batches) start c) :
    ∃ statements : List String, (∀ s ∈ statements, s ∈ batches) ∧
      executeStatements engine 0 statements start = (none, c) := by
  induction h with
  | refl => exact ⟨[], nofun, rfl⟩
  | tail _ hlast ih =>
    obtain ⟨statements, hstatements, hrun⟩ := ih
    obtain ⟨s, hs, hdone⟩ := hlast
    refine ⟨statements ++ [s], by simpa [or_imp, forall_and] using ⟨hstatements, hs⟩, ?_⟩
    rw [executeStatements_append 0 hrun, executeStatements, hdone]
    rfl

/-- Batches that neither change the committed content of an open transaction nor end it. -/
theorem leavesCommitted_of_open (hstart : start.isAutocommit = false)
    (h : ∀ s ∈ batches, ∀ c : Connection D, c.isAutocommit = false →
      (engine.executeBatch s c).2.database = c.database ∧
        ((engine.executeBatch s c).1 → (engine.executeBatch s c).2.isAutocommit = false)) :
    LeavesCommitted engine batches start := by
  intro c hc s hs
  have hopen : c.isAutocommit = false ∧ c.database = start.database := by
    induction hc with
    | refl => exact ⟨hstart, rfl⟩
    | tail _ hlast ih =>
      obtain ⟨s, hs, hdone⟩ := hlast
      obtain ⟨hkept, hstays⟩ := h s hs _ ih.1
      rw [hdone] at hkept hstays
      exact ⟨hstays rfl, hkept.trans ih.2⟩
  exact (h s hs c hopen.1).1.trans hopen.2

end Loop

def perform (f : Connection D → Option Nat × Connection D) : Call D Unit := fun _ c =>
  match f c with
  | (none, c) => (.done (), c)
  | (some index, c) => (.failed [.statement index], c)

variable [DecidableEq V]

/-- `first_added_foreign_key_violation`, with the counts of the baseline that remain. -/
def firstAddedForeignKeyViolation (remaining : V → Nat) : List V → Option V
  | [] => none
  | v :: after =>
    if 0 < remaining v then
      firstAddedForeignKeyViolation (fun w => if w = v then remaining w - 1 else remaining w) after
    else some v

theorem firstAddedForeignKeyViolation_count (remaining : V → Nat) (after : List V) :
    (firstAddedForeignKeyViolation remaining after = none ↔ ∀ v, after.count v ≤ remaining v) ∧
      ∀ v ∈ firstAddedForeignKeyViolation remaining after, remaining v < after.count v := by
  induction after generalizing remaining with
  | nil => simp [firstAddedForeignKeyViolation]
  | cons v after ih =>
    rw [firstAddedForeignKeyViolation]
    split
    · next hpos =>
      -- one of the baseline is used up, and one of the list
      obtain ⟨hnone, hsome⟩ := ih fun w => if w = v then remaining w - 1 else remaining w
      refine ⟨hnone.trans (forall_congr' fun w => ?_), fun w hw => ?_⟩
      · grind
      · have := hsome w hw
        grind
    · next hzero =>
      have hv : remaining v < (v :: after).count v := by
        rw [List.count_cons_self]
        omega
      refine ⟨iff_of_false (Option.some_ne_none v) fun h => (h v).not_gt hv, ?_⟩
      rintro w ⟨⟩
      exact hv

/-- **No violation is added exactly where the list after is contained in the baseline**, each as
often as it occurs, and the one that is found occurs more often than before. -/
theorem firstAddedForeignKeyViolation_le_iff (baseline after : List V) :
    (firstAddedForeignKeyViolation (baseline.count ·) after = none ↔
        (after : Multiset V) ≤ baseline) ∧
      ∀ v ∈ firstAddedForeignKeyViolation (baseline.count ·) after,
        baseline.count v < after.count v := by
  obtain ⟨hnone, hsome⟩ := firstAddedForeignKeyViolation_count (baseline.count ·) after
  refine ⟨hnone.trans ?_, hsome⟩
  simp only [Multiset.le_iff_count, Multiset.coe_count]

/-- The operation in the transaction. -/
def operation (plan : Option ChangePlan) (expected : String) : Call D Unit := do
  call .begin .begun
  let some plan := plan | fail [.plan]
  refuse (plan.revision ≠ expected) .revision
  refuse (plan.warnings ≠ []) .warnings
  call .baseline id
  let baseline := engine.violations (← get).content
  perform (executeStatements engine 0 plan.statements)
  call .check id
  let after := engine.violations (← get).content
  refuse (firstAddedForeignKeyViolation (baseline.count ·) after).isSome .violation
  refuse (← get).isAutocommit .commit
  call .commit .committed

/-- The errors of a part whose failure is not the end. -/
def caught (p : Call D Unit) : Call D (List Failure) := do
  match ← attempt p with
  | .ok _ => pure []
  | .error e => pure e

def executeChangeTransaction (plan : Option ChangePlan) (expected : String) : Call D Unit := do
  call .readForeignKeys id
  call .readLegacyAlterTable id
  let before ← get
  call .disableForeignKeys (·.setForeignKeys false)
  let enabling ← caught (call .enableLegacyAlterTable (·.setLegacyAlterTable true))
  if enabling ≠ [] then
    let undoing ← caught (call .undoForeignKeys (·.setForeignKeys before.foreignKeys))
    fail (enabling ++ undoing)
  else
    let errors ← caught (operation engine plan expected)
    -- ROLLBACK, for an open transaction; its result is not looked at
    perform fun c => (none, if errors ≠ [] then c.rolledBack else c)
    let legacy ← caught (call .restoreLegacyAlterTable
      (·.setLegacyAlterTable before.legacyAlterTable))
    let keys ← caught (call .restoreForeignKeys (·.setForeignKeys before.foreignKeys))
    if errors ++ legacy ++ keys ≠ [] then fail (errors ++ legacy ++ keys)

/-- A failed change changes nothing, or the error says that restoring failed. -/
def Unchanged (before : Connection D) : Outcome (List Failure) Unit → Connection D → Prop
  | .failed e, c => c = before ∨ e.any Failure.restoring
  | _, _ => True

variable {engine} {faults : Failure → Option (Fault Unit)} {c m before : Connection D}
  {plan : Option ChangePlan} {expected : String}

theorem ensures_caught {p : Call D Unit}
    {Q : Outcome (List Failure) (List Failure) → Connection D → Prop} :
    Ensures (caught p) faults c Q ↔ Ensures p faults c fun outcome c' =>
      match outcome with
      | .done _ => Q (.done []) c'
      | .failed e => Q (.done e) c'
      | .died => Q .died c' := by
  rw [caught, ensures_bind, ensures_attempt]
  unfold Ensures
  rcases p faults c with ⟨_ | _ | _, c'⟩ <;> rfl

variable {Q : Outcome (List Failure) Unit → Connection D → Prop}

theorem ensures_perform {f : Connection D → Option Nat × Connection D} :
    Ensures (perform f) faults c Q ↔
      Q ((f c).1.elim (.done ()) fun index => .failed [.statement index]) (f c).2 := by
  unfold Ensures perform
  rcases f c with ⟨_ | _, _⟩ <;> rfl

theorem ensures_refuse {condition : Prop} [Decidable condition] {site : Failure} :
    Ensures (refuse condition site) faults c Q ↔
      (condition → Q (.failed [site]) c) ∧ (¬ condition → Q (.done ()) c) := by
  unfold refuse
  split_ifs <;> simp [*]

attribute [local simp] ensures_step ensures_bind ensures_perform ensures_get

/-- A failed operation leaves the committed content as the statements do. -/
theorem operation_database (hkeeps : ∀ p ∈ plan,
      (executeStatements engine 0 p.statements m.begun).2.database = m.database) :
    Ensures (operation engine plan expected) faults m fun outcome c =>
      outcome ≠ .done () → c.database = m.database := by
  have hbegun : m.begun.database = m.database := rfl
  have htorn {c : Connection D} (torn : Option Unit) :
      (torn.elim c fun _ => c.rolledBack).database = c.database := by
    cases torn <;> rfl
  rcases plan with _ | plan
  · simp [operation, call, htorn, hbegun]
  have hc := hkeeps plan rfl
  rcases hran : executeStatements engine 0 plan.statements m.begun with ⟨_ | index, c⟩ <;>
    simp only [hran] at hc <;>
    simp [operation, call, ensures_refuse, htorn, hran, hbegun, hc]

/-- The connection while the statements run. -/
def Connection.prepared (c : Connection D) : Connection D :=
  (c.setForeignKeys false).setLegacyAlterTable true

theorem Connection.database_prepared (c : Connection D) : c.prepared.database = c.database := by
  unfold prepared setForeignKeys
  split <;> rfl

open Connection

attribute [local simp] Failure.restoring Unchanged

theorem executeChangeTransaction_unchanged (hbefore : before.isAutocommit) (hkeeps : ∀ p ∈ plan,
      (executeStatements engine 0 p.statements before.prepared.begun).2.database =
        before.database) :
    Ensures (executeChangeTransaction engine plan expected) faults before (Unchanged before) := by
  have hidle (d : D) (k l : Bool) (torn : Option Unit) :
      (torn.elim ⟨d, none, k, l⟩ fun _ => rolledBack ⟨d, none, k, l⟩) =
        ⟨d, none, k, l⟩ := by
    cases torn <;> rfl
  obtain ⟨database, _ | _, foreignKeys, legacy⟩ := before <;> cases hbefore
  simp [executeChangeTransaction, call, ensures_caught, setForeignKeys, isAutocommit, hidle,
    setLegacyAlterTable]
  intros
  refine (operation_database hkeeps).mono fun outcome c hc => ?_
  rcases outcome with _ | e | _
  · trivial
  · by_cases he : e = []
    · simp [he]
    · have hdatabase : c.database = database := hc nofun
      simp [he, rolledBack, hdatabase]
  · trivial

/-- **A failed change changes nothing**, exactly for batches that leave the committed content alone:
an error behind a batch that has committed comes too late. -/
theorem executeChangeTransaction_unchanged_iff (batches : Set String) :
    (∀ faults plan expected (before : Connection D), before.isAutocommit →
      (∀ p ∈ plan, ∀ s ∈ p.statements, s ∈ batches) →
      Ensures (executeChangeTransaction engine plan expected) faults before (Unchanged before)) ↔
    ∀ before : Connection D, before.isAutocommit →
      LeavesCommitted engine batches before.prepared.begun := by
  constructor
  · intro hall before hbefore c hc s hs
    obtain ⟨statements, hstatements, hrun⟩ := exists_executeStatements hc
    -- the check behind the batch fails
    have h := hall (fun site => if site = .check then some (.fails none) else none)
      (some ⟨statements ++ [s], "", []⟩) "" before hbefore
      (by simpa [or_imp, forall_and] using ⟨hstatements, hs⟩)
    obtain ⟨_, _ | _, _, _⟩ := before <;> cases hbefore
    simp [executeChangeTransaction, operation, ensures_caught, call, ensures_refuse] at h
    rw [← prepared, executeStatements_append 0 hrun, executeStatements] at h
    rcases hbatch : engine.executeBatch s c with ⟨_ | _, c'⟩ <;> rw [hbatch] at h <;>
      simp [executeStatements] at h <;> exact (congrArg database h :)
  · intro hkeeps faults plan expected before hbefore hplan
    refine executeChangeTransaction_unchanged hbefore fun p hp => ?_
    rw [← database_prepared before]
    exact executeStatements_database (hkeeps before hbefore) (hplan p hp) 0 .refl rfl

/-- A table with so many columns. The batch is what a new column with the default `0; COMMIT`
becomes. -/
def addingColumn : Engine Nat Nat where
  executeBatch text c :=
    if text = "ALTER TABLE \"t\" ADD COLUMN \"c\" INTEGER DEFAULT 0; COMMIT;" then
      (true, { c with database := c.content + 1, transaction := none })
    else (true, c)
  violations _ := []

/-- The column is committed, the change fails for want of a transaction, and no call has failed. -/
theorem not_unchanged_defaultCommit :
    ¬ Ensures (executeChangeTransaction addingColumn
        (some ⟨["ALTER TABLE \"t\" ADD COLUMN \"c\" INTEGER DEFAULT 0; COMMIT;"], "", []⟩) "")
      (fun _ => none) ⟨1, none, true, false⟩ (Unchanged ⟨1, none, true, false⟩) := by
  rintro (h | h) <;> cases h

/-- The other batches leave the committed content alone. -/
example (before : Connection Nat) : LeavesCommitted addingColumn
    {s | s ≠ "ALTER TABLE \"t\" ADD COLUMN \"c\" INTEGER DEFAULT 0; COMMIT;"}
    before.prepared.begun := by
  refine leavesCommitted_of_open rfl fun s hs c hc => ?_
  have hbatch : addingColumn.executeBatch s c = (true, c) := if_neg hs
  rw [hbatch]
  exact ⟨rfl, fun _ => hc⟩

/-! ### Changes that are done -/

/-- The statements of the expected plan have all run and made the content in the open transaction,
and no foreign key is violated more often than before. -/
def Applied (engine : Engine D V) (plan : Option ChangePlan) (expected : String)
    (before : Connection D) (content : D) : Prop :=
  ∃ p ∈ plan, p.revision = expected ∧ p.warnings = [] ∧
    ∃ c, executeStatements engine 0 p.statements before.begun = (none, c) ∧
      c.transaction = some content ∧
      ∀ v, (engine.violations content).count v ≤ (engine.violations before.database).count v

theorem operation_done : Ensures (operation engine plan expected) faults m fun outcome c =>
    outcome ≠ .failed [] ∧
      (outcome = .done () → c.isAutocommit ∧ Applied engine plan expected m c.database) := by
  rcases plan with _ | plan
  · simp [operation, call]
  rcases hran : executeStatements engine 0 plan.statements m.begun with ⟨_ | index, c⟩
  · simp [operation, call, ensures_refuse, hran, Applied]
    intro _ hrevision hwarnings _ _ hadded hopen _
    obtain ⟨content, hcontent⟩ := Option.isSome_iff_exists.mp (Option.isNone_eq_false_iff.mp hopen)
    have hdatabase : c.committed.database = content := by
      simp [committed, Connection.content, hcontent]
    exact ⟨rfl, hrevision, hwarnings, hdatabase ▸ hcontent,
      (firstAddedForeignKeyViolation_count _ _).1.mp hadded⟩
  · simp [operation, call, ensures_refuse, hran]

/-- **A change that is done is the change that was previewed**, whichever calls fail: what all
statements of the plan have made is committed, and the pragmas are as before. -/
theorem executeChangeTransaction_done (faults : Failure → Option (Fault Unit))
    (database : D) (foreignKeys legacyAlterTable : Bool) :
    let before : Connection D := ⟨database, none, foreignKeys, legacyAlterTable⟩
    Ensures (executeChangeTransaction engine plan expected) faults before fun outcome c =>
      outcome = .done () → c = { before with database := c.database } ∧
        Applied engine plan expected before.prepared c.database := by
  simp [executeChangeTransaction, call, ensures_caught, setForeignKeys, isAutocommit,
    setLegacyAlterTable]
  intros
  refine operation_done.mono fun outcome c ⟨hnamed, hdone⟩ => ?_
  rcases outcome with _ | e | _
  · obtain ⟨hcommitted, happlied⟩ := hdone rfl
    obtain ⟨_, _ | _, _, _⟩ := c <;> cases hcommitted
    simpa [prepared, setForeignKeys, isAutocommit, setLegacyAlterTable] using fun _ _ => happlied
  · have he : e ≠ [] := fun he => hnamed (congrArg _ he)
    simp [he]
  · simp

end Dbx.Sqlite
