import Mathlib.Data.List.Nodup

/-!
# Transactions of a database server

One session of a server, as far as the fate of the effects of its statements goes. An effect is
pending in the open transaction, durable, or discarded. Outside a transaction an effect is durable
at once. Some statements commit implicitly, and a statement may itself begin, commit or roll back
the transaction, or roll it back to a savepoint.

## Main definitions

* `Effect`: what the server makes of a statement
* `Session`, `Session.execute`, `Session.commit`, `Session.rollback`: a session and its operations
* `Session.run`: a session after a sequence of statements

## Main results

* `Session.count_run`: no effect is lost from sight or counted twice
* `Session.forall_mem_durable_commit`: a commit keeps everything that no statement discarded
-/

namespace Dbx.Server

open List

/-- What the server makes of a statement: it reads, writes in the transaction, commits the
transaction around it together with its own effect, or controls the transaction. -/
inductive Effect
  | read
  | write
  | implicitCommit
  | begin
  | commit
  | rollback
  | rollbackTo (keep : Nat)
  deriving DecidableEq, Repr

/-- The statements with an effect of their own. -/
def Effect.writes : Effect → Bool
  | .write | .implicitCommit => true
  | _ => false

/-- The effects of a session, named by the statements that had them. -/
structure Session (ι : Type) where
  inTransaction : Bool
  pending : List ι
  durable : List ι
  discarded : List ι
  deriving DecidableEq, Repr

namespace Session

variable {ι : Type}

def idle : Session ι := ⟨false, [], [], []⟩

def opened : Session ι := ⟨true, [], [], []⟩

variable (s : Session ι) (i : ι)

/-- The end of the transaction that keeps its effects. -/
def commit : Session ι :=
  ⟨false, [], s.durable ++ s.pending, s.discarded⟩

/-- The end of the transaction that keeps nothing. -/
def rollback : Session ι :=
  ⟨false, [], s.durable, s.discarded ++ s.pending⟩

/-- The execution of the statement `i` with the given effect. -/
def execute : Effect → Session ι
  | .read => s
  | .write =>
    if s.inTransaction then { s with pending := s.pending ++ [i] }
    else { s with durable := s.durable ++ [i] }
  | .implicitCommit => { s.commit with durable := s.commit.durable ++ [i] }
  | .begin => { s.commit with inTransaction := true }
  | .commit => s.commit
  | .rollback => s.rollback
  | .rollbackTo keep =>
    { s with pending := s.pending.take keep, discarded := s.discarded ++ s.pending.drop keep }

/-- The session after a sequence of statements. -/
def run (s : Session ι) : List (ι × Effect) → Session ι
  | [] => s
  | (i, e) :: statements => (s.execute i e).run statements

@[simp] theorem run_nil : s.run [] = s := rfl

@[simp] theorem run_cons (e : Effect) (statements : List (ι × Effect)) :
    s.run ((i, e) :: statements) = (s.execute i e).run statements := rfl

@[simp] theorem commit_pending : s.commit.pending = [] := rfl

@[simp] theorem commit_durable : s.commit.durable = s.durable ++ s.pending := rfl

@[simp] theorem rollback_pending : s.rollback.pending = [] := rfl

@[simp] theorem rollback_durable : s.rollback.durable = s.durable := rfl

/-- The statements of a sequence that have an effect of their own. -/
def written (statements : List (ι × Effect)) : List ι :=
  (statements.filter fun statement => statement.2.writes).map Prod.fst

section Count

variable [DecidableEq ι]

/-- The number of times an effect is pending, durable or discarded. -/
def count (s : Session ι) (i : ι) : Nat :=
  s.pending.count i + s.durable.count i + s.discarded.count i

theorem count_commit : s.commit.count i = s.count i := by
  simp [count, commit]
  omega

theorem count_rollback : s.rollback.count i = s.count i := by
  simp [count, rollback]
  omega

theorem count_execute (j : ι) (e : Effect) :
    (s.execute j e).count i = s.count i + if e.writes then [j].count i else 0 := by
  cases e with
  | read => rfl
  | write =>
    cases h : s.inTransaction <;> simp [execute, count, Effect.writes, h] <;> omega
  | implicitCommit =>
    have hcommit := count_commit s i
    simp only [count, execute, Effect.writes, count_append, if_true] at hcommit ⊢
    omega
  | begin => simpa [execute, Effect.writes, count] using count_commit s i
  | commit => simpa [execute, Effect.writes] using count_commit s i
  | rollback => simpa [execute, Effect.writes] using count_rollback s i
  | rollbackTo keep =>
    have hsplit : s.pending.count i =
        (s.pending.take keep).count i + (s.pending.drop keep).count i := by
      rw [← count_append, take_append_drop]
    simp [execute, Effect.writes, count, hsplit]
    omega

/-- Every effect of a sequence of statements is pending, durable or discarded afterwards, and only
one of them. -/
theorem count_run (statements : List (ι × Effect)) (i : ι) :
    (s.run statements).count i = s.count i + (written statements).count i := by
  induction statements generalizing s with
  | nil => simp [written]
  | cons statement statements ih =>
    obtain ⟨j, e⟩ := statement
    rw [run_cons, ih, count_execute]
    cases h : e.writes <;> simp [written, h, count_cons]
    omega

/-- After a commit all effects of a sequence are durable exactly when no statement has discarded
one of them. -/
theorem forall_mem_durable_commit {statements : List (ι × Effect)}
    (hnodup : (statements.map Prod.fst).Nodup) :
    (∀ i ∈ written statements, i ∈ (opened.run statements).commit.durable) ↔
      (opened.run statements).discarded = [] := by
  have hcount (i : ι) : ((opened : Session ι).run statements).count i =
      (written statements).count i := by
    simpa [opened, count] using count_run opened statements i
  have hone (i : ι) : (written statements).count i ≤ 1 :=
    nodup_iff_count_le_one.mp (hnodup.sublist (filter_sublist.map _)) i
  constructor
  · intro hall
    rw [eq_nil_iff_forall_not_mem]
    intro i hi
    have hdiscarded := count_pos_iff.mpr hi
    have hwritten : i ∈ written statements := by
      rw [← count_pos_iff, ← hcount]
      simp only [count]
      omega
    have hdurable := count_pos_iff.mpr (hall i hwritten)
    have := hcount i
    have := hone i
    simp only [count, commit_durable, count_append] at *
    omega
  · intro hnone i hi
    have := count_pos_iff.mpr hi
    have := hcount i
    rw [← count_pos_iff]
    simp only [count, hnone, count_nil, commit_durable, count_append] at *
    omega

end Count

end Session

end Dbx.Server
