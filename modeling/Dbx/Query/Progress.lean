import Mathlib.Data.List.Nodup

/-!
# The coalesced progress of a batch

`with_coalesced_execute_multi_progress` keeps the latest success of a batch in a slot. What is in
the slot is forwarded when the timer fires, before a failure, and when the batch has finished. Each
access to the slot takes its lock and forwards under it, so a run is a list of accesses.
-/

namespace Dbx.Query.Progress

open List

/-- What the coalescer reads of a report, and the rest of it. -/
structure ExecuteMultiProgress (R : Type) where
  statementIndex : Nat
  success : Bool
  rest : R

/-- `ProgressCoalescer`, with the events forwarded so far. -/
structure ProgressCoalescer (R : Type) where
  pending : Option (ExecuteMultiProgress R) := none
  forwarded : List (ExecuteMultiProgress R) := []

/-- A statement has completed, or the timer fires. -/
inductive Access (R : Type)
  | report (progress : ExecuteMultiProgress R)
  | timer

variable {R : Type}

namespace ProgressCoalescer

variable (c : ProgressCoalescer R)

def flush : ProgressCoalescer R := ⟨none, c.forwarded ++ c.pending.toList⟩

def report (progress : ExecuteMultiProgress R) : ProgressCoalescer R :=
  if progress.success then { c with pending := some progress }
  else ⟨none, c.flush.forwarded ++ [progress]⟩

def step : Access R → ProgressCoalescer R
  | .report progress => c.report progress
  | .timer => c.flush

end ProgressCoalescer

/-- The events of a call, which flushes once more before it returns. -/
def events (accesses : List (Access R)) : List (ExecuteMultiProgress R) :=
  (accesses.foldl ProgressCoalescer.step {}).flush.forwarded

def completions (accesses : List (Access R)) : List (ExecuteMultiProgress R) :=
  accesses.filterMap fun
    | .report progress => some progress
    | .timer => none

def failures (list : List (ExecuteMultiProgress R)) : List (ExecuteMultiProgress R) :=
  list.filter (!·.success)

/-- Events that stand for all that has completed. -/
structure Covers (list done : List (ExecuteMultiProgress R)) : Prop where
  sublist : list <+ done
  failures : failures list = failures done
  last : list.getLast? = done.getLast?

open ProgressCoalescer

variable {list done : List (ExecuteMultiProgress R)} {c : ProgressCoalescer R}

theorem covers_concat (hsublist : list <+ done) (hfailures : failures list = failures done)
    (p : ExecuteMultiProgress R) : Covers (list ++ [p]) (done ++ [p]) where
  sublist := hsublist.append_right [p]
  failures := by
    simp only [failures, filter_append] at hfailures ⊢
    rw [hfailures]
  last := by simp

/-- What has been forwarded and what is pending stand for all that has completed. -/
def Inv (done : List (ExecuteMultiProgress R)) (c : ProgressCoalescer R) : Prop :=
  Covers c.flush.forwarded done ∧ ∀ p ∈ c.pending, p.success

theorem Inv.step (h : Inv done c) (a : Access R) : Inv (done ++ completions [a]) (c.step a) := by
  obtain ⟨pending, forwarded⟩ := c
  obtain ⟨hcovers, hpending⟩ := h
  cases a with
  | timer => simpa [Inv, completions, step, flush] using hcovers
  | report p =>
    by_cases hp : p.success
    · -- what was pending is dropped: a success that the new one stands for
      have hfailures : failures forwarded = failures done := by
        rw [← hcovers.failures]
        cases pending with
        | none => simp [flush]
        | some q => simp [flush, failures, hpending q rfl]
      have hsublist := (sublist_append_left _ _).trans hcovers.sublist
      simpa [Inv, completions, step, report, hp, flush] using covers_concat hsublist hfailures p
    · simpa [Inv, completions, step, report, hp,
        flush] using covers_concat hcovers.sublist hcovers.failures p

theorem Inv.foldl (h : Inv done c) (accesses : List (Access R)) :
    Inv (done ++ completions accesses) (accesses.foldl .step c) := by
  induction accesses generalizing done c with
  | nil => simpa [completions] using h
  | cons a accesses ih =>
    have hsplit : completions (a :: accesses) = completions [a] ++ completions accesses := by
      simp [completions, ← filterMap_append]
    rw [hsplit, ← append_assoc]
    exact ih (h.step a)

theorem covers_events (accesses : List (Access R)) :
    Covers (events accesses) (completions accesses) := by
  have hinit : Inv [] ({} : ProgressCoalescer R) := ⟨⟨.refl _, rfl, rfl⟩, nofun⟩
  exact (hinit.foldl accesses).1

/-- **No progress is lost.** Where statements complete in order, the events are in order too, every
failure is forwarded once, and a completed statement has succeeded exactly if the last event is not
before it and no failure names it. -/
theorem events_spec (accesses : List (Access R))
    (horder : (completions accesses).Pairwise (·.statementIndex < ·.statementIndex)) :
    (events accesses).Pairwise (·.statementIndex < ·.statementIndex) ∧
    failures (events accesses) = failures (completions accesses) ∧
    ∀ p ∈ completions accesses, p.success ↔
      (∃ last ∈ (events accesses).getLast?, p.statementIndex ≤ last.statementIndex) ∧
      ∀ q ∈ failures (events accesses), q.statementIndex ≠ p.statementIndex := by
  have h := covers_events accesses
  refine ⟨horder.sublist h.sublist, h.failures, fun p hp => ?_⟩
  rw [h.last, h.failures]
  have hlast : ∃ last ∈ (completions accesses).getLast?,
      p.statementIndex ≤ last.statementIndex := by
    obtain hnil | ⟨init, last, hdone⟩ := eq_nil_or_concat (completions accesses)
    · simp [hnil] at hp
    · rw [hdone, concat_eq_append] at hp horder ⊢
      have hbefore := (pairwise_append.mp horder).2.2
      refine ⟨last, by simp, ?_⟩
      obtain hinit | heq := mem_append.mp hp
      · exact Nat.le_of_lt (hbefore p hinit last mem_cons_self)
      · exact Nat.le_of_eq (congrArg _ (mem_singleton.mp heq))
  have hnodup : ((completions accesses).map (·.statementIndex)).Nodup :=
    pairwise_map.mpr (horder.imp Nat.ne_of_lt)
  refine ⟨fun hsuccess => ⟨hlast, fun q hq heq => ?_⟩, fun ⟨_, hnone⟩ => ?_⟩
  · obtain ⟨hq, hfailed⟩ := mem_filter.mp hq
    obtain rfl := inj_on_of_nodup_map hnodup hq hp heq
    simp [hsuccess] at hfailed
  · by_contra hfailed
    exact hnone p (mem_filter.mpr ⟨hp, by simpa using hfailed⟩) rfl

/-- Two statements succeed, the third one fails and the fourth one succeeds. -/
theorem events_spec_fourth :
    failures (events (R := Unit) [.report ⟨0, true, ()⟩, .timer, .report ⟨1, true, ()⟩,
      .report ⟨2, false, ()⟩, .report ⟨3, true, ()⟩]) = [⟨2, false, ()⟩] :=
  (events_spec _ (by decide)).2.1

end Dbx.Query.Progress
