import Mathlib.Data.List.Basic

/-!
# Computations that may fail

A sequence of computations in `Except` succeeds where each of them does, and so does a loop over a
list.

## Main definitions

* `require`: a check that reports one message

## Main results

* `bind_eq_ok_iff`: a sequence succeeds where both parts do
* `mapM_zipIdx_ok`, `mapM_range_ok`: loops none of whose steps fails
* `mapM_ok_getElem?`: the results of a loop, one by one
-/

namespace Dbx

variable {α β ε : Type}

variable {f : α → Except ε β}

/-- A sequence of computations succeeds where each of them does. -/
theorem bind_eq_ok_iff {x : Except ε α} {b : β} :
    x >>= f = .ok b ↔ ∃ a, x = .ok a ∧ f a = .ok b := by
  cases x with
  | error e | ok a => simp [bind, Except.bind]

theorem ok_bind {a : α} : Except.ok a >>= f = f a := rfl

theorem pure_eq {a : α} : (pure a : Except ε α) = .ok a := rfl

def require {ε : Type} (ok : Bool) (message : ε) : Except ε Unit :=
  if ok then .ok () else .error message

theorem require_eq_ok_iff {ok : Bool} {message : ε} {u : Unit} :
    require ok message = .ok u ↔ ok := by
  cases ok <;> simp [require]

/-- A loop over numbered elements none of which fails. -/
theorem mapM_zipIdx_ok {σ α β ε : Type} {f : α × Nat → Except ε β} {e : σ → α} {g : σ → β}
    {sources : List σ} (h : ∀ source ∈ sources, ∀ index, f (e source, index) = .ok (g source))
    (start : Nat) : ((sources.map e).zipIdx start).mapM f = .ok (sources.map g) := by
  induction sources generalizing start with
  | nil => rfl
  | cons source sources ih =>
    rw [List.map_cons, List.zipIdx_cons, List.mapM_cons, h source (by simp),
      ih fun other hother => h other (List.mem_cons_of_mem _ hother)]
    rfl

/-- A loop whose element at an index gives the index. -/
theorem mapM_range_ok {f : α → Except ε Nat} (l : List α) (start : Nat)
    (h : ∀ index (hi : index < l.length), f l[index] = .ok (start + index)) :
    l.mapM f = .ok (List.range' start l.length) := by
  induction l generalizing start with
  | nil => rfl
  | cons x l ih =>
    have hhead : f x = .ok start := h 0 (by simp)
    rw [List.mapM_cons, hhead, ih (start + 1)]
    · rfl
    · intro index hi
      have hnext := h (index + 1) (by simpa using hi)
      rwa [show start + (index + 1) = start + 1 + index by omega] at hnext

/-- The results of a loop that succeeds, one by one. -/
theorem mapM_ok_getElem? {l : List α} {r : List β}
    (h : l.mapM f = .ok r) {index : Nat} {x : α} (hx : l[index]? = some x) :
    ∃ y, r[index]? = some y ∧ f x = .ok y := by
  induction l generalizing r index with
  | nil => simp at hx
  | cons head l ih =>
    rw [List.mapM_cons] at h
    obtain ⟨first, hfirst, h⟩ := bind_eq_ok_iff.mp h
    obtain ⟨rest, hrest, h⟩ := bind_eq_ok_iff.mp h
    cases h
    cases index with
    | zero =>
      cases hx
      exact ⟨first, rfl, hfirst⟩
    | succ index => exact ih hrest hx

end Dbx
