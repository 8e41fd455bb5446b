import Mathlib.Data.List.Forall2

/-!
# Readers

A reader takes a value from the front of a state, or fails. Two readers may take different values
from the same states: one that builds a tree, and one that only skims over it. They run in lockstep
if the second gets as far as the first does, and what they return is related; this passes from the
parts of a reader to the whole.

## Main definitions

* `many`: as many values as asked for
* `Lockstep`: two readers get equally far, with related results

## Main results

* `Lockstep.bind`, `Lockstep.map`, `Lockstep.many`: readers in lockstep, put together
-/

namespace Dbx.Reader

open List

variable {σ α β γ δ : Type}

/-- As many values as asked for. -/
def many (read : StateT σ Option α) : Nat → StateT σ Option (List α)
  | 0 => pure []
  | n + 1 => do return (← read) :: (← many read n)

/-- **Two readers in lockstep.** Where the first one reads something, the second one reads as
far. -/
def Lockstep (R : α → β → Prop) (read : StateT σ Option α) (skim : StateT σ Option β) : Prop :=
  ∀ s a s', read s = some (a, s') → ∃ b, skim s = some (b, s') ∧ R a b

variable {read : StateT σ Option α} {skim : StateT σ Option β} {R : α → β → Prop}
  {S : γ → δ → Prop}

theorem bind_eq_some_iff {f : α → StateT σ Option γ} {s s' : σ} {c : γ} :
    (read >>= f) s = some (c, s') ↔ ∃ a t, read s = some (a, t) ∧ f a t = some (c, s') := by
  change (read s).bind (fun p => f p.1 p.2) = _ ↔ _
  simp [Option.bind_eq_some_iff]

namespace Lockstep

theorem refl (read : StateT σ Option α) : Lockstep Eq read read :=
  fun _ a _ h => ⟨a, h, rfl⟩

theorem pure {a : α} {b : β} (h : R a b) :
    Lockstep R (Pure.pure a : StateT σ Option α) (Pure.pure b) := by
  rintro s _ _ ⟨⟩
  exact ⟨b, rfl, h⟩

/-- A reader that fails reads nothing that would have to be read again. -/
theorem failure : Lockstep R (Alternative.failure : StateT σ Option α) skim :=
  nofun

theorem bind (h : Lockstep R read skim) {f : α → StateT σ Option γ} {g : β → StateT σ Option δ}
    (hnext : ∀ a b, R a b → Lockstep S (f a) (g b)) : Lockstep S (read >>= f) (skim >>= g) := by
  intro s c s' hread
  obtain ⟨a, t, ha, hc⟩ := bind_eq_some_iff.mp hread
  obtain ⟨b, hb, hab⟩ := h s a t ha
  obtain ⟨d, hd, hcd⟩ := hnext a b hab t c s' hc
  exact ⟨d, bind_eq_some_iff.mpr ⟨b, t, hb, hd⟩, hcd⟩

theorem map (h : Lockstep R read skim) {f : α → γ} {g : β → δ}
    (hmap : ∀ a b, R a b → S (f a) (g b)) : Lockstep S (f <$> read) (g <$> skim) :=
  h.bind fun a b hab => pure (hmap a b hab)

theorem map_left (h : Lockstep R read skim) {f : α → γ} {T : γ → β → Prop}
    (hmap : ∀ a b, R a b → T (f a) b) : Lockstep T (f <$> read) skim := by
  intro s c s' hread
  have hbind : (read >>= fun a => Pure.pure (f a)) s = some (c, s') := hread
  obtain ⟨a, t, ha, hc⟩ := bind_eq_some_iff.mp hbind
  cases hc
  obtain ⟨b, hb, hab⟩ := h s a s' ha
  exact ⟨b, hb, hmap a b hab⟩

theorem many (h : Lockstep R read skim) (n : Nat) :
    Lockstep (Forall₂ R) (Reader.many read n) (Reader.many skim n) := by
  induction n with
  | zero => exact pure .nil
  | succ n ih => exact h.bind fun _ _ hab => ih.bind fun _ _ hrest => pure (.cons hab hrest)

end Lockstep

end Dbx.Reader
