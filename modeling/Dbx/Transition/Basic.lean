/-!
# Runs of a step function

A step function answers an action in a state with the next state, or refuses the action. A
property of states and actions holds along a run when it holds of every action of the run in the
state the action is taken in.

## Main definitions

* `run step s as`: the state that the run of `as` from `s` reaches
* `Along step P s as`: `P` holds along the run of `as` from `s`

## Main results

* `Along.of_invariant`: an invariant turns a condition on the steps of a run into a property of
  its steps
* `Along.run_invariant`: what every conditioned step preserves holds where a conditioned run ends
* `Along.last`: what holds along a run holds of its last action
* `run_invariant`: what every step preserves holds where a run ends
-/

namespace Dbx.Transition

variable {σ α : Type} {step : σ → α → Option σ}

/-- The state that a run reaches, if no action is refused. -/
def run (step : σ → α → Option σ) : σ → List α → Option σ
  | s, [] => some s
  | s, a :: as => (step s a).bind (run step · as)

/-- The property `P` holds of every action of the run, in the state the action is taken in. -/
def Along (step : σ → α → Option σ) (P : σ → α → Prop) : σ → List α → Prop
  | _, [] => True
  | s, a :: as => P s a ∧ ∀ s', step s a = some s' → Along step P s' as

/-- A decidable property can be checked along a run. -/
instance Along.decidable {P : σ → α → Prop} [∀ s a, Decidable (P s a)] :
    ∀ (s : σ) (as : List α), Decidable (Along step P s as)
  | _, [] => isTrue trivial
  | s, a :: as =>
    match h : step s a with
    | none => decidable_of_iff (P s a) ⟨fun hp => ⟨hp, by simp [h]⟩, And.left⟩
    | some s' =>
      have := Along.decidable (P := P) s' as
      decidable_of_iff (P s a ∧ Along step P s' as) (by simp [Along, h])

variable {P : σ → α → Prop}

theorem Along.of_forall (h : ∀ s a, P s a) : ∀ (as : List α) (s : σ), Along step P s as := by
  intro as
  induction as with
  | nil => intro s; trivial
  | cons a as ih => exact fun s => ⟨h s a, fun s' _ => ih s'⟩

variable {I : σ → Prop}

/-- What one conditioned step preserves and what it grants holds along every conditioned run. -/
theorem Along.of_invariant {C P : σ → α → Prop}
    (hstep : ∀ s a s', I s → C s a → step s a = some s' → I s')
    (hgrant : ∀ s a, I s → C s a → P s a) :
    ∀ (as : List α) (s : σ), I s → Along step C s as → Along step P s as := by
  intro as
  induction as with
  | nil => intro s _ _; trivial
  | cons a as ih =>
    rintro s hI ⟨hC, hrest⟩
    refine ⟨hgrant s a hI hC, fun s' hs' => ?_⟩
    exact ih s' (hstep s a s' hI hC hs') (hrest s' hs')

/-- What one conditioned step preserves is preserved by every conditioned run. -/
theorem Along.run_invariant {C : σ → α → Prop}
    (hstep : ∀ s a s', I s → C s a → step s a = some s' → I s') :
    ∀ (as : List α) (s s' : σ), I s → Along step C s as → run step s as = some s' → I s' := by
  intro as
  induction as with
  | nil =>
    rintro s s' hI _ ⟨⟩
    exact hI
  | cons a as ih =>
    rintro s s' hI ⟨hC, hrest⟩ hrun
    obtain ⟨next, hnext, hrun⟩ := Option.bind_eq_some_iff.mp hrun
    exact ih next s' (hstep s a next hI hC hnext) (hrest next hnext) hrun

/-- What holds along a run holds of its last action, in the state before it. -/
theorem Along.last {as : List α} {a : α} {s s' : σ}
    (h : Along step P s (as ++ [a])) (hrun : run step s as = some s') : P s' a := by
  induction as generalizing s with
  | nil =>
    cases hrun
    exact h.1
  | cons b as ih =>
    obtain ⟨next, hnext, hrun⟩ := Option.bind_eq_some_iff.mp hrun
    exact ih (h.2 next hnext) hrun

/-- What every step preserves is preserved by every run. -/
theorem run_invariant (hstep : ∀ s a s', I s → step s a = some s' → I s')
    {as : List α} {s s' : σ} (h : I s) (hrun : run step s as = some s') : I s' := by
  have halong : Along step (fun _ _ => True) s as := .of_forall (fun _ _ => trivial) as s
  exact Along.run_invariant (fun s a s' hI _ hnext => hstep s a s' hI hnext) as s s' h halong hrun

end Dbx.Transition
