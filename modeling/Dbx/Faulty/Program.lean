import Mathlib.Data.List.Basic

/-!
# Programs whose steps may fail or be cut off

A program changes a state step by step. At every step the environment decides whether the step is
done, fails, or is the one at which the process dies; a step that is not atomic may be left half
done. A failure can be caught and a death cannot.

## Main definitions

* `Fault`: what may happen to a step instead of its effect
* `Program`: a program, against the faults at its sites
* `Ensures`: what holds of the outcome and the state at the end
* `Keeps`: an invariant that a program keeps, however it ends
* `NeverFails`: a program whose failures are all caught

## Main results

* `ensures_bind`, `ensures_step`, `ensures_attempt`: what a program ensures, by its parts
* `Ensures.mono`: weaker postconditions
* `Keeps.bind`, `Keeps.step`, `Keeps.forEach`: an invariant that is kept in all outcomes
-/

namespace Dbx.Faulty

/-- A step fails or the process dies at it, and the effect of the step may be left half done in some
way. -/
inductive Fault (τ : Type)
  | fails (torn : Option τ)
  | dies (torn : Option τ)
  deriving DecidableEq, Repr

/-- The end of a program. -/
inductive Outcome (ε α : Type)
  | done (value : α)
  | failed (message : ε)
  | died
  deriving DecidableEq, Repr

def Program (ι τ σ ε α : Type) : Type := (ι → Option (Fault τ)) → σ → Outcome ε α × σ

variable {ι τ σ ε α β : Type}

variable (p : Program ι τ σ ε α)

namespace Program

/-- One program, and another one if the first is done. -/
def bind (f : α → Program ι τ σ ε β) : Program ι τ σ ε β := fun faults s =>
  match p faults s with
  | (.done a, s') => f a faults s'
  | (.failed e, s') => (.failed e, s')
  | (.died, s') => (.died, s')

instance : Monad (Program ι τ σ ε) where
  pure a := fun _ s => (.done a, s)
  bind := bind

def get : Program ι τ σ ε σ := fun _ s => (.done s, s)

def fail (message : ε) : Program ι τ σ ε α := fun _ s => (.failed message, s)

/-- A step with an effect, and with what a half done step leaves. -/
def step (site : ι) (message : ε) (commit : σ → σ) (tear : τ → σ → σ) : Program ι τ σ ε Unit :=
  fun faults s =>
    match faults site with
    | none => (.done (), commit s)
    | some (.fails torn) => (.failed message, torn.elim s (tear · s))
    | some (.dies torn) => (.died, torn.elim s (tear · s))

def atomic (site : ι) (message : ε) (commit : σ → σ) : Program ι τ σ ε Unit :=
  step site message commit fun _ => id

/-- A failure is caught. -/
def attempt : Program ι τ σ ε (Except ε α) := fun faults s =>
  match p faults s with
  | (.done a, s') => (.done (.ok a), s')
  | (.failed e, s') => (.done (.error e), s')
  | (.died, s') => (.died, s')

/-- A loop over a list. -/
def forEach (l : List β) (f : β → Program ι τ σ ε Unit) : Program ι τ σ ε Unit :=
  match l with
  | [] => pure ()
  | x :: l => f x >>= fun _ => forEach l f

end Program

open Program

/-- What holds of the outcome and the state at the end. -/
def Ensures (faults : ι → Option (Fault τ)) (s : σ) (Q : Outcome ε α → σ → Prop) : Prop :=
  Q (p faults s).1 (p faults s).2

variable {faults : ι → Option (Fault τ)} {s : σ} {Q R : Outcome ε α → σ → Prop}

theorem Ensures.mono {p : Program ι τ σ ε α} (h : Ensures p faults s R)
    (hR : ∀ outcome s', R outcome s' → Q outcome s') : Ensures p faults s Q :=
  hR _ _ h

@[simp]
theorem ensures_pure {a : α} : Ensures (pure a) faults s Q ↔ Q (.done a) s := Iff.rfl

variable {message : ε}

@[simp]
theorem ensures_fail :
    Ensures (fail message : Program ι τ σ ε α) faults s Q ↔ Q (.failed message) s := Iff.rfl

theorem ensures_get {Q : Outcome ε σ → σ → Prop} :
    Ensures (get : Program ι τ σ ε σ) faults s Q ↔ Q (.done s) s := Iff.rfl

theorem ensures_get_bind {f : σ → Program ι τ σ ε α} :
    Ensures (get >>= f) faults s Q ↔ Ensures (f s) faults s Q := Iff.rfl

variable {f : α → Program ι τ σ ε β}

/-- **A sequence**: behind the first program the second one goes on, or its error or death is the
end. -/
theorem ensures_bind {p : Program ι τ σ ε α} {Q : Outcome ε β → σ → Prop} :
    Ensures (p >>= f) faults s Q ↔ Ensures p faults s fun outcome s' =>
      match outcome with
      | .done a => Ensures (f a) faults s' Q
      | .failed e => Q (.failed e) s'
      | .died => Q .died s' := by
  show Ensures (.bind p f) faults s Q ↔ _
  unfold Ensures Program.bind
  rcases p faults s with ⟨_ | _ | _, s'⟩ <;> rfl

variable {commit : σ → σ}

variable {Q : Outcome ε Unit → σ → Prop}

/-- **A step**, by what the environment does to it. -/
theorem ensures_step {site : ι} {tear : τ → σ → σ} :
    Ensures (step site message commit tear) faults s Q ↔
      (faults site = none → Q (.done ()) (commit s)) ∧
      (∀ torn, faults site = some (.fails torn) → Q (.failed message) (torn.elim s (tear · s))) ∧
      ∀ torn, faults site = some (.dies torn) → Q .died (torn.elim s (tear · s)) := by
  unfold Ensures step
  rcases faults site with _ | _ | _ <;> simp

theorem ensures_atomic {site : ι} :
    Ensures (atomic site message commit) faults s Q ↔
      (faults site = none → Q (.done ()) (commit s)) ∧
      (∀ torn, faults site = some (.fails torn) → Q (.failed message) s) ∧
      ∀ torn, faults site = some (.dies torn) → Q .died s := by
  rw [atomic, ensures_step]
  have hsame (torn : Option τ) : (torn.elim s fun _ => id s) = s := by cases torn <;> rfl
  simp only [hsame]

/-- **A failure that is caught** is a value like others. -/
theorem ensures_attempt {p : Program ι τ σ ε α} {Q : Outcome ε (Except ε α) → σ → Prop} :
    Ensures (attempt p) faults s Q ↔ Ensures p faults s fun outcome s' =>
      match outcome with
      | .done a => Q (.done (.ok a)) s'
      | .failed e => Q (.done (.error e)) s'
      | .died => Q .died s' := by
  unfold Ensures attempt
  rcases p faults s with ⟨_ | _ | _, s'⟩ <;> rfl

/-! ## Invariants -/

/-- A program keeps an invariant, however it ends. -/
def Keeps (I : σ → Prop) (p : Program ι τ σ ε α) (faults : ι → Option (Fault τ)) : Prop :=
  ∀ s, I s → Ensures p faults s fun _ s' => I s'

variable {I : σ → Prop}

theorem Keeps.pure (a : α) : Keeps I (pure a : Program ι τ σ ε α) faults := fun _ hs => hs

theorem Keeps.bind {p : Program ι τ σ ε α} (hp : Keeps I p faults)
    (hf : ∀ a, Keeps I (f a) faults) : Keeps I (p >>= f) faults := by
  intro s hs
  rw [ensures_bind]
  refine (hp s hs).mono fun outcome s' hI => ?_
  rcases outcome with a | _ | _
  · exact hf a s' hI
  · exact hI
  · exact hI

theorem Keeps.get_bind {f : σ → Program ι τ σ ε β} (hf : ∀ s, I s → Keeps I (f s) faults) :
    Keeps I (get >>= f) faults := by
  intro s hs
  exact hf s hs s hs

theorem Keeps.step {site : ι} {tear : τ → σ → σ}
    (hcommit : ∀ s, I s → I (commit s)) (htear : ∀ t s, I s → I (tear t s)) :
    Keeps I (step site message commit tear) faults := by
  intro s hs
  have htorn (torn : Option τ) : I (torn.elim s (tear · s)) := by
    rcases torn with _ | t
    · exact hs
    · exact htear t s hs
  rw [ensures_step]
  exact ⟨fun _ => hcommit s hs, fun torn _ => htorn torn, fun torn _ => htorn torn⟩

theorem Keeps.attempt {p : Program ι τ σ ε α} (hp : Keeps I p faults) :
    Keeps I (attempt p) faults := by
  intro s hs
  rw [ensures_attempt]
  refine (hp s hs).mono fun outcome s' hI => ?_
  rcases outcome with _ | _ | _ <;> exact hI

/-- **A loop** keeps what each turn keeps, however the turn ends. -/
theorem Keeps.forEach {f : β → Program ι τ σ ε Unit} {l : List β}
    (hturn : ∀ x ∈ l, Keeps I (f x) faults) : Keeps I (forEach l f) faults := by
  induction l with
  | nil => exact .pure ()
  | cons x l ih =>
    refine .bind (hturn x List.mem_cons_self) fun _ => ?_
    exact ih fun y hy => hturn y (List.mem_cons_of_mem _ hy)

def NeverFails (faults : ι → Option (Fault τ)) : Prop :=
  ∀ s message, (p faults s).1 ≠ .failed message

theorem NeverFails.pure (a : α) : NeverFails (pure a : Program ι τ σ ε α) faults := by
  intro s message hfailed
  cases hfailed

theorem NeverFails.attempt : NeverFails (attempt p) faults := by
  intro s message hfailed
  unfold Program.attempt at hfailed
  rcases hp : p faults s with ⟨_ | _ | _, s'⟩ <;> simp [hp] at hfailed

theorem NeverFails.bind {p : Program ι τ σ ε α}
    (hp : NeverFails p faults) (hf : ∀ a, NeverFails (f a) faults) :
    NeverFails (p >>= f) faults := by
  intro s message
  have hfirst := hp s
  show (Program.bind p f faults s).1 ≠ _
  unfold Program.bind
  rcases hrun : p faults s with ⟨a | e | _, s'⟩
  · exact hf a s' message
  · exact absurd (by rw [hrun]) (hfirst e)
  · intro hfailed
    cases hfailed

end Dbx.Faulty
