import Dbx.Text.Basic

/-!
# Steppers

A stepper reads a text from left to right. In a state and at a character it sees the rest of the
text, moves to another state, consumes a number of further characters with this one, and emits
output. Scanners with lookahead are steppers.

## Main definitions

* `Stepper`, `Stepper.run`: steppers and their runs
* `Stepper.Along`: a condition holds at every step of a run

## Main results

* `Stepper.run_drop`: consumed characters are not read
* `Stepper.run_invariant`: what every step preserves, a run preserves
* `Stepper.run_lockstep`: two steppers that consume differently, related character by character
-/

namespace Dbx

/-- The state after a character, the number of characters consumed with it, and the output. -/
structure Stepper (σ ω : Type) where
  step : σ → Char → Text → σ × Nat × List ω

namespace Stepper

variable {σ ω σ' ω' : Type} (S : Stepper σ ω) (S' : Stepper σ' ω')

/-- The run on a text of which the given number of characters is consumed already: the last state
and the output. -/
def run : Nat → σ → Text → σ × List ω
  | _, s, [] => (s, [])
  | skip + 1, s, _ :: rest => run skip s rest
  | 0, s, c :: rest =>
    let next := S.step s c rest
    let final := run next.2.1 next.1 rest
    (final.1, next.2.2 ++ final.2)

/-- The condition `P` holds at every step of the run. -/
def Along (P : σ → Char → Text → Prop) : Nat → σ → Text → Prop
  | _, _, [] => True
  | skip + 1, s, _ :: rest => Along P skip s rest
  | 0, s, c :: rest => P s c rest ∧ Along P (S.step s c rest).2.1 (S.step s c rest).1 rest

instance instDecidableAlong (P : σ → Char → Text → Prop) [∀ s c rest, Decidable (P s c rest)] :
    ∀ skip s text, Decidable (S.Along P skip s text)
  | 0, _, [] => .isTrue trivial
  | _ + 1, _, [] => .isTrue trivial
  | skip + 1, s, _ :: rest => instDecidableAlong P skip s rest
  | 0, s, c :: rest =>
    have := instDecidableAlong P (S.step s c rest).2.1 (S.step s c rest).1 rest
    inferInstanceAs (Decidable (_ ∧ _))

variable {S S'}

@[simp] theorem run_nil (skip : Nat) (s : σ) : S.run skip s [] = (s, []) := by
  cases skip <;> rfl

theorem run_cons (s : σ) (c : Char) (rest : Text) :
    S.run 0 s (c :: rest) =
      ((S.run (S.step s c rest).2.1 (S.step s c rest).1 rest).1,
        (S.step s c rest).2.2 ++ (S.run (S.step s c rest).2.1 (S.step s c rest).1 rest).2) :=
  rfl

/-- Consumed characters are not read. -/
theorem run_drop (skip : Nat) (s : σ) (text : Text) :
    S.run skip s text = S.run 0 s (text.drop skip) := by
  induction text generalizing skip with
  | nil => simp
  | cons c rest ih =>
    cases skip with
    | zero => rfl
    | succ skip => exact ih skip

variable {c : Char} {rest : Text} {s s' : σ}

theorem run_cons_one {out : List ω} (h : S.step s c rest = (s', 0, out)) :
    S.run 0 s (c :: rest) = ((S.run 0 s' rest).1, out ++ (S.run 0 s' rest).2) := by
  rw [run_cons, h]

theorem run_cons_skip {skip : Nat} (h : S.step s c rest = (s', skip, [])) :
    S.run 0 s (c :: rest) = S.run 0 s' (rest.drop skip) := by
  rw [run_cons, h, ← run_drop]
  rfl

theorem run_cons_silent (h : S.step s c rest = (s', 0, [])) :
    S.run 0 s (c :: rest) = S.run 0 s' rest := run_cons_skip h

@[simp] theorem along_nil (P : σ → Char → Text → Prop) (skip : Nat) (s : σ) :
    S.Along P skip s [] := by
  cases skip <;> trivial

variable {P : σ → Char → Text → Prop}

/-- Nothing is asked of consumed characters. -/
theorem along_drop (skip : Nat) (s : σ) (text : Text) :
    S.Along P skip s text ↔ S.Along P 0 s (text.drop skip) := by
  induction text generalizing skip with
  | nil => simp
  | cons c rest ih =>
    cases skip with
    | zero => rfl
    | succ skip => exact ih skip

/-- What every step preserves, a run preserves. -/
theorem run_invariant {I : σ → Prop} (hstep : ∀ {s c rest}, I s → I (S.step s c rest).1)
    (skip : Nat) (text : Text) (h : I s) : I (S.run skip s text).1 := by
  induction text generalizing skip s with
  | nil => simpa using h
  | cons c rest ih =>
    cases skip with
    | succ skip => exact ih skip h
    | zero => exact ih _ (hstep h)

variable {skip : Nat} {text : Text}

variable {O : List ω → List ω' → Prop}

variable (S) in
/-- What happens at one character: a step, or a character less to consume. -/
def advance : Nat → σ → Char → Text → Nat × σ × List ω
  | 0, s, c, rest => ((S.step s c rest).2.1, (S.step s c rest).1, (S.step s c rest).2.2)
  | skip + 1, s, _, _ => (skip, s, [])

theorem run_advance (skip : Nat) (s : σ) (c : Char) (rest : Text) :
    S.run skip s (c :: rest) =
      ((S.run (S.advance skip s c rest).1 (S.advance skip s c rest).2.1 rest).1,
        (S.advance skip s c rest).2.2 ++
          (S.run (S.advance skip s c rest).1 (S.advance skip s c rest).2.1 rest).2) := by
  cases skip <;> rfl

/-- **Lockstep.** Two steppers that consume differently read the same text character by character.
When, at every character, what happens to both keeps them related before the rest of the text,
provided a condition holds at the steps of the first, they are related at its end. -/
theorem run_lockstep {R : Nat → σ → Nat → σ' → Text → Prop} (hnil : O [] [])
    (happend : ∀ {a b a' b'}, O a a' → O b b' → O (a ++ b) (a' ++ b'))
    (hstep : ∀ {skip s skip' s' c rest}, R skip s skip' s' (c :: rest) → (skip = 0 → P s c rest) →
      R (S.advance skip s c rest).1 (S.advance skip s c rest).2.1
          (S'.advance skip' s' c rest).1 (S'.advance skip' s' c rest).2.1 rest ∧
        O (S.advance skip s c rest).2.2 (S'.advance skip' s' c rest).2.2)
    {skip' : Nat} {s' : σ'} (hrel : R skip s skip' s' text) (halong : S.Along P skip s text) :
    (∃ left left', R left (S.run skip s text).1 left' (S'.run skip' s' text).1 []) ∧
      O (S.run skip s text).2 (S'.run skip' s' text).2 := by
  induction text generalizing skip s skip' s' with
  | nil => simpa using ⟨⟨skip, skip', hrel⟩, hnil⟩
  | cons c rest ih =>
    have hcondition : skip = 0 → P s c rest := by
      rintro rfl
      exact halong.1
    have hrest : S.Along P (S.advance skip s c rest).1 (S.advance skip s c rest).2.1 rest := by
      cases skip with
      | zero => exact halong.2
      | succ skip => exact halong
    obtain ⟨hnext, hout⟩ := hstep hrel hcondition
    obtain ⟨hfinal, houts⟩ := ih hnext hrest
    rw [run_advance, run_advance]
    exact ⟨hfinal, happend hout houts⟩

end Stepper

end Dbx
