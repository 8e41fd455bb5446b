import Dbx.Mcp.Transaction

/-!
# Requests that are given up before they start

The client of a request may be gone before the worker takes the command from the channel. The worker
then starts a select of which one branch is the statement and another one the loss of the request.
The runtime polls the branches of a select in any order, and a statement that is polled first is
sent.
-/

namespace Dbx.Mcp

open Transition List

variable {R : Type} {D : Dialect} {timeoutSecs : Nat} {s s' : State R} {e : Event R}

/-- One of the tokens that the select of a request watches is cancelled: the owner's, or that of the
request, which its drop guard cancels. -/
def State.raised (s : State R) (request : Nat) : Bool :=
  s.cancellation || decide (request ∈ s.dropped)

/-- The request whose command an event takes although a token is cancelled already. -/
def State.lostBy (s : State R) : Event R → List Nat
  | .take => (s.channel.toList.map (·.request)).filter s.raised
  | _ => []

/-- A state of the owner, and the requests that were given up before their command was taken. -/
structure Watch (R : Type) where
  state : State R := {}
  lost : List Nat := []

variable (D timeoutSecs) in
def watch (w : Watch R) (e : Event R) : Option (Watch R) :=
  (step D timeoutSecs w.state e).map fun s => ⟨s, w.lost ++ w.state.lostBy e⟩

/-- The event sends no statement of a request that was given up before. -/
def Unsent (w : Watch R) (e : Event R) : Prop :=
  e = .send → ∀ command current, w.state.phase = .starting command current →
    command.request ∉ w.lost

/-- The runtime sends a statement only if no token that the select watches is cancelled, as it does
where the cancellations are polled before the statement. -/
def PolledFirst (w : Watch R) (e : Event R) : Prop :=
  e = .send → ∀ command current, w.state.phase = .starting command current →
    w.state.raised command.request = false

/-- A token that is cancelled stays so. -/
theorem raised_step (hstep : step D timeoutSecs s e = some s') {request : Nat}
    (h : s.raised request) : s'.raised request := by
  have hgrows : (s.cancellation → s'.cancellation) ∧ s.dropped ⊆ s'.dropped := by
    cases e with
    | cancel =>
      cases hstep
      exact ⟨fun _ => rfl, List.Subset.refl _⟩
    | dropLease =>
      simp only [step] at hstep
      split at hstep <;> cases hstep
      exact ⟨id, subset_append_right _ _⟩
    | _ =>
      -- no other event touches the tokens
      simp only [step, State.interrupt, State.acquire, State.handle, State.succeed] at hstep
      repeat' split at hstep
      all_goals cases hstep
      all_goals exact ⟨id, List.Subset.refl _⟩
  rw [State.raised, Bool.or_eq_true, decide_eq_true_eq] at h ⊢
  exact h.imp hgrows.1 fun hmem => hgrows.2 hmem

/-- The tokens of the requests that were given up are cancelled. -/
def LostRaised (w : Watch R) : Prop := ∀ request ∈ w.lost, w.state.raised request

theorem LostRaised.watch {w w' : Watch R} (h : LostRaised w)
    (hwatch : watch D timeoutSecs w e = some w') : LostRaised w' := by
  obtain ⟨s, hstep, rfl⟩ := Option.map_eq_some_iff.mp hwatch
  intro request hmem
  refine raised_step hstep ?_
  rcases mem_append.mp hmem with hold | hnew
  · exact h request hold
  · cases e with
    | take => exact (mem_filter.mp hnew).2
    | _ => cases hnew

/-- **A statement of a request that was given up before its command was taken** is sent in no run
that polls the cancellations first, and is sent in some run that does not. -/
theorem unsent_of_polledFirst (D : Dialect) (timeoutSecs : Nat) :
    (∀ es : List (Event R), Along (watch D timeoutSecs) PolledFirst {} es →
      Along (watch D timeoutSecs) Unsent {} es) ∧
    ∃ es : List (Event R), ¬ Along (watch D timeoutSecs) Unsent {} es := by
  constructor
  · intro es hpolls
    refine Along.of_invariant (I := LostRaised) ?_ ?_ es {} nofun hpolls
    · exact fun w e w' hw _ hwatch => hw.watch hwatch
    · rintro w e hw hfirst rfl command current hphase hlost
      have hraised := hw _ hlost
      rw [hfirst rfl command current hphase] at hraised
      cases hraised
  · -- the client is gone before the command is taken, and the statement is polled first
    refine ⟨[.acquire, .request .begin, .dropLease, .take] ++ [.send], fun hunsent => ?_⟩
    have hlost : 0 ∈ [0] := mem_singleton.mpr rfl
    exact hunsent.last rfl rfl _ _ rfl hlost

/-- The worker starts the transaction of a client that is gone. -/
theorem not_unsent_begin :
    let drop : List (Event Unit) := [.acquire, .request .begin, .dropLease]
    let D : Dialect := ⟨fun sql => sql = Operation.commit.sql, fun _ => false, rfl, rfl, nofun⟩
    ((run (step D 30) {} drop).map fun s => (s.dropped, s.channel)) =
      some ([0], some ⟨.begin, 0⟩) ∧
    (run (step D 30) {} (drop ++ [.take, .send])).map (·.sent) =
      some [.statement "START TRANSACTION".toList] := by
  exact ⟨rfl, rfl⟩

end Dbx.Mcp
