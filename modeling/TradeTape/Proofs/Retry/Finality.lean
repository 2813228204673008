import TradeTape.Proofs.Retry.Attempts

/-
  A retried operation that is over.

  Nothing brings back an operation that has succeeded or
  failed: no success, failure or pause is taken up any more,
  and its attempts are not counted on.  The one move that is
  not ignored then is to give it up, which turns a success
  into a failure of the same attempt.

  Key statements include:
    * `RetryMachine.onFailure_of_terminal`
    * `RetryMachine.Timed.machine_step_of_terminal`
    * `RetryMachine.Timed.machine_after_of_terminal`
    * `RetryMachine.Timed.after_over`
-/

namespace TradeTape

------------------------------------------------------------
-- Terminal states
------------------------------------------------------------

namespace RetryState

variable {s : RetryState}

theorem Terminal.ne_attempting
    (hOver : s.Terminal)
    (n : Nat) :
    s ≠ .attempting n := by
  rintro rfl
  exact hOver

theorem Terminal.ne_retrying
    (hOver : s.Terminal)
    (n delay : Nat) :
    s ≠ .retrying n delay := by
  rintro rfl
  exact hOver

end RetryState

namespace RetryMachine

------------------------------------------------------------
-- One move
------------------------------------------------------------

section Operations

variable {m : RetryMachine}

theorem onSuccess_of_terminal
    (hOver : m.state.Terminal) :
    m.onSuccess = m := by
  unfold onSuccess
  cases hState : m.state with
  | attempting n => exact absurd hState (hOver.ne_attempting n)
  | _ => rfl

theorem onFailure_of_terminal
    (hOver : m.state.Terminal)
    (now : Nat)
    (retryable : Bool)
    (hint : Option Nat)
    (drawnMs : Nat) :
    m.onFailure now retryable hint drawnMs = m :=
  onFailure_of_not_attempting hOver.ne_attempting now retryable hint
    drawnMs

theorem nextAttempt_of_terminal
    (hOver : m.state.Terminal) :
    m.nextAttempt = m := by
  unfold nextAttempt
  cases hState : m.state with
  | retrying n delay => exact absurd hState (hOver.ne_retrying n delay)
  | _ => rfl

theorem terminal_fail (m : RetryMachine) : m.fail.state.Terminal :=
  trivial

theorem fail_fail (m : RetryMachine) : m.fail.fail = m.fail :=
  rfl

end Operations

namespace Timed

variable {s : Timed}

/- Only to be given up changes an operation that is over. -/
theorem machine_step_of_terminal
    (hOver : s.machine.state.Terminal)
    (move : Move) :
    (s.step move).machine
      = if move = .giveUp then s.machine.fail else s.machine := by
  cases move with
  | succeed => exact onSuccess_of_terminal hOver
  | fail retryable hint drawnMs =>
      exact onFailure_of_terminal hOver s.now retryable hint drawnMs
  | resume => exact nextAttempt_of_terminal hOver
  | giveUp => rfl
  | wait ns => rfl

------------------------------------------------------------
-- All moves
------------------------------------------------------------

/- It makes no difference how often an operation is given up. -/
theorem machine_after_of_terminal
    (hOver : s.machine.state.Terminal)
    (moves : List Move) :
    (s.after moves).machine
      = if .giveUp ∈ moves then s.machine.fail else s.machine := by
  induction moves generalizing s with
  | nil => rfl
  | cons move moves ih =>
      have hStep := machine_step_of_terminal hOver move
      change ((s.step move).after moves).machine = _
      by_cases hGivenUp : move = .giveUp
      · rw [if_pos hGivenUp] at hStep
        have hStill : (s.step move).machine.state.Terminal := by
          rw [hStep]
          exact s.machine.terminal_fail
        rw [ih hStill, hStep, fail_fail, ite_self, hGivenUp,
          if_pos List.mem_cons_self]
      · rw [if_neg hGivenUp] at hStep
        have hStill : (s.step move).machine.state.Terminal := by
          rw [hStep]
          exact hOver
        have hMem : .giveUp ∈ move :: moves ↔ .giveUp ∈ moves := by
          simp [Ne.symm hGivenUp]
        simp only [ih hStill, hStep, hMem]

/-
  What some moves make of a state in which an operation is
  over.
-/
structure Over
    (before : RetryState)
    (moves : List Move)
    (after : RetryState) : Prop where
  terminal : after.Terminal
  attempt : after.attempt = before.attempt
  state :
    after
      = if .giveUp ∈ moves then .failed before.attempt else before
  kept_iff :
    after = before
      ↔ .giveUp ∉ moves ∨ before = .failed before.attempt

/-
  An operation that is over stays over in the same attempt,
  whatever is done with it.  It also keeps its state, unless
  it has succeeded and is given up.
-/
theorem after_over
    (hOver : s.machine.state.Terminal)
    (moves : List Move) :
    Over s.machine.state moves (s.after moves).machine.state := by
  have hMachine := machine_after_of_terminal hOver moves
  by_cases hGivenUp : .giveUp ∈ moves
  · rw [if_pos hGivenUp] at hMachine
    rw [hMachine]
    exact
      { terminal := s.machine.terminal_fail
        attempt := rfl
        state := (if_pos hGivenUp).symm
        kept_iff :=
          ⟨fun hKept => Or.inr hKept.symm,
            fun hFailed => (hFailed.resolve_left (· hGivenUp)).symm⟩ }
  · rw [if_neg hGivenUp] at hMachine
    rw [hMachine]
    exact
      { terminal := hOver
        attempt := rfl
        state := (if_neg hGivenUp).symm
        kept_iff := ⟨fun _ => Or.inl hGivenUp, fun _ => rfl⟩ }

end Timed

------------------------------------------------------------
-- Successes
------------------------------------------------------------

/- The machine with which an operation starts. -/
theorem start?_eq_ok
    {p : RetryPolicy}
    {b : Backoff}
    (hBackoff : p.backoff? = .ok b)
    (started : Nat) :
    start? p started
      = .ok
          { state := .attempting 1
            maxAttempts := p.maxAttempts
            budget := p.budgetMs.map Span.ofMs
            backoff := b
            started := started } := by
  unfold start?
  rw [hBackoff]
  rfl

/- A second attempt that succeeds. -/
def wonMoves : List Move :=
  [.fail true none 0, .resume, .succeed]

/- Its success outlasts a late failure, but not being given up. -/
theorem Timed.after_over_of_won :
    ∃ m,
      start? hastyPolicy 7 = .ok m
        ∧ (Timed.after { machine := m, now := 7 } wonMoves).machine.state
          = .succeeded 2
        ∧ Over (.succeeded 2) [.fail true none 0, .wait 5, .resume]
          (.succeeded 2)
        ∧ Over (.succeeded 2) [.fail true none 0, .giveUp, .succeed]
          (.failed 2) := by
  have hStart :=
    start?_eq_ok
      (RetryPolicy.backoff?_eq_ok (p := hastyPolicy) (by decide)
        (by decide) (by decide)) 7
  generalize hMachine : RetryMachine.mk _ _ _ _ _ = m at hStart
  let won : Timed := Timed.after { machine := m, now := 7 } wonMoves
  have hWon : won.machine.state = .succeeded 2 := by
    cases hMachine
    rfl
  have hOver : won.machine.state.Terminal := by
    rw [hWon]
    trivial
  have hLate :=
    Timed.after_over hOver [.fail true none 0, .wait 5, .resume]
  have hGivenUp :=
    Timed.after_over hOver [.fail true none 0, .giveUp, .succeed]
  rw [hGivenUp.state] at hGivenUp
  rw [hLate.state] at hLate
  rw [hWon] at hLate hGivenUp
  exact ⟨m, hStart, hWon, hLate, hGivenUp⟩

/- An operation that is given up after it has succeeded. -/
theorem exists_success_lost :
    ∃ m,
      start? RetryPolicy.standard 0 = .ok m
        ∧ (Timed.after { machine := m, now := 0 } [.succeed]).machine.state
          = .succeeded 1
        ∧ RetryState.Terminal (.succeeded 1)
        ∧ (Timed.after { machine := m, now := 0 }
            ([.succeed] ++ [.giveUp])).machine.state
          = .failed 1 := by
  have hBackoff :=
    RetryPolicy.backoff?_eq_ok (p := RetryPolicy.standard) (by decide)
      (by decide) (by decide)
  exact ⟨_, start?_eq_ok hBackoff 0, rfl, trivial, rfl⟩

end RetryMachine

end TradeTape
