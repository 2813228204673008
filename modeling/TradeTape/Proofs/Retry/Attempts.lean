import Mathlib.Tactic.SplitIfs
import TradeTape.Proofs.Retry.Budget

/-
  A retried operation under any sequence of moves.

  A machine may be told of successes and failures, sent on or
  given up at any instant and in any state.  The number of its
  attempt is one more than the number of pauses that it has
  entered, so that neither outruns the attempts that are
  allowed, and the backoff has taken one step for each pause.
  A failed attempt is the last one, or the pause after it is
  as long as the backoff and the hint ask for, cut off by what
  is left of the budget.

  Key statements include:
    * `RetryMachine.Turns`
    * `RetryMachine.Counted.turn`
    * `RetryMachine.Timed.counted_after`
    * `RetryMachine.onFailure_obeys`
    * `RetryMachine.run_lawful`
-/

namespace TradeTape

------------------------------------------------------------
-- Drawn delays
------------------------------------------------------------

namespace Backoff

/- The milliseconds that are added to the next delay. -/
def jitter
    (b : Backoff)
    (drawnMs : Nat) : Nat :=
  if b.immediateFirst then 0 else min drawnMs b.jitterMs

theorem jitter_le
    (b : Backoff)
    (drawnMs : Nat) :
    b.jitter drawnMs ≤ b.jitterMs := by
  unfold jitter
  split
  · exact Nat.zero_le _
  · exact Nat.min_le_right _ _

theorem next_fst
    (b : Backoff)
    (drawnMs : Nat) :
    (b.next drawnMs).1 = b.leastDelay + Span.ofMs (b.jitter drawnMs) := by
  unfold next leastDelay jitter
  split
  · simp [Span.ofMs]
  · rfl

theorem after_succ
    (b : Backoff)
    (n drawnMs : Nat) :
    b.after (n + 1) = ((b.after n).next drawnMs).2 := by
  rw [next_snd]
  induction n generalizing b with
  | zero => rfl
  | succ n ih => exact ih (b.next 0).2

theorem jitterMs_after
    (b : Backoff)
    (n : Nat) :
    (b.after n).jitterMs = b.jitterMs := by
  induction n with
  | zero => rfl
  | succ n ih =>
      rw [after_succ b n 0, ← ih]
      unfold next
      split <;> rfl

end Backoff

theorem RetryPolicy.jitterMs_of_backoff?
    {p : RetryPolicy}
    {b : Backoff}
    (hBackoff : p.backoff? = .ok b) :
    b.jitterMs = p.jitterMs := by
  unfold backoff? Backoff.make? at hBackoff
  split_ifs at hBackoff
  cases hBackoff
  rfl

theorem RetryPolicy.maxAttempts_le_uint32Max
    (p : RetryPolicy) :
    p.maxAttempts ≤ Word.uint32Max := by
  unfold maxAttempts
  exact Nat.min_le_right _ _

namespace RetryMachine

------------------------------------------------------------
-- Moves
------------------------------------------------------------

/-
  What is done with a retried operation: its attempt is said
  to have succeeded or failed, the next one is due, it is
  given up, or some nanoseconds pass.
-/
inductive Move where
  | succeed
  | fail (retryable : Bool) (hint : Option Nat) (drawnMs : Nat)
  | resume
  | giveUp
  | wait (ns : Nat)
deriving DecidableEq, Repr

/- A retried operation at an instant. -/
structure Timed where
  machine : RetryMachine
  now : Nat
deriving DecidableEq, Repr

namespace Timed

def step (s : Timed) : Move → Timed
  | .succeed => { s with machine := s.machine.onSuccess }
  | .fail retryable hint drawnMs =>
      { s with
        machine := s.machine.onFailure s.now retryable hint drawnMs }
  | .resume => { s with machine := s.machine.nextAttempt }
  | .giveUp => { s with machine := s.machine.fail }
  | .wait ns => { s with now := s.now + ns }

/- The operation after some moves. -/
def after
    (s : Timed)
    (moves : List Move) : Timed :=
  moves.foldl step s

theorem after_append
    (s : Timed)
    (moves more : List Move) :
    s.after (moves ++ more) = (s.after moves).after more :=
  List.foldl_append

end Timed

/- The states between two attempts. -/
def Pausing (m : RetryMachine) : Prop :=
  ∃ n delay, m.state = .retrying n delay

instance (m : RetryMachine) : Decidable m.Pausing := by
  unfold Pausing
  cases h : m.state with
  | retrying n delay => exact isTrue ⟨n, delay, rfl⟩
  | _ => exact isFalse (by simp)

namespace Timed

/- How often an operation enters a pause while it is moved. -/
def pauses (s : Timed) : List Move → Nat
  | [] => 0
  | move :: moves =>
      (if ¬s.machine.Pausing ∧ (s.step move).machine.Pausing then 1
        else 0) + (s.step move).pauses moves

end Timed

/- The nanoseconds that pass during some moves. -/
def waited : List Move → Nat
  | [] => 0
  | .wait ns :: moves => ns + waited moves
  | _ :: moves => waited moves

------------------------------------------------------------
-- One move
------------------------------------------------------------

/- What becomes of a failed attempt. -/
theorem onFailure_attempting
    {m : RetryMachine}
    {n : Nat}
    (hState : m.state = .attempting n)
    (now : Nat)
    (retryable : Bool)
    (hint : Option Nat)
    (drawnMs : Nat) :
    m.onFailure now retryable hint drawnMs
      = if retryable = false ∨ m.maxAttempts ≤ n ∨ m.Exhausted now then
          { m with state := .failed n }
        else
          { m with
            state :=
              .retrying n
                (m.delayAfter now hint (m.backoff.next drawnMs).1)
            backoff := (m.backoff.next drawnMs).2 } := by
  unfold onFailure
  rw [hState]

/- A failure that no attempt has is ignored. -/
theorem onFailure_of_not_attempting
    {m : RetryMachine}
    (hState : ∀ n, m.state ≠ .attempting n)
    (now : Nat)
    (retryable : Bool)
    (hint : Option Nat)
    (drawnMs : Nat) :
    m.onFailure now retryable hint drawnMs = m := by
  unfold onFailure
  cases h : m.state with
  | attempting n => exact absurd h (hState n)
  | _ => rfl

/-
  What a move can make of a machine.  It is let alone, its
  attempt ends or begins, or it is given up; only the failure
  of an attempt that is not the last one takes a step of the
  backoff.
-/
inductive Turns (m : RetryMachine) : RetryMachine → Prop where
  | ignored : Turns m m
  | succeeded
      {n : Nat}
      (hState : m.state = .attempting n) :
      Turns m { m with state := .succeeded n }
  | paused
      {n : Nat}
      (hState : m.state = .attempting n)
      (hMore : n < m.maxAttempts)
      (delay drawnMs : Nat) :
      Turns m
        { m with
          state := .retrying n delay
          backoff := (m.backoff.next drawnMs).2 }
  | resumed
      {n delay : Nat}
      (hState : m.state = .retrying n delay) :
      Turns m { m with state := .attempting (n + 1) }
  | failed :
      Turns m { m with state := .failed m.state.attempt }

theorem Timed.step_turns
    (s : Timed)
    (move : Move) :
    s.machine.Turns (s.step move).machine := by
  cases move with
  | succeed =>
      unfold step onSuccess
      cases hState : s.machine.state with
      | attempting n => exact .succeeded hState
      | _ => exact .ignored
  | fail retryable hint drawnMs =>
      unfold step
      by_cases hAttempt : ∃ n, s.machine.state = .attempting n
      · rcases hAttempt with ⟨n, hState⟩
        simp only [onFailure_attempting hState]
        split
        · have hNumber : s.machine.state.attempt = n := by
            rw [hState]
            rfl
          simpa [hNumber] using Turns.failed (m := s.machine)
        · rename_i hMore
          have hAllowed : n < s.machine.maxAttempts :=
            Nat.not_le.mp fun hLast => hMore (Or.inr (Or.inl hLast))
          exact .paused hState hAllowed _ drawnMs
      · simp only
        rw [onFailure_of_not_attempting (not_exists.mp hAttempt)]
        exact .ignored
  | resume =>
      unfold step nextAttempt
      cases hState : s.machine.state with
      | retrying n delay => exact .resumed hState
      | _ => exact .ignored
  | giveUp => exact .failed
  | wait ns => exact .ignored

section Turns

variable {m m' : RetryMachine}

/- A move leaves the bounds of an operation as they are. -/
theorem Turns.bounds
    (hTurn : m.Turns m') :
    m'.maxAttempts = m.maxAttempts ∧ m'.budget = m.budget
      ∧ m'.started = m.started := by
  cases hTurn <;> exact ⟨rfl, rfl, rfl⟩

/- No move goes back to an attempt before. -/
theorem Turns.attempt_le
    (hTurn : m.Turns m') :
    m.state.attempt ≤ m'.state.attempt := by
  cases hTurn with
  | ignored | failed => exact Nat.le_refl _
  | succeeded hState | paused hState | resumed hState =>
      rw [hState]
      simp [RetryState.attempt]

end Turns

theorem Timed.attempt_le_after
    (s : Timed)
    (moves : List Move) :
    s.machine.state.attempt ≤ (s.after moves).machine.state.attempt := by
  induction moves generalizing s with
  | nil => exact Nat.le_refl _
  | cons move moves ih =>
      exact Nat.le_trans (s.step_turns move).attempt_le (ih (s.step move))

------------------------------------------------------------
-- Counting
------------------------------------------------------------

/-
  A state in agreement with the pauses that were entered: one
  lies between any two attempts, and a present one is counted.
-/
def Agrees : RetryState → Nat → Prop
  | .attempting n, pauses => n = pauses + 1
  | .retrying n _, pauses => n = pauses ∧ 0 < pauses
  | .succeeded n, pauses => n = pauses + 1
  | .failed n, pauses => (n = pauses ∨ n = pauses + 1) ∧ 0 < n

/-
  A machine with the bounds of a policy that has entered so
  many pauses, fewer than there may be attempts.
-/
structure Counted
    (p : RetryPolicy)
    (b : Backoff)
    (started pauses : Nat)
    (m : RetryMachine) : Prop where
  maxAttempts : m.maxAttempts = p.maxAttempts
  budget : m.budget = p.budgetMs.map Span.ofMs
  started : m.started = started
  backoff : m.backoff = b.after pauses
  state : Agrees m.state pauses
  allowed : pauses < p.maxAttempts

namespace Counted

variable {p : RetryPolicy} {b : Backoff} {started pauses : Nat}
variable {m m' : RetryMachine}

theorem attempt_pos
    (h : Counted p b started pauses m) :
    1 ≤ m.state.attempt := by
  have hState := h.state
  cases hCase : m.state <;> rw [hCase] at hState <;>
    simp only [Agrees, RetryState.attempt] at hState ⊢ <;> omega

theorem attempt_le
    (h : Counted p b started pauses m) :
    m.state.attempt ≤ p.maxAttempts := by
  have hState := h.state
  have hAllowed := h.allowed
  cases hCase : m.state <;> rw [hCase] at hState <;>
    simp only [Agrees, RetryState.attempt] at hState ⊢ <;> omega

/- There is another attempt after each pause. -/
theorem lt_of_retrying
    (h : Counted p b started pauses m)
    {n delay : Nat}
    (hState : m.state = .retrying n delay) :
    n < p.maxAttempts := by
  have hAgrees := h.state
  rw [hState] at hAgrees
  rw [hAgrees.1]
  exact h.allowed

/- The pauses are counted by each move that enters one. -/
theorem turn
    (h : Counted p b started pauses m)
    (hTurn : m.Turns m') :
    Counted p b started
      ((if ¬m.Pausing ∧ m'.Pausing then 1 else 0) + pauses) m' := by
  have hBounds := hTurn.bounds
  have hState := h.state
  have hSame
      (hStays : ¬(¬m.Pausing ∧ m'.Pausing))
      (hBackoff : m'.backoff = m.backoff)
      (hAgrees : Agrees m'.state pauses) :
      Counted p b started
        ((if ¬m.Pausing ∧ m'.Pausing then 1 else 0) + pauses) m' := by
    rw [if_neg hStays, Nat.zero_add]
    exact
      { maxAttempts := hBounds.1.trans h.maxAttempts
        budget := hBounds.2.1.trans h.budget
        started := hBounds.2.2.trans h.started
        backoff := hBackoff.trans h.backoff
        state := hAgrees
        allowed := h.allowed }
  cases hTurn with
  | ignored => exact hSame (fun hEnters => hEnters.1 hEnters.2) rfl hState
  | succeeded hAttempt =>
      rw [hAttempt] at hState
      exact hSame (by simp [Pausing]) rfl hState
  | resumed hPause =>
      rw [hPause] at hState
      refine hSame (by simp [Pausing]) rfl ?_
      exact congrArg (· + 1) hState.1
  | failed =>
      refine hSame (by simp [Pausing]) rfl ?_
      have hSome := h.attempt_pos
      refine ⟨?_, hSome⟩
      cases hCase : m.state <;> rw [hCase] at hState <;>
        simp only [Agrees, RetryState.attempt] at hState ⊢ <;> omega
  | @paused n hAttempt hMore delay drawnMs =>
      rw [hAttempt] at hState
      have hNumber : n = pauses + 1 := hState
      have hEnters :
          ¬m.Pausing
            ∧ Pausing
              { m with
                state := .retrying n delay
                backoff := (m.backoff.next drawnMs).2 } := by
        refine ⟨?_, n, delay, rfl⟩
        rintro ⟨k, d, hPausing⟩
        rw [hAttempt] at hPausing
        cases hPausing
      rw [if_pos hEnters, Nat.add_comm]
      refine
        { maxAttempts := h.maxAttempts
          budget := h.budget
          started := h.started
          backoff := ?_
          state := ⟨hNumber, Nat.succ_pos _⟩
          allowed := ?_ }
      · rw [b.after_succ pauses drawnMs, ← h.backoff]
      · rw [← h.maxAttempts, ← hNumber]
        exact hMore

end Counted

theorem Timed.counted_after
    {p : RetryPolicy}
    {b : Backoff}
    {started pauses : Nat}
    {s : Timed}
    (h : Counted p b started pauses s.machine)
    (moves : List Move) :
    Counted p b started (s.pauses moves + pauses)
      (s.after moves).machine := by
  induction moves generalizing s pauses with
  | nil => simpa [Timed.pauses, Timed.after] using h
  | cons move moves ih =>
      -- The rest is counted on from what the first move counts for.
      have hRest := ih (h.turn (s.step_turns move))
      rwa [← Nat.add_assoc, Nat.add_comm (Timed.pauses _ moves)] at hRest

/- The clock shows what has passed. -/
theorem Timed.now_after
    (s : Timed)
    (moves : List Move) :
    (s.after moves).now = s.now + waited moves := by
  induction moves generalizing s with
  | nil => rfl
  | cons move moves ih =>
      have hRest := ih (s.step move)
      cases move with
      | wait ns =>
          exact hRest.trans (Nat.add_assoc s.now ns (waited moves))
      | _ => exact hRest

------------------------------------------------------------
-- Failures
------------------------------------------------------------

/-
  What becomes of an attempt that fails after some time: it is
  the last one, or there is a pause of the length that is
  asked for and allowed.
-/
structure Obeys
    (p : RetryPolicy)
    (b : Backoff)
    (elapsed n : Nat)
    (retryable : Bool)
    (hint : Option Nat)
    (drawnMs : Nat)
    (after : RetryState) : Prop where
  failed_iff :
    after = .failed n
      ↔ retryable = false ∨ n = p.maxAttempts
        ∨ ∃ budgetMs ∈ p.budgetMs, Span.ofMs budgetMs < elapsed
  failed_or_paused :
    after = .failed n ∨ ∃ delay, after = .retrying n delay
  paused :
    ∀ k delay,
      after = .retrying k delay →
        ∃ jitterMs ≤ p.jitterMs,
          (b.immediateFirst = true → jitterMs = 0)
            ∧ (b.immediateFirst = false → drawnMs ≤ p.jitterMs →
                jitterMs = drawnMs)
            ∧ (p.budgetMs = none →
                delay
                  = max (b.leastDelay + Span.ofMs jitterMs) (hint.getD 0))
            ∧ ∀ budgetMs ∈ p.budgetMs,
                elapsed ≤ Span.ofMs budgetMs
                  ∧ delay
                    = min
                        (max (b.leastDelay + Span.ofMs jitterMs)
                          (hint.getD 0))
                        (Span.ofMs budgetMs - elapsed)
                  ∧ elapsed + delay ≤ Span.ofMs budgetMs

namespace Counted

variable {p : RetryPolicy} {b : Backoff} {started pauses : Nat}
variable {m : RetryMachine}

/- The machine is late when its policy says so. -/
theorem exhausted_iff
    (h : Counted p b started pauses m)
    (now : Nat) :
    m.Exhausted now
      ↔ ∃ budgetMs ∈ p.budgetMs, Span.ofMs budgetMs < now - started := by
  unfold Exhausted elapsed
  rw [h.budget, h.started]
  cases p.budgetMs <;> simp

theorem delayAfter_of_none
    (h : Counted p b started pauses m)
    (hNone : p.budgetMs = none)
    (now : Nat)
    (hint : Option Nat)
    (delay : Nat) :
    m.delayAfter now hint delay = max delay (hint.getD 0) := by
  simp only [delayAfter, h.budget, hNone, Option.map_none]

/- A pause is cut off where the budget ends. -/
theorem delayAfter_of_some
    (h : Counted p b started pauses m)
    {budgetMs : Nat}
    (hBudget : p.budgetMs = some budgetMs)
    (now : Nat)
    (hint : Option Nat)
    (delay : Nat) :
    m.delayAfter now hint delay
      = min (max delay (hint.getD 0))
          (Span.ofMs budgetMs - (now - started)) := by
  simp only [delayAfter, h.budget, hBudget, Option.map_some, elapsed,
    h.started]

end Counted

theorem onFailure_obeys
    {p : RetryPolicy}
    {b : Backoff}
    {started pauses n : Nat}
    {m : RetryMachine}
    (h : Counted p b started pauses m)
    (hJitter : b.jitterMs = p.jitterMs)
    (hState : m.state = .attempting n)
    (now : Nat)
    (retryable : Bool)
    (hint : Option Nat)
    (drawnMs : Nat) :
    Obeys p m.backoff (now - started) n retryable hint drawnMs
      (m.onFailure now retryable hint drawnMs).state := by
  have hBound : n ≤ p.maxAttempts := by
    have hLimit := h.attempt_le
    rwa [hState] at hLimit
  have hLast : m.maxAttempts ≤ n ↔ n = p.maxAttempts := by
    rw [h.maxAttempts]
    omega
  have hExhausted := h.exhausted_iff now
  rw [onFailure_attempting hState]
  by_cases hOver : retryable = false ∨ m.maxAttempts ≤ n ∨ m.Exhausted now
  · rw [if_pos hOver]
    rw [hLast, hExhausted] at hOver
    exact
      { failed_iff := ⟨fun _ => hOver, fun _ => rfl⟩
        failed_or_paused := Or.inl rfl
        paused := fun k delay hPaused => (nomatch hPaused) }
  · rw [if_neg hOver]
    have hInTime : ¬m.Exhausted now := fun hLate =>
      hOver (Or.inr (Or.inr hLate))
    rw [hLast, hExhausted] at hOver
    refine
      { failed_iff :=
          ⟨fun hFailed => (nomatch hFailed),
            fun hEnds => absurd hEnds hOver⟩
        failed_or_paused := Or.inr ⟨_, rfl⟩
        paused := ?_ }
    rintro k delay ⟨⟩
    have hSame : m.backoff.jitterMs = p.jitterMs := by
      rw [h.backoff, b.jitterMs_after, hJitter]
    refine ⟨m.backoff.jitter drawnMs, ?_, ?_, ?_, ?_, ?_⟩
    · rw [← hSame]
      exact m.backoff.jitter_le drawnMs
    · intro hArmed
      simp [Backoff.jitter, hArmed]
    · intro hUnarmed hDrawn
      rw [← hSame] at hDrawn
      simp [Backoff.jitter, hUnarmed, hDrawn]
    · intro hNone
      rw [h.delayAfter_of_none hNone, m.backoff.next_fst]
    · intro budgetMs hBudget
      have hWithin : now - started ≤ Span.ofMs budgetMs :=
        Nat.not_lt.mp fun hLate =>
          hInTime (hExhausted.mpr ⟨budgetMs, hBudget, hLate⟩)
      rw [h.delayAfter_of_some hBudget, m.backoff.next_fst]
      refine ⟨hWithin, rfl, ?_⟩
      calc
        _ ≤ now - started + (Span.ofMs budgetMs - (now - started)) :=
          Nat.add_le_add_left (Nat.min_le_right _ _) _
        _ = Span.ofMs budgetMs := Nat.add_sub_cancel' hWithin

------------------------------------------------------------
-- Whole runs
------------------------------------------------------------

/-
  What holds of an operation after any moves: the number of
  its attempt has bounds and never goes back, pauses are
  limited, and a failure in the present attempt, or in none,
  has the effect that it has to have.
-/
structure Lawful
    (p : RetryPolicy)
    (b : Backoff)
    (start : Timed)
    (moves : List Move) : Prop where
  attempt_pos : 1 ≤ (start.after moves).machine.state.attempt
  attempt_le :
    (start.after moves).machine.state.attempt ≤ p.maxAttempts
  attempt_mono :
    ∀ more,
      (start.after moves).machine.state.attempt
        ≤ (start.after (moves ++ more)).machine.state.attempt
  next_fits :
    ∀ n delay,
      (start.after moves).machine.state = .retrying n delay →
        n + 1 ≤ p.maxAttempts ∧ n + 1 ≤ Word.uint32Max
  pauses_le : start.pauses moves ≤ p.maxAttempts - 1
  backoff :
    (start.after moves).machine.backoff = b.after (start.pauses moves)
  failure :
    ∀ n,
      (start.after moves).machine.state = .attempting n →
        ∀ retryable hint drawnMs,
          Obeys p (start.after moves).machine.backoff (waited moves) n
            retryable hint drawnMs
            (start.after
              (moves ++ [.fail retryable hint drawnMs])).machine.state
  ignored :
    (∀ n, (start.after moves).machine.state ≠ .attempting n) →
      ∀ retryable hint drawnMs,
        start.after (moves ++ [.fail retryable hint drawnMs])
          = start.after moves

/-
  An operation with a policy that is accepted can be started
  at any instant, and whatever is then done with it, it keeps
  to the policy.
-/
theorem run_lawful
    {p : RetryPolicy}
    {b : Backoff}
    (hBackoff : p.backoff? = .ok b)
    (started : Nat)
    (moves : List Move) :
    ∃ m, start? p started = .ok m
      ∧ m.state = .attempting 1
      ∧ Lawful p b { machine := m, now := started } moves := by
  let m : RetryMachine :=
    { state := .attempting 1
      maxAttempts := p.maxAttempts
      budget := p.budgetMs.map Span.ofMs
      backoff := b
      started := started }
  have hStart : start? p started = .ok m := by
    unfold start?
    rw [hBackoff]
    rfl
  let start : Timed := { machine := m, now := started }
  have hFirst : Counted p b started 0 start.machine :=
    { maxAttempts := rfl
      budget := rfl
      started := rfl
      backoff := rfl
      state := rfl
      allowed := p.maxAttempts_pos }
  have hCounted := Timed.counted_after hFirst moves
  rw [Nat.add_zero] at hCounted
  have hClock : (start.after moves).now - started = waited moves := by
    rw [Timed.now_after]
    exact Nat.add_sub_cancel_left started (waited moves)
  have hFailed (retryable : Bool) (hint : Option Nat) (drawnMs : Nat) :
      start.after (moves ++ [.fail retryable hint drawnMs])
        = { start.after moves with
            machine :=
              (start.after moves).machine.onFailure
                (start.after moves).now retryable hint drawnMs } :=
    start.after_append moves _
  refine ⟨m, hStart, rfl, ?_⟩
  refine
    { attempt_pos := hCounted.attempt_pos
      attempt_le := hCounted.attempt_le
      attempt_mono := fun more => ?_
      next_fits := fun n delay hState => ?_
      pauses_le := Nat.le_sub_one_of_lt hCounted.allowed
      backoff := hCounted.backoff
      failure := fun n hState retryable hint drawnMs => ?_
      ignored := fun hState retryable hint drawnMs => ?_ }
  · rw [start.after_append]
    exact Timed.attempt_le_after _ more
  · have hMore := hCounted.lt_of_retrying hState
    exact ⟨hMore, Nat.le_trans hMore p.maxAttempts_le_uint32Max⟩
  · have hJitter := RetryPolicy.jitterMs_of_backoff? hBackoff
    rw [hFailed, ← hClock]
    exact
      onFailure_obeys hCounted hJitter hState (start.after moves).now
        retryable hint drawnMs
  · rw [hFailed, onFailure_of_not_attempting hState]

/- Three attempts, the first pause none, within a short budget. -/
def hastyPolicy : RetryPolicy :=
  { RetryPolicy.standard with
    maxRetries := 2
    initialDelayMs := 10
    jitterMs := 5
    immediateFirst := true
    budgetMs := some 300 }

/-
  A failure during a pause is ignored; one that comes late asks
  for more than is left of the budget.
-/
def hastyMoves : List Move :=
  [.fail true none 3, .fail false none 0, .wait 1000, .resume,
    .wait (Span.ofMs 50), .fail true (some (Span.ofMs 400)) 3]

/- The second pause ends with the budget. -/
theorem run_lawful_of_hasty :
    ∃ b m,
      hastyPolicy.backoff? = .ok b
        ∧ start? hastyPolicy 7 = .ok m
        ∧ Lawful hastyPolicy b { machine := m, now := 7 } hastyMoves
        ∧ (Timed.after { machine := m, now := 7 } hastyMoves).machine.state
          = .retrying 2 (Span.ofMs 250 - 1000)
        ∧ Timed.pauses { machine := m, now := 7 } hastyMoves = 2 := by
  have hBackoff :=
    RetryPolicy.backoff?_eq_ok (p := hastyPolicy) (by decide)
      (by decide) (by decide)
  rcases run_lawful hBackoff 7 hastyMoves with ⟨m, hStart, -, hLawful⟩
  refine ⟨_, m, hBackoff, hStart, hLawful, ?_⟩
  unfold start? at hStart
  rw [hBackoff] at hStart
  cases hStart
  exact ⟨by decide +kernel, by decide⟩

end RetryMachine

end TradeTape
