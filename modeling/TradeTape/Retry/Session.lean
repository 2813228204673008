import TradeTape.Retry.Machine
import TradeTape.Time.Timer

/-
  Running an operation until it succeeds or is given up.

  Time is counted in whole milliseconds.  An attempt that is
  done just when its time is up counts as done.  An attempt
  takes its own time; only its limit and the pauses after it
  are waits for a timer.

  Key definitions include:
    * `Attempt`
    * `Session`
    * `Session.run`
-/

namespace TradeTape

/-
  What an attempt does: it takes some milliseconds, or for
  ever, and then gives a value or an error.
-/
structure Attempt (ε α : Type) where
  duration : Option Nat
  result : Except ε α

/-
  An operation, the rules by which it is repeated, the timer
  of its waits, and what is drawn for its pauses: by what is
  left of the world and by the number of the failed attempt.
-/
structure Session (σ ε α : Type) where
  policy : RetryPolicy
  name : String
  attempt : σ → Attempt ε α × σ
  retryable : ε → Bool
  hint : ε → Option Nat
  created : String → ε
  cancelAt : Option Nat
  drawnMs : σ → Nat → Nat
  timer : Timer := Timer.standard

/- What came of an operation, and when its attempts started. -/
structure SessionEnd (σ ε α : Type) where
  result : Except ε α
  starts : List Nat
  stop : Nat
  state : σ

namespace Session

variable {σ ε α : Type}

/- The message of an operation that was canceled. -/
def canceledMessage : String := "canceled"

/- The message of an attempt that took too long. -/
def overdueMessage (s : Session σ ε α) : String :=
  s!"Operation '{s.name}' timed out after "
    ++ s!"{s.policy.attemptLimitMs.getD 0}ms"

/- The message of an operation that took too long. -/
def exhaustedMessage (s : Session σ ε α) : String :=
  s!"Operation '{s.name}' exceeded total time budget of "
    ++ s!"{s.policy.budgetMs.getD 0}ms"

/- The message for a policy whose backoff cannot be made. -/
def badBackoffMessage (p : Backoff.Problem) : String :=
  "Failed to create backoff: " ++ p.message

/- Whether the cancellation comes before an instant. -/
def canceledBefore
    (s : Session σ ε α)
    (instant : Option Nat) : Option Nat :=
  match s.cancelAt, instant with
  | some c, some t => if c < t then some c else none
  | some c, none => some c
  | none, _ => none

/- The milliseconds after which an attempt is given up. -/
def attemptLimit? (s : Session σ ε α) : Option Nat :=
  s.policy.attemptLimitMs.map s.timer.waitMs

/- The instant at which an attempt ends, and how. -/
def outcome
    (s : Session σ ε α)
    (now : Nat)
    (a : Attempt ε α) : Option Nat × Except ε α :=
  match a.duration, s.attemptLimit? with
  | some d, some limit =>
      if d ≤ limit then (some (now + d), a.result)
      else (some (now + limit), .error (s.created s.overdueMessage))
  | none, some limit =>
      (some (now + limit), .error (s.created s.overdueMessage))
  | some d, none => (some (now + d), a.result)
  | none, none => (none, a.result)

/-
  The attempts from the present one on, at most as many as a
  number says.
-/
def attemptsFrom
    (s : Session σ ε α) :
    Nat → RetryMachine → Nat → List Nat → σ → SessionEnd σ ε α
  | 0, _, now, starts, state =>
      { result := .error (s.created s.exhaustedMessage)
        starts := starts.reverse
        stop := now
        state := state }
  | left + 1, m, now, starts, state =>
      let ended := fun (r : Except ε α) (starts : List Nat)
          (stop : Nat) (state : σ) =>
        { result := r
          starts := starts.reverse
          stop := stop
          state := state : SessionEnd σ ε α }
      let canceled : Except ε α :=
        .error (s.created canceledMessage)
      if 1 < m.state.attempt ∧ m.Exhausted (Span.ofMs now) then
        ended (.error (s.created s.exhaustedMessage)) starts now state
      else if (s.canceledBefore (some (now + 1))).isSome then
        ended canceled starts now state
      else
        let (a, state) := s.attempt state
        let starts := now :: starts
        let (stop, result) := s.outcome now a
        match s.canceledBefore stop, stop with
        | some c, _ => ended canceled starts c state
        | none, none => ended result starts now state
        | none, some stop =>
            match result with
            | .ok v => ended (.ok v) starts stop state
            | .error e =>
                let m :=
                  m.onFailure (Span.ofMs stop) (s.retryable e)
                    (s.hint e) (s.drawnMs state m.state.attempt)
                match m.state with
                | .retrying _ delay =>
                    let wake :=
                      stop + s.timer.waitMs (Span.ceilMs delay)
                    match s.canceledBefore (some wake) with
                    | some c => ended canceled starts c state
                    | none =>
                        attemptsFrom s left m.nextAttempt wake starts state
                | _ => ended (.error e) starts stop state

/- The whole operation, from the instant zero. -/
def run
    (s : Session σ ε α)
    (state : σ) : SessionEnd σ ε α :=
  match RetryMachine.start? s.policy 0 with
  | .error p =>
      { result := .error (s.created (badBackoffMessage p))
        starts := []
        stop := 0
        state := state }
  | .ok m => s.attemptsFrom s.policy.maxAttempts m 0 [] state

end Session

end TradeTape
