import TradeTape.Retry.Policy

/-
  The states of a retried operation.

  An attempt is made, and after a failure there is a delay
  before the next one, until an attempt succeeds or no other
  one is allowed.

  Key definitions include:
    * `RetryState`
    * `RetryMachine`
    * `RetryMachine.onSuccess`
    * `RetryMachine.onFailure`
    * `RetryMachine.nextAttempt`
    * `RetryMachine.fail`
-/

namespace TradeTape

/- Where a retried operation stands; delays in nanoseconds. -/
inductive RetryState where
  | attempting (attempt : Nat)
  | retrying (attempt delay : Nat)
  | succeeded (attempts : Nat)
  | failed (attempts : Nat)
deriving DecidableEq, Repr

namespace RetryState

/- The number of the attempt that a state tells of. -/
def attempt : RetryState → Nat
  | .attempting n | .retrying n _ | .succeeded n | .failed n => n

/- The states in which an operation is over. -/
def Terminal : RetryState → Prop
  | .succeeded _ | .failed _ => True
  | _ => False

instance (s : RetryState) : Decidable s.Terminal := by
  cases s <;> unfold Terminal <;> infer_instance

end RetryState

/- A retried operation, its bounds and its backoff. -/
structure RetryMachine where
  state : RetryState
  maxAttempts : Nat
  budget : Option Nat
  backoff : Backoff
  started : Nat
deriving DecidableEq, Repr

namespace RetryMachine

/- An operation whose first attempt starts now. -/
def start?
    (p : RetryPolicy)
    (now : Nat) : Except Backoff.Problem RetryMachine := do
  let backoff ← p.backoff?
  .ok
    { state := .attempting 1
      maxAttempts := p.maxAttempts
      budget := p.budgetMs.map Span.ofMs
      backoff := backoff
      started := now }

/- The time since an operation was started. -/
def elapsed
    (m : RetryMachine)
    (now : Nat) : Nat :=
  now - m.started

/- Whether an operation has taken longer than it may. -/
def Exhausted
    (m : RetryMachine)
    (now : Nat) : Prop :=
  match m.budget with
  | some b => b < m.elapsed now
  | none => False

instance (m : RetryMachine) (now : Nat) :
    Decidable (m.Exhausted now) := by
  unfold Exhausted
  split <;> infer_instance

/- The operation after an attempt that succeeded. -/
def onSuccess (m : RetryMachine) : RetryMachine :=
  match m.state with
  | .attempting n => { m with state := .succeeded n }
  | _ => m

/-
  The delay after a failure: not less than a hint asks for,
  and not longer than what is left of the budget.
-/
def delayAfter
    (m : RetryMachine)
    (now : Nat)
    (hint : Option Nat)
    (delay : Nat) : Nat :=
  let delay := max delay (hint.getD 0)
  match m.budget with
  | some b => min delay (b - m.elapsed now)
  | none => delay

/- The operation after an attempt that failed. -/
def onFailure
    (m : RetryMachine)
    (now : Nat)
    (retryable : Bool)
    (hint : Option Nat)
    (drawnMs : Nat) : RetryMachine :=
  match m.state with
  | .attempting n =>
      if retryable = false ∨ m.maxAttempts ≤ n ∨ m.Exhausted now then
        { m with state := .failed n }
      else
        let (delay, backoff) := m.backoff.next drawnMs
        { m with
          state := .retrying n (m.delayAfter now hint delay)
          backoff := backoff }
  | _ => m

/- The operation after a delay. -/
def nextAttempt (m : RetryMachine) : RetryMachine :=
  match m.state with
  | .retrying n _ => { m with state := .attempting (n + 1) }
  | _ => m

/- The operation after it is given up. -/
def fail (m : RetryMachine) : RetryMachine :=
  { m with state := .failed m.state.attempt }

end RetryMachine

end TradeTape
