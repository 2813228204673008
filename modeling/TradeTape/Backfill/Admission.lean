import TradeTape.Backfill.Crew
import TradeTape.Backfill.Fault
import TradeTape.Backfill.Settings

/-
  Requests that share one gate.

  A request arrives, asks for a permit and then works for a
  while.  One that belongs to a task has the task's time, in
  which its waiting is included.  The gate may be closed on
  the way.

  Key definitions include:
    * `Admission.Request`
    * `Admission.Outcome`
    * `Admission.run`
-/

namespace TradeTape

/- The fault of work that took longer than it was given. -/
def Fault.overdue
    (label : String)
    (limitMs : Nat) : Fault :=
  .timeout s!"{label} exceeded {limitMs}ms"

namespace Admission

------------------------------------------------------------
-- Requests
------------------------------------------------------------

/- When a request arrives and what it does when admitted. -/
structure Request where
  arrival : Nat
  duration : Nat
  result : Except Fault Int
  task : Option String

/- What came of a request, and when it started and ended. -/
structure Outcome where
  result : Except Fault Int
  start : Option Nat
  stop : Nat

/- The instants at which requests started their work. -/
abbrev Starts := List (Nat × Nat)

/- A numbered request does all its work in one call. -/
def visit
    (now : Nat)
    (starts : Starts)
    (r : Nat × Request) :
    Visit (Nat × Request) (Except Fault Int) × Starts :=
  ({ delay := r.2.duration, next := .inr r.2.result },
    (r.1, now) :: starts)

/-
  A gate on its way, the number up to which the jobs of the
  present round have been served, and the outcomes so far.
-/
structure State where
  crew : Crew Starts (Nat × Request) (Except Fault Int)
  closeAt : Option Nat
  mark : Nat
  outcomes : List (Nat × Outcome)

/- All requests before the first of them arrives. -/
def start
    (timer : Timer)
    (s : Settings)
    (closeAt : Option Nat)
    (requests : List Request) : State :=
  let hire := fun crew (r : Nat × Request) =>
    Crew.hire crew r.1 r (r.2.task.bind fun _ => s.taskTimeoutMs)
      r.2.arrival
  { crew :=
      ((List.range requests.length).zip requests).foldl hire
        (Crew.make timer s.maxInFlight none [])
    closeAt := closeAt
    mark := 0
    outcomes := [] }

/- The result of a request by the way it ended. -/
def resultOf
    (j : Job (Nat × Request) (Except Fault Int)) :
    Ending (Except Fault Int) → Except Fault Int
  | .done r => r
  | .canceled | .refused => .error Fault.gateClosed
  | .timedOut =>
      .error
        (Fault.overdue (j.task.2.task.getD "") (j.patience.getD 0))

/- The number of requests that are served round by round. -/
def roundLimit : Nat := 30

/-
  The next job to be served.  A few requests are served in
  rounds, each in the order of their numbers; many of them in
  the order in which they were woken.
-/
def next?
    (st : State) : Option (Job (Nat × Request) (Except Fault Int)) :=
  if st.crew.hired ≤ roundLimit then
    let (later, earlier) :=
      st.crew.woken.partition fun n => st.mark ≤ n
    (later.min? <|> earlier.min?).bind st.crew.job?
  else
    st.crew.firstWoken?

/- The state after a job is served. -/
def serve
    (st : State)
    (j : Job (Nat × Request) (Except Fault Int)) : State :=
  let (crew, ending) := st.crew.serve visit j
  let outcomes :=
    match ending with
    | none => st.outcomes
    | some e =>
        (j.task.1,
          { result := resultOf j e
            start := crew.world.lookup j.task.1
            stop := crew.now }) :: st.outcomes
  { st with crew := crew, mark := j.number, outcomes := outcomes }

/-
  The next thing that happens, if anything is left.  The gate
  is closed before any request of that instant is served.
-/
def step? (st : State) : Option State :=
  if Reached st.crew.now st.closeAt then
    some { st with crew := st.crew.closeGate, closeAt := none }
  else
    match next? st with
    | some j => some (serve st j)
    | none =>
        st.crew.nextInstant?.map fun t =>
          { st with
            crew := st.crew.advanceTo (min t (st.closeAt.getD t))
            mark := 0 }

/- Up to a number of things that happen. -/
def advance : Nat → State → State
  | 0, st => st
  | n + 1, st =>
      match step? st with
      | none => st
      | some st => advance n st

/-
  All that happens, and the outcomes in the order of the
  requests.  A request arrives, asks, begins and ends its
  work, is held up at most three times, and has at most three
  alarms.
-/
def run
    (timer : Timer)
    (s : Settings)
    (closeAt : Option Nat)
    (requests : List Request) : List (Option Outcome) × Gate :=
  let st :=
    advance (16 * requests.length + 4)
      (start timer s closeAt requests)
  ((List.range requests.length).map fun i => st.outcomes.lookup i,
    st.crew.gate)

end Admission

end TradeTape
