import TradeTape.Backfill.Gate
import TradeTape.Time.Timer

/-
  Jobs that take their turns in virtual time.

  A job makes calls, one after the other, and each call needs
  a permit of the gate.  A job is woken when it is hired, when
  an alarm of its own rings, when the gate decides about it
  and when the crew is canceled.  Time stands still while
  woken jobs are served, and then moves on to the next alarm.

  A job that is served goes on as far as it can.  Only when it
  is held up does it look at the time it was given, so a call
  that ends just when that time is up still counts.

  Key definitions include:
    * `Visit`
    * `Job`
    * `Crew`
    * `Crew.serve`
    * `Crew.nextInstant?`
    * `Crew.advanceTo`
    * `Crew.toil`
-/

namespace TradeTape

------------------------------------------------------------
-- Jobs
------------------------------------------------------------

/-
  A call: the milliseconds it takes, and what the job goes on
  with then, another call or its result.
-/
structure Visit (τ ω : Type) where
  delay : Nat
  next : τ ⊕ ω

/-
  What a job does next: rest before it starts, ask the gate,
  hear what the gate has decided, or end its call.
-/
inductive Stage (τ ω : Type) where
  | resting (ms : Nat)
  | ready
  | queued
  | calling (next : τ ⊕ ω) (due : Nat)

/-
  A job, its group, and the time it has been given.  That time
  runs from the first instant at which the job is held up.
-/
structure Job (τ ω : Type) where
  number : Nat
  group : Nat
  task : τ
  patience : Option Nat
  deadline : Option Nat
  stage : Stage τ ω

/- How a job ends. -/
inductive Ending (ω : Type) where
  | done (w : ω)
  | canceled
  | refused
  | timedOut
deriving DecidableEq, Repr

/- The instant at which a job is woken. -/
structure Alarm where
  instant : Nat
  job : Nat
deriving DecidableEq, Repr

/- Whether an instant has come. -/
def Reached
    (now : Nat)
    (instant : Option Nat) : Prop :=
  match instant with
  | some t => t ≤ now
  | none => False

instance (now : Nat) (instant : Option Nat) :
    Decidable (Reached now instant) :=
  match instant with
  | some t => inferInstanceAs (Decidable (t ≤ now))
  | none => inferInstanceAs (Decidable False)

/- The earlier of two instants that may not be there. -/
def earlier : Option Nat → Option Nat → Option Nat
  | none, t => t
  | t, none => t
  | some s, some t => some (min s t)

------------------------------------------------------------
-- Crews
------------------------------------------------------------

/-
  The jobs in work, the gate they share, the timer of their
  alarms, and the world that their calls change.  Alarms are
  kept in the order in which they were set, and woken jobs in
  the order in which they were woken.
-/
structure Crew (σ τ ω : Type) where
  timer : Timer
  now : Nat
  hired : Nat
  cancelAt : Option Nat
  gate : Gate
  world : σ
  jobs : List (Job τ ω)
  alarms : List Alarm
  woken : List Nat

namespace Crew

variable {σ τ ω : Type}

/- A crew without jobs. -/
def make
    (timer : Timer)
    (ceiling : Nat)
    (cancelAt : Option Nat)
    (world : σ) : Crew σ τ ω :=
  { timer := timer
    now := 0
    hired := 0
    cancelAt := cancelAt
    gate := Gate.make ceiling
    world := world
    jobs := []
    alarms := []
    woken := [] }

/- A new job, which is woken at once and rests for a while. -/
def hire
    (c : Crew σ τ ω)
    (group : Nat)
    (task : τ)
    (patience : Option Nat)
    (rest : Nat) : Crew σ τ ω :=
  { c with
    hired := c.hired + 1
    jobs :=
      c.jobs
        ++ [{ number := c.hired
              group := group
              task := task
              patience := patience
              deadline := none
              stage := if rest = 0 then .ready else .resting rest }]
    woken := c.woken ++ [c.hired] }

/- The job with a number. -/
def job?
    (c : Crew σ τ ω)
    (number : Nat) : Option (Job τ ω) :=
  c.jobs.find? fun j => j.number = number

/- The jobs of a group. -/
def ofGroup
    (c : Crew σ τ ω)
    (group : Nat) : List (Job τ ω) :=
  c.jobs.filter fun j => j.group = group

/- The job that was woken first. -/
def firstWoken? (c : Crew σ τ ω) : Option (Job τ ω) :=
  c.woken.findSome? c.job?

/- The job of a group that was woken first. -/
def firstWokenOf?
    (c : Crew σ τ ω)
    (group : Nat) : Option (Job τ ω) :=
  c.woken.findSome? fun n =>
    (c.job? n).filter fun j => j.group = group

/- The crew is canceled, from an instant on. -/
def Canceled (c : Crew σ τ ω) : Prop :=
  Reached c.now c.cancelAt

instance (c : Crew σ τ ω) : Decidable c.Canceled := by
  unfold Canceled
  infer_instance

------------------------------------------------------------
-- Waking
------------------------------------------------------------

/- The crew after a job in work is woken, unless it was. -/
def wake
    (c : Crew σ τ ω)
    (number : Nat) : Crew σ τ ω :=
  if number ∈ c.woken ∨ (c.job? number).isNone then c
  else { c with woken := c.woken ++ [number] }

/- The crew after several jobs are woken, one by one. -/
def wakeAll
    (c : Crew σ τ ω)
    (numbers : List Nat) : Crew σ τ ω :=
  numbers.foldl wake c

/- The crew after a job has gone to sleep. -/
def doze
    (c : Crew σ τ ω)
    (number : Nat) : Crew σ τ ω :=
  { c with woken := c.woken.filter fun n => n ≠ number }

/- The crew after an alarm is set for a job. -/
def setAlarm
    (c : Crew σ τ ω)
    (instant number : Nat) : Crew σ τ ω :=
  { c with
    alarms := c.alarms ++ [{ instant := instant, job := number }] }

/-
  The instant at which something happens next: an alarm or
  the cancellation.
-/
def nextInstant? (c : Crew σ τ ω) : Option Nat :=
  if c.jobs.isEmpty then none
  else
    c.alarms.foldl (fun t a => earlier t (some a.instant))
      (if c.Canceled then none else c.cancelAt)

/-
  The crew at a later instant.  The alarms that have come ring
  in the order in which they were set, and a cancellation
  wakes all jobs after them.
-/
def advanceTo
    (c : Crew σ τ ω)
    (instant : Nat) : Crew σ τ ω :=
  let now := max c.now instant
  let (due, later) := c.alarms.partition fun a => a.instant ≤ now
  let rung :=
    { c with now := now, alarms := later }.wakeAll
      (due.map Alarm.job)
  if ¬c.Canceled ∧ rung.Canceled then
    rung.wakeAll (rung.jobs.map Job.number)
  else
    rung

------------------------------------------------------------
-- Changes
------------------------------------------------------------

/- The crew with a job in its new form. -/
def put
    (c : Crew σ τ ω)
    (job : Job τ ω) : Crew σ τ ω :=
  { c with
    jobs := c.jobs.map fun j =>
      if j.number = job.number then job else j }

/-
  The crew with its gate in a new state, which wakes the jobs
  that need wait no longer.
-/
def setGate
    (c : Crew σ τ ω)
    (gate : Gate) : Crew σ τ ω :=
  let decided :=
    (c.gate.requests.filter fun r =>
      r.phase = .waiting ∧ gate.phase? r.number ≠ some .waiting).map
      Gate.Request.number
  { c with gate := gate }.wakeAll decided

/- The crew without a job. -/
def dismiss
    (c : Crew σ τ ω)
    (number : Nat) : Crew σ τ ω :=
  { c with
    jobs := c.jobs.filter fun j => j.number ≠ number
    alarms := c.alarms.filter fun a => a.job ≠ number
    woken := c.woken.filter fun n => n ≠ number }.setGate
    (c.gate.leave number)

/- The crew after its gate is closed. -/
def closeGate (c : Crew σ τ ω) : Crew σ τ ω :=
  c.setGate c.gate.close

/- A job that was granted a permit takes it and makes its call. -/
def begin
    (visit : Nat → σ → τ → Visit τ ω × σ)
    (c : Crew σ τ ω)
    (j : Job τ ω) : Crew σ τ ω :=
  let (v, world) := visit c.now c.world j.task
  let due := c.now + v.delay
  let c :=
    { c with gate := c.gate.enter j.number, world := world }.put
      { j with stage := .calling v.next due }
  if v.delay = 0 then c else c.setAlarm due j.number

/-
  A job is held up: it ends if its time is up, and sleeps
  until it is woken again if not.
-/
def hold
    (c : Crew σ τ ω)
    (j : Job τ ω) : Crew σ τ ω × Option (Ending ω) :=
  let deadline :=
    match j.deadline with
    | some t => some t
    | none => j.patience.map fun ms => c.now + c.timer.waitMs ms
  if Reached c.now deadline then
    (c.dismiss j.number, some .timedOut)
  else
    let c := (c.put { j with deadline := deadline }).doze j.number
    match j.deadline, deadline with
    | none, some t => (c.setAlarm t j.number, none)
    | _, _ => (c, none)

/-
  The next move of a job that is awake.  One that is canceled
  ends at once.
-/
def serve
    (visit : Nat → σ → τ → Visit τ ω × σ)
    (c : Crew σ τ ω)
    (j : Job τ ω) : Crew σ τ ω × Option (Ending ω) :=
  if c.Canceled then
    (c.dismiss j.number, some .canceled)
  else
    match j.stage with
    | .resting ms =>
        (((c.put { j with stage := .ready }).setAlarm
            (c.now + c.timer.waitMs ms) j.number).doze j.number,
          none)
    | .ready =>
        ({ c with gate := c.gate.ask j.number }.put
            { j with stage := .queued },
          none)
    | .queued =>
        match c.gate.phase? j.number with
        | some .granted => (begin visit c j, none)
        | some .refused => (c.dismiss j.number, some .refused)
        | _ => c.hold j
    | .calling next due =>
        if c.now < due then
          c.hold j
        else
          match next with
          | .inl task =>
              ((c.setGate (c.gate.leave j.number)).put
                  { j with task := task, stage := .ready },
                none)
          | .inr w => (c.dismiss j.number, some (.done w))

------------------------------------------------------------
-- What is left to do
------------------------------------------------------------

/-
  A bound on the moves that a stage leads to, for tasks that
  make so many calls.  For each call a job asks, begins, sets
  an alarm, is woken by it and ends.
-/
def stageToil
    (calls : τ → Nat)
    (task : τ) : Stage τ ω → Nat
  | .resting _ => 7 * calls task + 3
  | .ready => 7 * calls task
  | .queued => 7 * calls task - 3
  | .calling (.inl next) _ => 7 * calls next + 1
  | .calling (.inr _) _ => 0

/-
  A bound on the moves that are left for a job, with those
  for which it is woken: by the gate, by its alarms, by the
  one it sets when it is held up first, and when the crew is
  canceled.
-/
def toil
    (calls : τ → Nat)
    (c : Crew σ τ ω)
    (j : Job τ ω) : Nat :=
  stageToil calls j.task j.stage
    + (if j.number ∈ c.woken then 1 else 0)
    + (if c.gate.phase? j.number = some .waiting then 2 else 0)
    + 2 * c.alarms.countP (fun a => a.job = j.number)
    + (if j.deadline = none ∧ j.patience ≠ none then 3 else 0)
    + (if c.cancelAt ≠ none ∧ ¬c.Canceled then 2 else 0)

end Crew

end TradeTape
