import TradeTape.Backfill.Plan
import TradeTape.Backfill.Report
import TradeTape.Backfill.Sink

/-
  Desks: the work on one instrument.

  A desk knows the windows that are not yet started and the
  outcomes of those that are finished.  When all are, it is
  closed: what was fetched is put together, the sink is given
  what is kept for the whole instrument, and a report is
  written.

  Key definitions include:
    * `Depot`
    * `Desk`
    * `Desk.plan`
    * `Desk.takeHaul`
    * `Desk.close`
-/

namespace TradeTape

------------------------------------------------------------
-- Keeping results
------------------------------------------------------------

/- The state of a sink, and the results handed to it so far. -/
structure Depot (κ : Type) where
  kept : κ
  handed : List Result

/- Hands a result to the sink. -/
def Depot.keep
    {κ : Type}
    (sink : Sink κ)
    (depot : Depot κ)
    (result : Result) : Except String Stored × Depot κ :=
  let (answer, kept) := sink.store depot.kept result
  let stored : Stored :=
    { stem := result.fileStem
      window := result.window
      trades := result.trades.length }
  (answer.map fun _ => stored,
    { kept := kept, handed := depot.handed ++ [result] })

------------------------------------------------------------
-- Desks
------------------------------------------------------------

/-
  An instrument in work: the windows that are not yet
  started, and the outcomes of those that are finished.
-/
structure Desk where
  position : Nat
  instrument : Instrument
  life : Lifecycle
  planned : Nat
  pending : List Window
  outcomes : List Outcome
  failure : Option Failure

namespace Desk

/- A desk after a trigger. -/
def fire
    (d : Desk)
    (t : Lifecycle.Trigger) : Desk :=
  { d with life := d.life.fire t }

/- A desk that has just been opened. -/
def start
    (position : Nat)
    (i : Instrument) : Desk :=
  { position := position
    instrument := i
    life := Lifecycle.start
    planned := 0
    pending := []
    outcomes := []
    failure := none }

/- A desk at which planning has not begun. -/
def Untouched (d : Desk) : Prop :=
  d.life.state = .discovered

instance (d : Desk) : Decidable d.Untouched := by
  unfold Untouched
  infer_instance

/- A desk with its plan. -/
def withPlan
    (d : Desk)
    (windows : List Window) : Desk :=
  ({ d with planned := windows.length, pending := windows } : Desk).fire .fetch

/- A desk whose plan could not be made. -/
def withoutPlan
    (d : Desk)
    (f : Fault) : Desk :=
  { d with failure := some (.planning f) }.fire .fail

/- The windows of a range of instants. -/
def timePlan
    (s : Settings)
    (range : TimeWindow) : List Window :=
  (Plan.timeWindows s.chunkMs range).map .time

/- The windows of a tape that ends with a trade number. -/
def seqPlan
    (s : Settings)
    (latest : Option Int) : List Window :=
  match latest.bind (SeqWindow.make? 1) with
  | some range => (Plan.seqWindows s.seqSpan range).map .seq
  | none => []

/- A desk after its look-up. -/
def afterLookup
    (s : Settings)
    (d : Desk) : Except Fault (Option Int) → Desk
  | .ok latest => d.withPlan (seqPlan s latest)
  | .error f => d.withoutPlan f

/-
  The desk after planning has begun, and the instant of the
  look-up that is needed first.  Windows of instants are
  planned at once; windows of trade numbers need a look-up.
-/
def plan
    (s : Settings)
    (reference : Option Int)
    (d : Desk) : Desk × Option Int :=
  let d := d.fire .plan
  match d.instrument.validRange reference, s.pagination with
  | none, _ => (d.withPlan [], none)
  | some range, .time => (d.withPlan (timePlan s range), none)
  | some range, .sequence => (d, some range.endMs)

------------------------------------------------------------
-- Taking hauls
------------------------------------------------------------

/- What is kept of a window by itself. -/
def windowResult?
    (s : Settings)
    (i : Instrument)
    (window : Window) :
    Except Fault Haul → Option Result
  | .error _ => none
  | .ok haul =>
      match s.partitioning with
      | .perInstrument => none
      | .perWindow =>
          if haul.trades = [] then none
          else
            some
              { instrument := i
                window := some window
                trades := haul.trades }

/- The desk after the walk over a window has ended. -/
def takeHaul
    {κ : Type}
    (s : Settings)
    (sink : Sink κ)
    (depot : Depot κ)
    (d : Desk)
    (window : Window)
    (walked : Except Fault Haul) : Desk × Depot κ :=
  let (kept, depot) :=
    match windowResult? s d.instrument window walked with
    | none => (none, depot)
    | some result =>
        let (answer, depot) := depot.keep sink result
        (some answer, depot)
  let outcome : Outcome :=
    { window := window, walked := walked, kept := kept }
  ({ d with outcomes := d.outcomes ++ [outcome] }, depot)

------------------------------------------------------------
-- Closing
------------------------------------------------------------

/- The report of a desk in the state it has reached. -/
def report
    (d : Desk)
    (outcomes : List Outcome)
    (whole : Option Stored) : Report :=
  let hauls := Outcome.hauls outcomes
  let stored := Outcome.stored outcomes ++ whole.toList
  let failure :=
    match d.life with
    | .ok _ => d.failure
    | .error refusal => some (.refused refusal)
  { instrument := d.instrument
    state := d.life.state
    windowsPlanned := d.planned
    windowsOk := hauls.length
    requests := total (hauls.map Haul.requests)
    trades := total (stored.map Stored.trades)
    stored := stored
    gaps := Outcome.gaps d.instrument.name outcomes
    failure := failure }

/- The outcomes of a desk in the order of their windows. -/
def ordered (d : Desk) : List Outcome :=
  d.outcomes.mergeSort fun a b => a.window.boundsLe b.window

/- The desk of an instrument that failed. -/
def failed
    (d : Desk)
    (f : Failure) : Desk :=
  { d with failure := some f }.fire .fail

/- What is kept for the whole instrument. -/
def wholeResult
    (d : Desk)
    (outcomes : List Outcome) : Result :=
  { instrument := d.instrument
    window := none
    trades :=
      Merge.windows ((Outcome.hauls outcomes).map Haul.trades) }

/-
  The report of a desk whose plan was made, after the sink was
  given what is kept for the whole instrument.
-/
def merge
    {κ : Type}
    (s : Settings)
    (sink : Sink κ)
    (depot : Depot κ)
    (d : Desk) : Report × Depot κ :=
  let outcomes := d.ordered
  let d := d.fire .merge
  match Outcome.sinkReason? outcomes with
  | some reason =>
      ((d.failed (.sink reason)).report outcomes none, depot)
  | none =>
      if d.planned ≠ 0 ∧ Outcome.hauls outcomes = [] then
        ((d.failed (.allWindows d.planned)).report outcomes none,
          depot)
      else
        match s.partitioning with
        | .perWindow =>
            ((d.fire .persist).report outcomes none, depot)
        | .perInstrument =>
            let (answer, depot) :=
              depot.keep sink (d.wholeResult outcomes)
            match answer with
            | .ok stored =>
                ((d.fire .persist).report outcomes (some stored),
                  depot)
            | .error reason =>
                ((d.failed (.sink reason)).report outcomes none,
                  depot)

/- The report of a desk, and the depot after it is closed. -/
def close
    {κ : Type}
    (s : Settings)
    (sink : Sink κ)
    (depot : Depot κ)
    (d : Desk) : Report × Depot κ :=
  if d.failure.isSome then (d.report [] none, depot)
  else d.merge s sink depot

end Desk

end TradeTape
