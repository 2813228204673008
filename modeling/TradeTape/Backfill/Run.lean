import TradeTape.Backfill.Admission
import TradeTape.Backfill.Desk
import TradeTape.Backfill.Venue

/-
  Runs: the backfill of a list of instruments.

  Some instruments are in work at once, each at a desk of its
  own, and some windows of each.  A run attends to one desk at
  a time until nothing is left to do there for the moment: it
  plans the windows, starts walks, serves woken jobs, and
  closes the desk when all is done.  Then it opens a desk for
  the next instrument, turns to another desk, or lets time
  move on.

  Key definitions include:
    * `Errand`
    * `Office`
    * `Run`
    * `Run.start?`
    * `Run.step?`
    * `Run.toEnd`
-/

namespace TradeTape

------------------------------------------------------------
-- Errands
------------------------------------------------------------

/-
  The task of a job: to look up the greatest trade number at
  an instant, or to walk over a window.
-/
inductive Errand where
  | lookup (instrument : String) (endMs : Int)
  | walk (w : Walk)
deriving Repr

/- What a job brings home. -/
inductive Find where
  | latest (r : Except Fault (Option Int))
  | haul (r : Except Fault Haul)

namespace Errand

/- What a person reads about a task. -/
def label : Errand → String
  | .lookup instrument _ => instrument
  | .walk w => w.instrument ++ " " ++ w.whole.text

/- The calls that a task can still make. -/
def calls : Errand → Nat
  | .lookup _ _ => 1
  | .walk w => w.allowance

/- The find of a task that failed. -/
def failed
    (f : Fault) : Errand → Find
  | .lookup _ _ => .latest (.error f)
  | .walk _ => .haul (.error f)

/- What a walk goes on with after an answer. -/
def afterPage
    (w : Walk)
    (reply : Except Fault (List Trade)) : Errand ⊕ Find :=
  match w.answer reply with
  | .asks w => .inl (.walk w)
  | .ends r => .inr (.haul r)

end Errand

/- A venue's state, and the calls it got with their instants. -/
structure World (σ : Type) where
  venue : σ
  calls : List (Nat × Call)

/- The call of a task. -/
def Errand.visit
    {σ : Type}
    (v : Venue σ)
    (now : Nat)
    (s : World σ) :
    Errand → Visit Errand Find × World σ
  | .lookup instrument endMs =>
      let (reply, venue) := v.latest s.venue instrument endMs
      ({ delay := reply.delay, next := .inr (.latest reply.result) },
        { venue := venue
          calls := (now, .latest instrument endMs) :: s.calls })
  | .walk w =>
      let (reply, venue) := v.page s.venue w.query
      ({ delay := reply.delay, next := Errand.afterPage w reply.result },
        { venue := venue, calls := (now, .page w.query) :: s.calls })

/- The fault of a run that was canceled. -/
def Fault.runCanceled : Fault :=
  .canceled "backfill canceled"

/- What a job brings home, by the way it ended. -/
def findOf (j : Job Errand Find) : Ending Find → Find
  | .done f => f
  | .canceled => j.task.failed Fault.runCanceled
  | .refused => j.task.failed Fault.gateClosed
  | .timedOut =>
      j.task.failed
        (Fault.overdue j.task.label (j.patience.getD 0))

------------------------------------------------------------
-- Runs
------------------------------------------------------------

/-
  Settings with which a run can start: they pass the checks,
  and a gate can have their permits.
-/
def Settings.Runnable (s : Settings) : Prop :=
  s.Valid ∧ s.maxInFlight ≤ Gate.maxPermits

instance (s : Settings) : Decidable s.Runnable := by
  unfold Settings.Runnable
  infer_instance

/- The rules of a run, its venue, its sink and its timer. -/
structure Office (σ κ : Type) where
  settings : Settings
  reference : Option Int
  venue : Venue σ
  sink : Sink κ
  timer : Timer := Timer.standard

/-
  How far a run has come, the position of the desk that it
  attends to, and what the sink has got so far.
-/
structure Run (σ κ : Type) where
  crew : Crew (World σ) Errand Find
  depot : Depot κ
  queue : List (Nat × Instrument)
  desks : List Desk
  focus : Option Nat
  reports : List Report

namespace Run

variable {σ κ : Type}

/- A run before its first step. -/
def start
    (o : Office σ κ)
    (venue : σ)
    (kept : κ)
    (cancelAt : Option Nat)
    (instruments : List Instrument) : Run σ κ :=
  { crew :=
      Crew.make o.timer o.settings.maxInFlight cancelAt
        { venue := venue, calls := [] }
    depot := { kept := kept, handed := [] }
    queue := (List.range instruments.length).zip instruments
    desks := []
    focus := none
    reports := [] }

/-
  A run before its first step, unless its gate would have more
  permits than a gate can.
-/
def start?
    (o : Office σ κ)
    (venue : σ)
    (kept : κ)
    (cancelAt : Option Nat)
    (instruments : List Instrument) : Option (Run σ κ) :=
  if o.settings.maxInFlight ≤ Gate.maxPermits then
    some (start o venue kept cancelAt instruments)
  else
    none

/- The state of the sink. -/
def kept (r : Run σ κ) : κ :=
  r.depot.kept

/- The desk at a position. -/
def deskAt?
    (r : Run σ κ)
    (position : Nat) : Option Desk :=
  r.desks.find? fun d => d.position = position

/- The run with a desk in its new form. -/
def putDesk
    (r : Run σ κ)
    (desk : Desk) : Run σ κ :=
  { r with
    desks := r.desks.map fun d =>
      if d.position = desk.position then desk else d }

------------------------------------------------------------
-- Opening desks, starting walks, closing desks
------------------------------------------------------------

/- The run after a desk is opened for an instrument. -/
def openDesk
    (r : Run σ κ)
    (position : Nat)
    (i : Instrument) : Run σ κ :=
  { r with desks := r.desks ++ [Desk.start position i] }

/- The run after planning has begun at a desk. -/
def planDesk
    (o : Office σ κ)
    (r : Run σ κ)
    (d : Desk) : Run σ κ :=
  let (d, ask) := d.plan o.settings o.reference
  match ask with
  | none => r.putDesk d
  | some endMs =>
      { r.putDesk d with
        crew :=
          r.crew.hire d.position (.lookup d.instrument.name endMs)
            none 0 }

/- The run after the walk over a window is started. -/
def startWalk
    (o : Office σ κ)
    (r : Run σ κ)
    (d : Desk)
    (w : Window)
    (rest : List Window) : Run σ κ :=
  let walk :=
    Walk.start (WalkRules.ofSettings o.settings) d.instrument.name w
  { r.putDesk { d with pending := rest } with
    crew :=
      r.crew.hire d.position (.walk walk) o.settings.taskTimeoutMs
        0 }

/- The run after a desk is closed. -/
def closeDesk
    (o : Office σ κ)
    (r : Run σ κ)
    (d : Desk) : Run σ κ :=
  let (report, depot) := d.close o.settings o.sink r.depot
  { r with
    desks := r.desks.filter fun e => e.position ≠ d.position
    depot := depot
    reports := r.reports ++ [report] }

------------------------------------------------------------
-- Taking home finds
------------------------------------------------------------

/- The run after a job has brought something home. -/
def takeFind
    (o : Office σ κ)
    (r : Run σ κ)
    (j : Job Errand Find)
    (f : Find) : Run σ κ :=
  match r.deskAt? j.group, j.task, f with
  | some d, _, .latest found =>
      r.putDesk (d.afterLookup o.settings found)
  | some d, .walk w, .haul walked =>
      let (d, depot) :=
        d.takeHaul o.settings o.sink r.depot w.whole walked
      { r.putDesk d with depot := depot }
  | _, _, _ => r

/- The run after a job is served. -/
def serve
    (o : Office σ κ)
    (r : Run σ κ)
    (j : Job Errand Find) : Run σ κ :=
  let (crew, ending) := r.crew.serve (Errand.visit o.venue) j
  let r := { r with crew := crew }
  match ending with
  | none => r
  | some e => takeFind o r j (findOf j e)

------------------------------------------------------------
-- Steps
------------------------------------------------------------

/- A window that may be started at a desk, and the others. -/
def startable?
    (o : Office σ κ)
    (r : Run σ κ)
    (d : Desk) : Option (Window × List Window) :=
  match d.pending with
  | [] => none
  | w :: rest =>
      if (r.crew.ofGroup d.position).length < o.settings.maxWindows then
        some (w, rest)
      else
        none

/- The next step at a desk, if there is one for the moment. -/
def deskStep?
    (o : Office σ κ)
    (r : Run σ κ)
    (d : Desk) : Option (Run σ κ) :=
  if d.Untouched then
    some (planDesk o r d)
  else
    match startable? o r d, r.crew.firstWokenOf? d.position with
    | some (w, rest), _ => some (startWalk o r d w rest)
    | none, some j => some (serve o r j)
    | none, none =>
        if d.pending.isEmpty && (r.crew.ofGroup d.position).isEmpty then
          some (closeDesk o r d)
        else
          none

/-
  The desk to turn to: that of the job that was woken first,
  or else the first at which planning has not begun.
-/
def nextDesk? (r : Run σ κ) : Option Desk :=
  match r.crew.firstWoken? with
  | some j => r.deskAt? j.group
  | none => r.desks.find? fun d => d.Untouched

/- The instrument for which a desk may be opened. -/
def openable?
    (o : Office σ κ)
    (r : Run σ κ) :
    Option ((Nat × Instrument) × List (Nat × Instrument)) :=
  match r.queue with
  | [] => none
  | next :: rest =>
      if r.desks.length < o.settings.maxInstruments then
        some (next, rest)
      else
        none

/- The next step away from the desk attended to so far. -/
def turn?
    (o : Office σ κ)
    (r : Run σ κ) : Option (Run σ κ) :=
  match openable? o r, r.nextDesk? with
  | some ((position, i), rest), _ =>
      some (openDesk { r with queue := rest } position i)
  | none, some d =>
      deskStep? o { r with focus := some d.position } d
  | none, none =>
      r.crew.nextInstant?.map fun t =>
        { r with crew := r.crew.advanceTo t, focus := none }

/- The next step, if anything is left to do. -/
def step?
    (o : Office σ κ)
    (r : Run σ κ) : Option (Run σ κ) :=
  ((r.focus.bind r.deskAt?).bind (deskStep? o r)).or (turn? o r)

------------------------------------------------------------
-- Whole runs
------------------------------------------------------------

/-
  A bound on the steps that the plans made so far lead to:
  the moves of jobs in work and of those that windows still
  to be started will need, with opening and closing of desks.
-/
def effort
    (o : Office σ κ)
    (r : Run σ κ) : Nat :=
  let pages := (WalkRules.ofSettings o.settings).maxPages
  total (r.crew.jobs.map (r.crew.toil Errand.calls))
    + total
        (r.desks.map fun d => d.pending.length * (7 * pages + 7) + 1)
    + 2 * r.queue.length

/- Up to a number of steps. -/
def advance
    (o : Office σ κ) : Nat → Run σ κ → Run σ κ
  | 0, r => r
  | n + 1, r =>
      match step? o r with
      | none => r
      | some r => advance o n r

/-
  Up to a number of rounds, each of as many steps as the
  plans at its start can take.
-/
def rounds
    (o : Office σ κ) : Nat → Run σ κ → Run σ κ
  | 0, r => r
  | n + 1, r => rounds o n (advance o (r.effort o) r)

/-
  The run at its end.  A round does not end before a plan is
  made or a look-up is hired, unless all is done, and that
  happens twice for an instrument at most.
-/
def toEnd
    (o : Office σ κ)
    (r : Run σ κ) : Run σ κ :=
  rounds o (2 * r.queue.length + 1) r

/- The calls of a run, in the order they were made. -/
def calls (r : Run σ κ) : List (Nat × Call) :=
  r.crew.world.calls.reverse

end Run

end TradeTape
