import TradeTape.Backfill.Fault
import TradeTape.Backfill.Merge
import TradeTape.Backfill.Settings
import TradeTape.Backfill.Walk
import TradeTape.Trade.Instrument
import TradeTape.Trade.Transition

/-
  What a run says about an instrument when it is done with
  it.

  Key definitions include:
    * `Lifecycle`
    * `Gap`
    * `Failure`
    * `Report`
    * `Outcome`
-/

namespace TradeTape

------------------------------------------------------------
-- The life of an instrument
------------------------------------------------------------

namespace Lifecycle

/- How far a run is with an instrument. -/
inductive State where
  | discovered
  | planning
  | fetching
  | merging
  | persisted
  | failed
deriving DecidableEq, Repr

/- What moves an instrument on. -/
inductive Trigger where
  | plan
  | fetch
  | merge
  | persist
  | fail
deriving DecidableEq, Repr

instance : Named State where
  all :=
    [.discovered, .planning, .fetching, .merging, .persisted,
      .failed]
  name
    | .discovered => "DISCOVERED"
    | .planning => "PLANNING"
    | .fetching => "FETCHING"
    | .merging => "MERGING"
    | .persisted => "PERSISTED"
    | .failed => "FAILED"

instance : Named Trigger where
  all := [.plan, .fetch, .merge, .persist, .fail]
  name
    | .plan => "Plan"
    | .fetch => "Fetch"
    | .merge => "Merge"
    | .persist => "Persist"
    | .fail => "Fail"

/- The moves that the life of an instrument is made of. -/
def rows : List (Transition State Trigger) :=
  [⟨.discovered, .plan, .planning⟩,
    ⟨.planning, .fetch, .fetching⟩,
    ⟨.fetching, .merge, .merging⟩,
    ⟨.merging, .persist, .persisted⟩,
    ⟨.planning, .fail, .failed⟩,
    ⟨.fetching, .fail, .failed⟩,
    ⟨.merging, .fail, .failed⟩]

/- A move that the table does not have. -/
structure Refusal where
  state : State
  trigger : Trigger
deriving DecidableEq, Repr

end Lifecycle

/- A life in one of its states, or stuck at a refused move. -/
abbrev Lifecycle :=
  Except Lifecycle.Refusal
    (StateMachine Lifecycle.State Lifecycle.Trigger)

namespace Lifecycle

/- The life of an instrument before anything is done. -/
def start : Lifecycle :=
  .ok { state := .discovered, rows := rows }

/- A life after a trigger. -/
def fire
    (life : Lifecycle)
    (t : Trigger) : Lifecycle :=
  match life with
  | .error r => .error r
  | .ok m =>
      match m.fire t with
      | some m => .ok m
      | none => .error { state := m.state, trigger := t }

/- The state of a life; one that is stuck has failed. -/
def state : Lifecycle → State
  | .ok m => m.state
  | .error _ => .failed

end Lifecycle

------------------------------------------------------------
-- Reports
------------------------------------------------------------

/- A window whose trades are missing, and why. -/
structure Gap where
  instrument : String
  window : Window
  fault : Fault
deriving DecidableEq, Repr

/- A result that was kept. -/
structure Stored where
  stem : String
  window : Option Window
  trades : Nat
deriving DecidableEq, Repr

/- Why an instrument failed. -/
inductive Failure where
  | planning (f : Fault)
  | sink (reason : String)
  | allWindows (count : Nat)
  | refused (r : Lifecycle.Refusal)
deriving DecidableEq, Repr

/- What a person reads about a failure. -/
def Failure.message : Failure → String
  | .planning f => "planning failed: " ++ f.message
  | .sink reason => "sink failed: " ++ reason
  | .allWindows n => s!"all {n} windows failed"
  | .refused r =>
      StateMachine.refusalMessage (Named.name r.state)
        (Named.name r.trigger)

/- What came of an instrument. -/
structure Report where
  instrument : Instrument
  state : Lifecycle.State
  windowsPlanned : Nat
  windowsOk : Nat
  requests : Nat
  trades : Nat
  stored : List Stored
  gaps : List Gap
  failure : Option Failure
deriving DecidableEq, Repr

/- An instrument that was kept with trades missing. -/
def Report.Partial (r : Report) : Prop :=
  r.state = .persisted ∧ r.gaps ≠ []

instance (r : Report) : Decidable r.Partial := by
  unfold Report.Partial
  infer_instance

------------------------------------------------------------
-- Windows and their outcomes
------------------------------------------------------------

/-
  What came of a window: the haul of its walk, and whether it
  was kept if it was to be kept by itself.
-/
structure Outcome where
  window : Window
  walked : Except Fault Haul
  kept : Option (Except String Stored)

/- The total of some counts. -/
def total : List Nat → Nat
  | [] => 0
  | n :: rest => n + total rest

namespace Outcome

/- The hauls of the windows whose walks came to their end. -/
def hauls (outcomes : List Outcome) : List Haul :=
  outcomes.filterMap fun o => o.walked.toOption

/- The windows whose walks failed. -/
def gaps
    (instrument : String)
    (outcomes : List Outcome) : List Gap :=
  outcomes.filterMap fun o =>
    match o.walked with
    | .ok _ => none
    | .error f =>
        some { instrument := instrument, window := o.window, fault := f }

/- What was kept of single windows. -/
def stored (outcomes : List Outcome) : List Stored :=
  outcomes.filterMap fun o => o.kept.bind Except.toOption

/- Why something of a single window could not be kept. -/
def sinkReason? (outcomes : List Outcome) : Option String :=
  outcomes.findSome? fun o =>
    match o.kept with
    | some (.error reason) => some reason
    | _ => none

end Outcome

end TradeTape
