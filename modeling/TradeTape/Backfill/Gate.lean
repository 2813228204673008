import TradeTape.Backfill.Fault
import TradeTape.Number.Word

/-
  The gate that bounds how many calls are in flight.

  A gate has a fixed number of permits.  A request moves
  through it in small moves, so that the moves of several
  requests may be interleaved in any way: it asks, is granted
  a permit, takes it, is counted, raises the number in flight,
  records that number, and leaves.  It can be dropped while it
  waits, also when a permit is already set aside for it, and
  while its call is in flight, but not in between.

  Key definitions include:
    * `Gate`
    * `Gate.Move`
    * `Gate.move?`
    * `Gate.ask`
    * `Gate.enter`
    * `Gate.leave`
    * `Gate.close`
-/

namespace TradeTape

/- The fault of a request at a closed gate. -/
def Fault.gateClosed : Fault :=
  .canceled "scheduler closed"

namespace Gate

------------------------------------------------------------
-- Requests
------------------------------------------------------------

/-
  How far a request has come.  One that has raised the number
  in flight remembers to how many.
-/
inductive Phase where
  | waiting
  | granted
  | refused
  | holding
  | counted
  | raised (level : Nat)
  | inside
  | leaving
deriving DecidableEq, Repr

namespace Phase

/- The phases in which a request waits for its permit. -/
def InLine : Phase → Prop
  | .waiting | .granted => True
  | _ => False

/- The phases in which a permit is out for a request. -/
def HasPermit : Phase → Prop
  | .waiting | .refused => False
  | _ => True

/- The phases in which a request is in flight. -/
def InFlight : Phase → Prop
  | .raised _ | .inside => True
  | _ => False

instance (p : Phase) : Decidable p.InLine := by
  cases p <;> unfold InLine <;> infer_instance

instance (p : Phase) : Decidable p.HasPermit := by
  cases p <;> unfold HasPermit <;> infer_instance

instance (p : Phase) : Decidable p.InFlight := by
  cases p <;> unfold InFlight <;> infer_instance

end Phase

/- A request by its number. -/
structure Request where
  number : Nat
  phase : Phase
deriving DecidableEq, Repr

/- What a request, or the keeper of the gate, does next. -/
inductive Move where
  | ask (number : Nat)
  | grant (number : Nat)
  | acquire (number : Nat)
  | count (number : Nat)
  | raise (number : Nat)
  | record (number : Nat)
  | exit (number : Nat)
  | release (number : Nat)
  | withdraw (number : Nat)
  | turnAway (number : Nat)
  | close
deriving DecidableEq, Repr

namespace Move

/- The request that makes a move. -/
def number? : Move → Option Nat
  | .ask n | .grant n | .acquire n | .count n | .raise n
  | .record n | .exit n | .release n | .withdraw n
  | .turnAway n => some n
  | .close => none

/- The fault with which a request ends by a move. -/
def fault? : Move → Option Fault
  | .turnAway _ => some Fault.gateClosed
  | _ => none

end Move

end Gate

------------------------------------------------------------
-- The gate
------------------------------------------------------------

/-
  The permits that are left, the requests in the order in
  which they asked, and what has been counted so far.
-/
structure Gate where
  ceiling : Nat
  available : Nat
  closed : Bool
  requests : List Gate.Request
  inFlight : Nat
  peak : Nat
  admitted : Nat
deriving DecidableEq, Repr

namespace Gate

/-
  The greatest number of permits that a gate can have: three
  bits of a word are not for them.
-/
def maxPermits : Nat :=
  Word.uint64Max / 8

/- A gate that nobody has asked yet. -/
def make (ceiling : Nat) : Gate :=
  { ceiling := ceiling
    available := ceiling
    closed := false
    requests := []
    inFlight := 0
    peak := 0
    admitted := 0 }

/- The phase of a request that is at the gate. -/
def phase?
    (g : Gate)
    (number : Nat) : Option Phase :=
  (g.requests.find? fun r => r.number = number).map
    Request.phase

/- The gate with a request in another phase. -/
def setPhase
    (g : Gate)
    (number : Nat)
    (phase : Phase) : Gate :=
  { g with
    requests := g.requests.map fun r =>
      if r.number = number then { r with phase := phase } else r }

/- The gate without a request. -/
def remove
    (g : Gate)
    (number : Nat) : Gate :=
  { g with
    requests := g.requests.filter fun r => r.number ≠ number }

/- The request that is served next. -/
def firstWaiting? (g : Gate) : Option Nat :=
  (g.requests.find? fun r => r.phase = .waiting).map
    Request.number

/- The number of permits that are out. -/
def held (g : Gate) : Nat :=
  g.requests.countP fun r => r.phase.HasPermit

/- The number of requests in flight. -/
def flying (g : Gate) : Nat :=
  g.requests.countP fun r => r.phase.InFlight

------------------------------------------------------------
-- Small moves
------------------------------------------------------------

/- A number that asks for a permit for the first time. -/
def asking
    (g : Gate)
    (number : Nat) : Gate :=
  { g with
    requests :=
      g.requests
        ++ [{ number := number
              phase := if g.closed then .refused else .waiting }] }

/-
  The gate after it is closed: who is still in line is
  refused, and permits that were set aside come back.
-/
def closing (g : Gate) : Gate :=
  { g with
    closed := true
    available :=
      g.available + g.requests.countP fun r => r.phase = .granted
    requests := g.requests.map fun r =>
      if r.phase.InLine then { r with phase := .refused } else r }

/-
  The gate after a move, or nothing where the move is not
  possible.  A request that is dropped gives back what it
  holds.
-/
def move? (g : Gate) : Move → Option Gate
  | .ask n =>
      if g.phase? n = none then some (g.asking n) else none
  | .grant n =>
      if g.phase? n = some .waiting ∧ 0 < g.available
          ∧ g.closed = false then
        some
          { g.setPhase n .granted with available := g.available - 1 }
      else
        none
  | .acquire n =>
      if g.phase? n = some .granted then
        some (g.setPhase n .holding)
      else
        none
  | .count n =>
      if g.phase? n = some .holding then
        some { g.setPhase n .counted with admitted := g.admitted + 1 }
      else
        none
  | .raise n =>
      if g.phase? n = some .counted then
        some
          { g.setPhase n (.raised (g.inFlight + 1)) with
            inFlight := g.inFlight + 1 }
      else
        none
  | .record n =>
      match g.phase? n with
      | some (.raised level) =>
          some
            { g.setPhase n .inside with peak := max g.peak level }
      | _ => none
  | .exit n =>
      if g.phase? n = some .inside then
        some { g.setPhase n .leaving with inFlight := g.inFlight - 1 }
      else
        none
  | .release n =>
      if g.phase? n = some .leaving then
        some { g.remove n with available := g.available + 1 }
      else
        none
  | .withdraw n =>
      match g.phase? n with
      | some .waiting | some .refused => some (g.remove n)
      | some .granted =>
          some { g.remove n with available := g.available + 1 }
      | _ => none
  | .turnAway n =>
      if g.phase? n = some .refused then some (g.remove n) else none
  | .close => some g.closing

/- The gate after a move, which is skipped if impossible. -/
def apply
    (g : Gate)
    (m : Move) : Gate :=
  (g.move? m).getD g

/- The gate after several moves. -/
def applyAll
    (g : Gate)
    (moves : List Move) : Gate :=
  moves.foldl apply g

------------------------------------------------------------
-- Whole passages
------------------------------------------------------------

/- Sets a permit aside for who has waited longest. -/
def grant (g : Gate) : Gate :=
  match g.firstWaiting? with
  | some n => g.apply (.grant n)
  | none => g

/- A request asks, and is granted a permit if one is left. -/
def ask
    (g : Gate)
    (number : Nat) : Gate :=
  (g.apply (.ask number)).grant

/- A request takes its permit, is counted and goes in. -/
def enter
    (g : Gate)
    (number : Nat) : Gate :=
  g.applyAll
    [.acquire number, .count number, .raise number, .record number]

/- The moves by which a request goes away from a phase. -/
def farewell (number : Nat) : Phase → List Move
  | .waiting | .granted => [.withdraw number]
  | .refused => [.turnAway number]
  | .holding =>
      [.count number, .raise number, .record number, .exit number,
        .release number]
  | .counted =>
      [.raise number, .record number, .exit number, .release number]
  | .raised _ => [.record number, .exit number, .release number]
  | .inside => [.exit number, .release number]
  | .leaving => [.release number]

/-
  A request goes away, wherever it stands, and its permit is
  granted to the next one.
-/
def leave
    (g : Gate)
    (number : Nat) : Gate :=
  (g.applyAll
    ((g.phase? number).elim [] (farewell number))).grant

/- The gate after it is closed. -/
def close (g : Gate) : Gate :=
  g.apply .close

end Gate

end TradeTape
