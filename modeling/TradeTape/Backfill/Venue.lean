import TradeTape.Backfill.Walk
import TradeTape.Time.Timer

/-
  Venues: what answers the questions of a run.

  A venue answers after a number of milliseconds and may
  remember what it was asked.  Two kinds are given here: one
  that serves tapes from memory and fails where it is told
  to, and one that recites a script.

  Key definitions include:
    * `Venue`
    * `Trade.synthetic`
    * `TapeVenue`
    * `TapeVenue.toVenue`
    * `ScriptVenue`
-/

namespace TradeTape

------------------------------------------------------------
-- Venues
------------------------------------------------------------

/- An answer and the milliseconds it takes. -/
structure Reply (α : Type) where
  delay : Nat
  result : Except Fault α

/- What answers queries for pages and for the latest number. -/
structure Venue (σ : Type) where
  page : σ → PageQuery → Reply (List Trade) × σ
  latest : σ → String → Int → Reply (Option Int) × σ

/- A question to a venue, as a log keeps it. -/
inductive Call where
  | page (q : PageQuery)
  | latest (instrument : String) (endMs : Int)
deriving DecidableEq, Repr

/- The walk over a window against a venue. -/
def Venue.walk
    {σ : Type}
    (v : Venue σ)
    (s : σ)
    (w : Walk) : Except Fault Haul × List PageQuery × σ :=
  w.run
    (fun s q =>
      let (reply, s) := v.page s q
      (reply.result, s))
    s

------------------------------------------------------------
-- Synthetic trades
------------------------------------------------------------

/- A trade that follows from its number and its instant. -/
def Trade.synthetic
    (instrument : String)
    (seq timestamp : Int) : Trade :=
  { seq := seq
    id := s!"T-{seq}"
    timestamp := timestamp
    tickDirection := seq.tmod 4
    price := Decimal.ofScaled (600000 + seq.tmod 1000) 1
    markPrice := Decimal.ofScaled 600000 1
    iv := none
    instrumentName := instrument
    indexPrice := Decimal.ofScaled 599900 1
    direction := if seq.tmod 2 = 0 then .buy else .sell
    contracts := some (Decimal.ofInt 10)
    amount := Decimal.ofInt 10
    blockLegCount := none
    blockId := none
    blockRfqId := none
    comboId := none
    comboTradeId := none
    liquidation := none }

------------------------------------------------------------
-- Venues that serve tapes
------------------------------------------------------------

/- A range of instants at whose queries a venue fails. -/
structure FailingRange where
  instrument : String
  range : TimeWindow
  fault : Fault
deriving Repr

/-
  How long the calls of a venue take.  The number of different
  delays, one more than the spread, is a word.
-/
structure Latency where
  baseMs : Nat
  spreadMs : Nat
  spread_lt : spreadMs < Word.uint64Max
deriving DecidableEq, Repr

/- A latency, unless its spread is too wide. -/
def Latency.make?
    (baseMs spreadMs : Nat) : Option Latency :=
  if h : spreadMs < Word.uint64Max then
    some { baseMs := baseMs, spreadMs := spreadMs, spread_lt := h }
  else
    none

/-
  A venue with tapes, failures and a latency, and the timer
  that delays its answers.
-/
structure TapeVenue where
  tapes : List (String × List Trade)
  failingInstruments : List (String × Fault)
  failingRanges : List FailingRange
  latency : Option Latency
  timer : Timer := Timer.standard
deriving Repr

namespace TapeVenue

/- The tape of an instrument, in order. -/
def tape
    (v : TapeVenue)
    (instrument : String) : List Trade :=
  Merge.sortTrades ((v.tapes.lookup instrument).getD [])

/- The milliseconds that a call takes, by its number. -/
def delay (v : TapeVenue) (n : Nat) : Nat :=
  match v.latency with
  | none => 0
  | some l =>
      v.timer.waitMs
        (if l.spreadMs = 0 then l.baseMs
        else l.baseMs + n * 7919 % UInt64.size % (l.spreadMs + 1))

/- The fault of a query that starts in a failing range. -/
def rangeFault?
    (v : TapeVenue)
    (instrument : String)
    (startMs : Int) : Option Fault :=
  (v.failingRanges.find? fun r =>
    r.instrument = instrument ∧ r.range.Covers startMs).map
    FailingRange.fault

/-
  The trades that answer a query: the newest of a window of
  instants, the first of a window of trade numbers.
-/
def select
    (tape : List Trade)
    (window : Window)
    (count : Nat) : List Trade :=
  let matching := tape.filter fun t => window.Holds t
  match window with
  | .time _ => matching.drop (matching.length - count)
  | .seq _ =>
      (matching.mergeSort fun t u => t.seq ≤ u.seq).take count

/- The answer to a query for a page. -/
def page
    (v : TapeVenue)
    (q : PageQuery) : Except Fault (List Trade) :=
  let served := select (v.tape q.instrument) q.window q.count
  match v.failingInstruments.lookup q.instrument, q.window with
  | some f, _ => .error f
  | none, .time w =>
      match v.rangeFault? q.instrument w.startMs with
      | some f => .error f
      | none => .ok served
  | none, .seq _ => .ok served

/- The greatest number at or before an instant. -/
def latest
    (v : TapeVenue)
    (instrument : String)
    (endMs : Int) : Except Fault (Option Int) :=
  match v.failingInstruments.lookup instrument with
  | some f => .error f
  | none =>
      .ok
        (greatest?
          (((v.tape instrument).filter fun t =>
            t.timestamp ≤ endMs).map Trade.seq))

/- The venue, which counts its calls. -/
def toVenue (v : TapeVenue) : Venue Nat :=
  { page := fun n q =>
      ({ delay := v.delay n, result := v.page q }, n + 1)
    latest := fun n instrument endMs =>
      ({ delay := v.delay n, result := v.latest instrument endMs },
        n + 1) }

end TapeVenue

------------------------------------------------------------
-- Venues that recite a script
------------------------------------------------------------

/- Answers that are given in turn, whatever the question. -/
structure ScriptVenue where
  pages : List (Except Fault (List Trade))
  latest : List (Except Fault (Option Int))

namespace ScriptVenue

/- The venue whose state is the script that is left. -/
def venue : Venue ScriptVenue :=
  { page := fun s _ =>
      match s.pages with
      | [] => ({ delay := 0, result := .ok [] }, s)
      | r :: rest =>
          ({ delay := 0, result := r }, { s with pages := rest })
    latest := fun s _ _ =>
      match s.latest with
      | [] => ({ delay := 0, result := .ok none }, s)
      | r :: rest =>
          ({ delay := 0, result := r }, { s with latest := rest }) }

end ScriptVenue

end TradeTape
