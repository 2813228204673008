import TradeTape.Command.Options

/-
  The settings of a run that the rules for fetching ask for.

  Limits that are not given are derived from the calls that
  may be in flight.

  Key definitions include:
    * `FetchRules.windowLimit`
    * `FetchRules.instrumentLimit`
    * `FetchRules.settings`
-/

namespace TradeTape

namespace FetchRules

/- The milliseconds of an hour. -/
def hourMs : Int := 3600000

/- The windows of an instrument that are fetched at once. -/
def windowLimit (r : FetchRules) : Nat :=
  max 1 (r.maxWindows.getD (min 10 r.maxInFlight))

/- The instruments that are fetched at once. -/
def instrumentLimit (r : FetchRules) : Nat :=
  r.maxInstruments.getD (max 1 (r.maxInFlight / r.windowLimit))

/- The milliseconds after which a window is given up. -/
def taskTimeoutMs (r : FetchRules) : Option Nat :=
  match r.taskTimeoutSecs with
  | some secs => some (Word.mulSat secs 1000)
  | none => Settings.standard.taskTimeoutMs

/-
  The settings for a kind of instrument.  Options are fetched
  by instants over their whole range, futures in windows of
  hours.
-/
def settings
    (r : FetchRules)
    (kind : InstrumentKind) : Settings :=
  let shared : Settings :=
    { Settings.standard with
      boundary := r.boundary
      maxInFlight := r.maxInFlight
      maxInstruments := r.instrumentLimit
      maxWindows := r.windowLimit
      pageSize := r.pageSize.getD Settings.standard.pageSize
      taskTimeoutMs := r.taskTimeoutMs }
  match kind with
  | .option => shared
  | .future =>
      { shared with
        pagination := r.pagination
        chunkMs := some ((r.windowHours.getD 1 : Int) * hourMs)
        partitioning :=
          if r.perWindow then .perWindow else .perInstrument }

end FetchRules

end TradeTape
