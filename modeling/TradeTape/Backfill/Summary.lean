import TradeTape.Backfill.Report
import TradeTape.Text.Table

/-
  Totals over the reports of a run.

  Key definitions include:
    * `Account`
    * `Summary`
    * `Summary.ofReports`
    * `Summary.text`
-/

namespace TradeTape

------------------------------------------------------------
-- Summaries
------------------------------------------------------------

/- What a summary takes from a report. -/
structure Account where
  instrument : String
  state : Lifecycle.State
  windowsPlanned : Nat
  windowsOk : Nat
  requests : Nat
  trades : Nat
  gaps : List Gap
  reason : Option String
deriving DecidableEq, Repr

/- The account of a report. -/
def Report.account (r : Report) : Account :=
  { instrument := r.instrument.name
    state := r.state
    windowsPlanned := r.windowsPlanned
    windowsOk := r.windowsOk
    requests := r.requests
    trades := r.trades
    gaps := r.gaps
    reason := r.failure.map Failure.message }

/- An instrument that was kept with trades missing. -/
def Account.Partial (a : Account) : Prop :=
  a.state = .persisted ∧ a.gaps ≠ []

instance (a : Account) : Decidable a.Partial := by
  unfold Account.Partial
  infer_instance

/- Totals over the accounts of a run. -/
structure Summary where
  instruments : Nat
  persisted : Nat
  incomplete : Nat
  failed : List (String × String)
  windowsPlanned : Nat
  windowsOk : Nat
  trades : Nat
  requests : Nat
  gaps : List Gap
deriving DecidableEq, Repr

namespace Summary

/- The summary of nothing. -/
def empty : Summary :=
  { instruments := 0
    persisted := 0
    incomplete := 0
    failed := []
    windowsPlanned := 0
    windowsOk := 0
    trades := 0
    requests := 0
    gaps := [] }

/- The summary with one more account. -/
def record
    (s : Summary)
    (a : Account) : Summary :=
  let kept := a.state = .persisted
  { instruments := s.instruments + 1
    persisted := s.persisted + (if kept then 1 else 0)
    incomplete := s.incomplete + (if a.Partial then 1 else 0)
    failed :=
      if kept then s.failed
      else s.failed ++ [(a.instrument, a.reason.getD "")]
    windowsPlanned := s.windowsPlanned + a.windowsPlanned
    windowsOk := s.windowsOk + a.windowsOk
    trades := s.trades + a.trades
    requests := s.requests + a.requests
    gaps := s.gaps ++ a.gaps }

/- The summary of some reports. -/
def ofReports (reports : List Report) : Summary :=
  reports.foldl (fun s r => s.record r.account) empty

/- Every instrument was kept. -/
def Success (s : Summary) : Prop :=
  s.failed = []

instance (s : Summary) : Decidable s.Success := by
  unfold Success
  infer_instance

------------------------------------------------------------
-- Text
------------------------------------------------------------

/- The table of the totals. -/
def totals (s : Summary) : String :=
  Table.render
    ["instruments", "persisted", "partial", "failed", "windows",
      "trades", "requests"]
    [[toString s.instruments, toString s.persisted,
      toString s.incomplete, toString s.failed.length,
      s!"{s.windowsOk}/{s.windowsPlanned}", toString s.trades,
      toString s.requests]]

/- The order of gaps by instrument and window text. -/
def gapLe (a b : Gap) : Bool :=
  let (i, v) := (a.instrument, a.window.text)
  let (j, w) := (b.instrument, b.window.text)
  decide (i < j ∨ (i = j ∧ ¬w < v))

/- The table of the gaps. -/
def gapTable (gaps : List Gap) : String :=
  Table.render ["instrument", "window", "error"]
    ((gaps.mergeSort gapLe).map fun g =>
      [g.instrument, g.window.text, g.fault.message])

/- The totals and, if there are any, the gaps. -/
def text (s : Summary) : String :=
  if s.gaps = [] then totals s
  else totals s ++ "\n" ++ gapTable s.gaps

end Summary

end TradeTape
