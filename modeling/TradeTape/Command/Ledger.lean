import TradeTape.Backfill.Settings
import TradeTape.Backfill.Summary
import TradeTape.Command.Market
import TradeTape.Store.Catalog
import TradeTape.Store.Consolidation

/-
  Ledgers: what a command has done so far.

  Key definitions include:
    * `CommandFault`
    * `Ledger`
    * `Ledger.loadCatalog`
    * `Ledger.consolidate`
    * `Ledger.forAll`
-/

namespace TradeTape

------------------------------------------------------------
-- Faults
------------------------------------------------------------

/- Why a command did not end well. -/
inductive CommandFault where
  | client (f : Deribit.ApiFault)
  | listing (p : Partition) (f : Deribit.ApiFault)
  | store (f : StoreFault)
  | settings (p : Settings.Problem)
  | crashed
  | nothingFound
  | failed (failures instruments : Nat)
deriving DecidableEq, Repr

/-
  What a person reads about a fault.  A crash is not reported
  by the program itself.
-/
def CommandFault.message : CommandFault → String
  | .client f => f.message
  | .listing p f =>
      "Failed to request " ++ p.text ++ " instruments: " ++ f.message
  | .store f => f.message
  | .settings p => p.message
  | .crashed => ""
  | .nothingFound => "No instruments found"
  | .failed failures instruments =>
      s!"{failures} of {instruments} instruments failed"

/- What the program says of a fault, with its cause. -/
def CommandFault.report
    (causes : StoreFault → String) : CommandFault → String
  | .store f => f.message ++ ": " ++ causes f
  | f => f.message

------------------------------------------------------------
-- Ledgers
------------------------------------------------------------

/-
  What a command has done: the state of the market, the files
  it left, the lines it printed, the instruments it found and
  the reports of its runs.
-/
structure Ledger (σ : Type) where
  market : σ
  files : FileTree
  lines : List String
  instruments : List Instrument
  reports : List Report

namespace Ledger

variable {σ : Type}

/- Nothing done yet. -/
def start
    (market : σ)
    (files : FileTree) : Ledger σ :=
  { market := market
    files := files
    lines := []
    instruments := []
    reports := [] }

/- Prints a line. -/
def print
    (l : Ledger σ)
    (line : String) : Ledger σ :=
  { l with lines := l.lines ++ [line] }

/- The totals over all reports. -/
def summary (l : Ledger σ) : Summary :=
  Summary.ofReports l.reports

------------------------------------------------------------
-- Steps
------------------------------------------------------------

/- Something that a command does, and how it ends. -/
abbrev Step (σ : Type) :=
  Ledger σ → Except CommandFault Unit × Ledger σ

/- Does the same for each item, until one fails. -/
def forAll
    {α : Type}
    (act : α → Step σ) : List α → Step σ
  | [], l => (.ok (), l)
  | a :: rest, l =>
      match act a l with
      | (.error f, l) => (.error f, l)
      | (.ok _, l) => forAll act rest l

/- The partitions of a selection, in the order of work. -/
def partitions (s : Selection) : List Partition :=
  s.scope.kinds.kinds.flatMap fun kind =>
    s.scope.expiry.states.map fun expired =>
      { currency := Named.name s.currency
        kind := kind
        expired := expired }

/-
  Asks for the instruments of a partition and writes their
  catalog.  A row that is no instrument is left out.
-/
def loadCatalog
    (l : Ledger σ)
    (m : Market σ)
    (base : Path)
    (p : Partition) :
    Except CommandFault (List Instrument) × Ledger σ :=
  let (listed, market) := m.listing p.kind p.expired l.market
  let l := { l with market := market }
  match listed with
  | .error f => (.error (.listing p f), l)
  | .ok listed =>
      let (written, files) :=
        Catalog.write base p
          (listed.map Deribit.ListedInstrument.row) l.files
      let l := { l with files := files }
      match written with
      | .error f => (.error (.store f), l)
      | .ok _ =>
          let instruments :=
            listed.filterMap fun i => i.instrument?.toOption
          (.ok instruments,
            { l with instruments := l.instruments ++ instruments })

/- Consolidates a directory and prints what came of it. -/
def consolidate (directory : Path) : Step σ :=
  fun l =>
    let (result, files) := Consolidation.run directory l.files
    let l := { l with files := files }
    match result with
    | .error f => (.error (.store f), l)
    | .ok none => (.ok (), l.print "No CSV files to consolidate")
    | .ok (some c) =>
        (.ok (),
          l.print
            (s!"Consolidated {c.rows} rows from {c.files} files into "
              ++ c.path.text))

end Ledger

end TradeTape
