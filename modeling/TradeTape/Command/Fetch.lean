import TradeTape.Backfill.Run
import TradeTape.Command.Ledger
import TradeTape.Command.Rules
import TradeTape.Store.TradeFolder

/-
  Fetching the trades of a selection.

  Every partition is fetched in turn: an instrument that
  fails, or a partition without instruments, does not keep
  the others from being fetched.

  Key definitions include:
    * `Ledger.runInstruments`
    * `Ledger.fetchPartition`
    * `Ledger.verdict`
    * `Ledger.fetch`
-/

namespace TradeTape

/-
  What to fetch, from where, by which rules and when, the
  timer of the runs, and what the system says about files
  that it does not write.
-/
structure FetchTask (σ : Type) where
  market : Market σ
  selection : Selection
  rules : FetchRules
  now : Int
  timer : Timer
  causes : FileTree.Causes

namespace Ledger

variable {σ : Type}

------------------------------------------------------------
-- Partitions
------------------------------------------------------------

/- The rules, the venue and the folder of a partition. -/
def officeFor
    (k : FetchTask σ)
    (p : Partition)
    (folder : TradeFolder) : Office σ FileTree :=
  { settings := k.rules.settings p.kind
    reference := if p.expired then none else some k.now
    venue := k.market.venue p.expired
    sink := folder.sink k.causes
    timer := k.timer }

/-
  Fetches the trades of instruments into a folder.  Without a
  gate for the calls the program breaks off.
-/
def runInstruments
    (o : Office σ FileTree)
    (instruments : List Instrument) : Step σ :=
  fun l =>
    match Run.start? o l.market l.files none instruments with
    | none => (.error .crashed, l)
    | some first =>
        let run := first.toEnd o
        (.ok (),
          { l with
            market := run.crew.world.venue
            files := run.kept
            reports := l.reports ++ run.reports })

/- Fetches the instruments that were found in a partition. -/
def fetchInstruments
    (k : FetchTask σ)
    (p : Partition)
    (instruments : List Instrument) : Step σ :=
  fun l =>
    let (folder, files) :=
      TradeFolder.create k.selection.scope.baseDirectory p l.files
    let l := { l with files := files }
    match folder, (k.rules.settings p.kind).problem? with
    | .error f, _ => (.error (.store f), l)
    | .ok _, some problem => (.error (.settings problem), l)
    | .ok folder, none =>
        match runInstruments (officeFor k p folder) instruments l with
        | (.error f, l) => (.error f, l)
        | (.ok _, l) =>
            if k.rules.saveTable then
              consolidate folder.directory l
            else
              (.ok (), l)

/- Fetches a partition, if it has any instrument. -/
def fetchPartition
    (k : FetchTask σ)
    (p : Partition) : Step σ :=
  fun l =>
    match l.loadCatalog k.market k.selection.scope.baseDirectory p with
    | (.error f, l) => (.error f, l)
    | (.ok [], l) => (.ok (), l)
    | (.ok instruments, l) => fetchInstruments k p instruments l

------------------------------------------------------------
-- Selections
------------------------------------------------------------

/- How fetching ends once all partitions were fetched. -/
def verdict (l : Ledger σ) : Except CommandFault Unit :=
  if l.instruments = [] then
    .error .nothingFound
  else if l.summary.Success then
    .ok ()
  else
    .error
      (.failed l.summary.failed.length l.summary.instruments)

/- Fetches all partitions and prints the totals. -/
def fetch (k : FetchTask σ) : Step σ :=
  fun l =>
    match forAll (fetchPartition k) (partitions k.selection) l with
    | (.error f, l) => (.error f, l)
    | (.ok _, l) => (l.verdict, l.print l.summary.text)

end Ledger

end TradeTape
