import TradeTape.Command.Fetch
import TradeTape.Time.Iso8601

/-
  Carrying out the commands.

  Key definitions include:
    * `Ledger.list`
    * `Command.run`
-/

namespace TradeTape

------------------------------------------------------------
-- Listing instruments
------------------------------------------------------------

namespace Ledger

variable {σ : Type}

/- Lists the instruments of a partition. -/
def listPartition
    (m : Market σ)
    (base : Path)
    (p : Partition) : Step σ :=
  fun l =>
    match l.loadCatalog m base p with
    | (.error f, l) => (.error f, l)
    | (.ok instruments, l) =>
        (.ok (),
          l.print
            (s!"{p.text}: {instruments.length} instruments saved to "
              ++ (p.catalogPath base).text))

/- Lists the instruments of a selection. -/
def list
    (m : Market σ)
    (s : Selection) : Step σ :=
  fun l =>
    match forAll (listPartition m s.scope.baseDirectory)
        (partitions s) l with
    | (.error f, l) => (.error f, l)
    | (.ok _, l) =>
        (if l.instruments = [] then .error .nothingFound else .ok (), l)

/- Says up to when active instruments are fetched. -/
def announce
    (s : Selection)
    (now : Int)
    (l : Ledger σ) : Ledger σ :=
  if false ∈ s.scope.expiry.states then
    l.print
      ("Active instruments are backfilled up to "
        ++ Iso8601.format now)
  else
    l

end Ledger

------------------------------------------------------------
-- Commands
------------------------------------------------------------

/-
  Carries out a command over a wire at an instant, with what
  the system says about files, and the address that the
  environment names.
-/
def Command.run
    {σ : Type}
    (c : Command)
    (w : Deribit.Wire σ)
    (causes : FileTree.Causes)
    (environment : Option String)
    (now : Int) : Ledger.Step σ :=
  fun l =>
    match c with
    | .consolidate directory => Ledger.consolidate directory l
    | .instruments s =>
        match s.scope.client? environment with
        | .error f => (.error (.client f), l)
        | .ok client =>
            Ledger.list (.ofClient client w s.currency) s l
    | .fetch s rules =>
        let l := l.announce s now
        match s.scope.client? environment with
        | .error f => (.error (.client f), l)
        | .ok client =>
            Ledger.fetch
              { market := .ofClient client w s.currency
                selection := s
                rules := rules
                now := now
                timer := w.timer
                causes := causes }
              l

end TradeTape
