import TradeTape.Store.Fault
import TradeTape.Store.FileTree
import TradeTape.Trade.Instrument

/-
  Partitions: where the results for a currency, a kind of
  instrument and a state of expiry are kept.

  Key definitions include:
    * `Partition`
    * `Partition.directory`
    * `Partition.catalogPath`
    * `Partition.prepare`
-/

namespace TradeTape

/- One slice of what is kept. -/
structure Partition where
  currency : String
  kind : InstrumentKind
  expired : Bool
deriving DecidableEq, Repr

namespace Partition

------------------------------------------------------------
-- Names
------------------------------------------------------------

/- The name of a state of expiry. -/
def state (p : Partition) : String :=
  if p.expired then "expired" else "active"

/- A partition as it is shown. -/
def text (p : Partition) : String :=
  p.currency ++ "/" ++ Named.name p.kind ++ "/" ++ p.state

/- The directory of a kind of instrument. -/
def kindDirectory
    (p : Partition)
    (base : Path) : Path :=
  (base.join p.currency).join (Named.name p.kind)

/- The directory of the files with trades. -/
def directory
    (p : Partition)
    (base : Path) : Path :=
  (p.kindDirectory base).join p.state

/- The file with the list of instruments. -/
def catalogPath
    (p : Partition)
    (base : Path) : Path :=
  (p.kindDirectory base).join
    (p.currency ++ "-" ++ p.state ++ "-" ++ Named.name p.kind
      ++ "-list.csv")

------------------------------------------------------------
-- Directories
------------------------------------------------------------

/- Creates the directory of the files with trades. -/
def prepare
    (p : Partition)
    (base : Path)
    (t : FileTree) : Except StoreFault Path × FileTree :=
  let path := p.directory base
  let (made, t) := t.createDirectories path
  (if made then .ok path else .error (.createDirectory path), t)

end Partition

end TradeTape
