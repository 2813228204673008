import TradeTape.Backfill.Sink
import TradeTape.Store.Partition
import TradeTape.Store.TradeFile

/-
  Folders of files with trades: one file per result.

  Key definitions include:
    * `FileTree.Causes`
    * `TradeFolder.pathFor`
    * `TradeFolder.sink`
-/

namespace TradeTape

/-
  What the system says about a step that fails in a tree.
-/
abbrev FileTree.Causes := FileTree → StoreFault → String

/- The directory of a partition, ready for files. -/
structure TradeFolder where
  directory : Path
deriving DecidableEq, Repr

namespace TradeFolder

/- The file of a result. -/
def pathFor
    (f : TradeFolder)
    (r : Result) : Path :=
  f.directory.join (r.fileStem ++ ".csv")

/- Writes the file of a result. -/
def store
    (f : TradeFolder)
    (t : FileTree)
    (r : Result) : Except StoreFault Unit × FileTree :=
  TradeFile.write (f.pathFor r) r.trades t

/-
  The sink that keeps results in a tree of files.  A result is
  turned down with the step that failed, and its cause.
-/
def sink
    (f : TradeFolder)
    (causes : FileTree.Causes) : Sink FileTree :=
  { store := fun t r =>
      let (answer, after) := f.store t r
      let reason := fun (fault : StoreFault) =>
        fault.message ++ ": " ++ causes t fault
      (answer.mapError reason, after) }

/- The folder of a partition, which is created. -/
def create
    (base : Path)
    (p : Partition)
    (t : FileTree) : Except StoreFault TradeFolder × FileTree :=
  let (made, t) := p.prepare base t
  (made.map fun directory => { directory := directory }, t)

end TradeFolder

end TradeTape
