import TradeTape.Trade.Instrument

/-
  Sinks: where results are kept.

  Key definitions include:
    * `Sink`
    * `Shelf`
    * `Shelf.sink`
-/

namespace TradeTape

/- What keeps results, or gives the reason why it cannot. -/
structure Sink (κ : Type) where
  store : κ → Result → Except String Unit × κ

------------------------------------------------------------
-- Results in memory
------------------------------------------------------------

/-
  Results in the order in which they came, and the start of
  the names that are turned down.
-/
structure Shelf where
  rejected : Option String
  results : List Result
deriving DecidableEq, Repr

namespace Shelf

/- A shelf without results. -/
def make (rejected : Option String) : Shelf :=
  { rejected := rejected, results := [] }

/- Whether a shelf turns a name down. -/
def Rejects
    (s : Shelf)
    (stem : String) : Prop :=
  s.rejected.any (fun p => p.toList.isPrefixOf stem.toList) = true

instance (s : Shelf) (stem : String) : Decidable (s.Rejects stem) := by
  unfold Rejects
  infer_instance

/- Keeps a result. -/
def store
    (s : Shelf)
    (r : Result) : Except String Unit × Shelf :=
  if s.Rejects r.fileStem then
    (.error s!"rejected {r.fileStem}", s)
  else
    (.ok (), { s with results := s.results ++ [r] })

/- The results in the order of their names. -/
def sorted (s : Shelf) : List Result :=
  s.results.mergeSort fun a b => !(decide (b.fileStem < a.fileStem))

/- The sink whose state is a shelf. -/
def sink : Sink Shelf :=
  { store := store }

end Shelf

end TradeTape
