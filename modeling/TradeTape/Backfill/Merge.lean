import TradeTape.Trade.Window

/-
  Merging pages and windows into one tape.

  Pages of one window may overlap and may hold trades that
  nobody asked for.  What is kept of them is ordered, lies in
  the window and has one trade for each number.

  Key definitions include:
    * `Merge.sortTrades`
    * `Merge.firstOfEachSeq`
    * `Merge.pages`
    * `Merge.windows`
-/

namespace TradeTape

namespace Merge

/-
  Trades in their order; those that share a key stay in the
  order they came in.
-/
def sortTrades (trades : List Trade) : List Trade :=
  trades.mergeSort Trade.le

/- The first trade of each number that is not yet seen. -/
def firstOfEachSeq
    (seen : List Int) : List Trade → List Trade
  | [] => []
  | t :: rest =>
      if t.seq ∈ seen then
        firstOfEachSeq seen rest
      else
        t :: firstOfEachSeq (t.seq :: seen) rest

/- The trades of a window that its pages hold. -/
def pages
    (ps : List (List Trade))
    (w : Window) : List Trade :=
  firstOfEachSeq []
    (sortTrades (ps.flatten.filter fun t => w.Holds t))

/-
  Drops a trade whose number equals that of the trade kept
  just before it.
-/
def dropRepeats (last : Int) : List Trade → List Trade
  | [] => []
  | t :: rest =>
      if t.seq = last then dropRepeats last rest
      else t :: dropRepeats t.seq rest

/- The first of neighbours that share a number. -/
def firstOfNeighbours : List Trade → List Trade
  | [] => []
  | t :: rest => t :: dropRepeats t.seq rest

/- The trades of windows as one tape. -/
def windows (tapes : List (List Trade)) : List Trade :=
  firstOfNeighbours (sortTrades tapes.flatten)

end Merge

end TradeTape
