import TradeTape.Trade.Window

/-
  Cutting a range into windows.

  The windows of a range start at its start, follow each
  other without a gap or an overlap and have one length, the
  last one excepted, which ends with the range.

  Key definitions include:
    * `Plan.pieces`
    * `Plan.timeWindows`
    * `Plan.seqWindows`
-/

namespace TradeTape

namespace Plan

/- The number of pieces of a size that cover a range. -/
def pieceCount (low high size : Int) : Nat :=
  ((high - low) / size).toNat + 1

/- The piece of a range with a number. -/
def piece
    (low high size : Int)
    (i : Nat) : Int × Int :=
  let start := low + i * size
  (start, min (start + size - 1) high)

/- The pieces of a range; a size below one counts as one. -/
def pieces (low high size : Int) : List (Int × Int) :=
  let size := max size 1
  (List.range (pieceCount low high size)).map
    (piece low high size)

/-
  The windows of a range of instants: one for the whole of
  it, or one for each chunk.
-/
def timeWindows
    (chunkMs : Option Int)
    (range : TimeWindow) : List TimeWindow :=
  match chunkMs with
  | none => [range]
  | some chunk =>
      (pieces range.startMs range.endMs chunk).map fun p =>
        { startMs := p.1, endMs := p.2 }

/- The windows of a range of trade numbers. -/
def seqWindows
    (span : Int)
    (range : SeqWindow) : List SeqWindow :=
  (pieces range.startSeq range.endSeq span).map fun p =>
    { startSeq := p.1, endSeq := p.2 }

end Plan

end TradeTape
