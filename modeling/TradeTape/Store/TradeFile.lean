import TradeTape.Json.Reader
import TradeTape.Store.Fault
import TradeTape.Store.FileTree
import TradeTape.Text.Csv
import TradeTape.Trade.Record

/-
  Files with trades: a header and one record per trade.

  A file is written under another name first and then moved
  to its own, so that it is there as a whole or not at all.

  Key definitions include:
    * `TradeFile.cells`
    * `TradeFile.text`
    * `TradeFile.write`
    * `TradeFile.parse?`
    * `TradeFile.read`
-/

namespace TradeTape

namespace TradeFile

------------------------------------------------------------
-- Writing
------------------------------------------------------------

/- The text of an integer. -/
def intText (n : Int) : String :=
  String.ofList (Digits.ofInt n)

/- The cell of a value that may be missing. -/
def optionalText
    {α : Type}
    (write : α → String) : Option α → String
  | some a => write a
  | none => ""

/- The cells of a trade, one per column. -/
def cells (t : Trade) : List String :=
  [intText t.seq, t.id, intText t.timestamp,
    intText t.tickDirection, t.price.text, t.markPrice.text,
    optionalText Decimal.text t.iv, t.instrumentName,
    t.indexPrice.text, Named.name t.direction,
    optionalText Decimal.text t.contracts, t.amount.text,
    optionalText (fun (n : Nat) => intText n) t.blockLegCount,
    optionalText id t.blockId, optionalText intText t.blockRfqId,
    optionalText id t.comboId, optionalText intText t.comboTradeId,
    optionalText id t.liquidation]

/- The text of a file with trades. -/
def text (ts : List Trade) : String :=
  Csv.text (Trade.columns :: ts.map cells)

/- What the name of a file ends in while it is written. -/
def draftSuffix : String := ".tmp"

/-
  Writes a file with trades, in place of the one that was
  there before.
-/
def write
    (p : Path)
    (ts : List Trade)
    (t : FileTree) : Except StoreFault Unit × FileTree :=
  let draft := p.withSuffix draftSuffix
  match t.writeFile? draft (.text (text ts)) with
  | none => (.error (.create draft), t.removeFile draft)
  | some written =>
      match written.rename? draft p with
      | none => (.error (.move draft p), written)
      | some moved => (.ok (), moved)

------------------------------------------------------------
-- Cells
------------------------------------------------------------

/- The number of digits of base 16. -/
def hexNat? (cs : List Char) : Option Nat :=
  if cs = [] then
    none
  else
    cs.foldlM
      (fun n c =>
        if c.toNat < 128 then
          (Json.hexValue? c.toNat.toUInt8).map (n * 16 + ·)
        else
          none)
      0

/- A natural number with an optional plus sign. -/
def plusNat?
    (read : List Char → Option Nat) : List Char → Option Nat
  | '+' :: cs => read cs
  | cs => read cs

/- An integer with an optional sign. -/
def signedInt?
    (read : List Char → Option Nat) : List Char → Option Int
  | '-' :: cs => (read cs).map fun n => -(n : Int)
  | cs => (plusNat? read cs).map Int.ofNat

/- The digits of a number and how they are read. -/
def digits :
    List Char → (List Char → Option Nat) × List Char
  | '0' :: 'x' :: cs => (hexNat?, cs)
  | cs => (Digits.nat?, cs)

/- An integer between two bounds, in base 10 or 16. -/
def intIn?
    (low high : Int)
    (cs : List Char) : Option Int := do
  let (read, cs) := digits cs
  let n ← signedInt? read cs
  if low ≤ n ∧ n ≤ high then some n else none

/- A natural number up to a bound, in base 10 or 16. -/
def natTo?
    (high : Nat)
    (cs : List Char) : Option Nat := do
  let (read, cs) := digits cs
  let n ← plusNat? read cs
  if n ≤ high then some n else none

/-
  A decimal.  An integer is exact within the words of 64
  bits and refused beyond them; a number with a point or an
  exponent is rounded to a binary one first.
-/
def decimal? (cs : List Char) : Option Decimal :=
  match Digits.int? cs with
  | some n =>
      if Word.int64Min ≤ n ∧ n ≤ Word.uint64Max then
        some (Decimal.ofInt n)
      else
        none
  | none =>
      match Binary64.read? cs with
      | some x => Decimal.ofBinary? x
      | none => Decimal.readChars? cs

------------------------------------------------------------
-- Records
------------------------------------------------------------

/- The cells of a record under a column. -/
def cellsUnder
    (column : String)
    (header record : List Csv.Field) : List Csv.Field :=
  (header.zip record).filterMap fun c =>
    if c.1 = column.toList then some c.2 else none

/- The value of a column that occurs once. -/
def required
    {α : Type}
    (read : Csv.Field → Option α) : List Csv.Field → Option α
  | [cs] => read cs
  | _ => none

/- The value of a column that occurs at most once. -/
def optional
    {α : Type}
    (read : Csv.Field → Option α) :
    List Csv.Field → Option (Option α)
  | [] => some none
  | [cs] => if cs = [] then some none else (read cs).map some
  | _ => none

/- The trade that a record under a header stands for. -/
def trade?
    (header record : List Csv.Field) : Option Trade := do
  let under := fun c => cellsUnder c header record
  let int64? := intIn? Word.int64Min Word.int64Max
  let text? := fun (cs : Csv.Field) => some (String.ofList cs)
  let seq ← required int64? (under "trade_seq")
  let id ← required text? (under "trade_id")
  let timestamp ← required int64? (under "timestamp")
  let tickDirection ←
    required (intIn? (-128) 127) (under "tick_direction")
  let price ← required decimal? (under "price")
  let markPrice ← required decimal? (under "mark_price")
  let iv ← optional decimal? (under "iv")
  let instrumentName ← required text? (under "instrument_name")
  let indexPrice ← required decimal? (under "index_price")
  let direction ←
    required (fun cs => Named.ofName? (String.ofList cs))
      (under "direction")
  let contracts ← optional decimal? (under "contracts")
  let amount ← required decimal? (under "amount")
  let legCount ←
    optional (natTo? Word.uint32Max) (under "block_trade_leg_count")
  let blockId ← optional text? (under "block_trade_id")
  let rfqId ← optional int64? (under "block_rfq_id")
  let comboId ← optional text? (under "combo_id")
  let comboTradeId ← optional int64? (under "combo_trade_id")
  let liquidation ← optional text? (under "liquidation")
  some
    { seq := seq
      id := id
      timestamp := timestamp
      tickDirection := tickDirection
      price := price
      markPrice := markPrice
      iv := iv
      instrumentName := instrumentName
      indexPrice := indexPrice
      direction := direction
      contracts := contracts
      amount := amount
      blockLegCount := legCount
      blockId := blockId
      blockRfqId := rfqId
      comboId := comboId
      comboTradeId := comboTradeId
      liquidation := liquidation }

------------------------------------------------------------
-- Reading
------------------------------------------------------------

/-
  The trades of a text: all records have as many fields as
  the header.
-/
def parse? (text : String) : Option (List Trade) :=
  match Csv.parse text.toList with
  | [] => some []
  | header :: records =>
      records.mapM fun r =>
        if r.length = header.length then trade? header r else none

/- The trades of a file. -/
def read
    (p : Path)
    (t : FileTree) : Except StoreFault (List Trade) :=
  match t.entryAt? p with
  | none => .error (.openFile p)
  | some (.file (.text s)) =>
      match parse? s with
      | some ts => .ok ts
      | none => .error (.invalidRow p)
  | some _ => .error (.invalidRow p)

end TradeFile

end TradeTape
