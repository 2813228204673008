import TradeTape.Json.Decode
import TradeTape.Json.Printer
import TradeTape.Text.Named

/-
  Trades as a venue reports them.

  A trade has a number that grows within its instrument and
  an instant in milliseconds.  Trades are ordered by instant
  and then by number.

  Key definitions include:
    * `TradeDirection`
    * `Trade`
    * `Trade.key`
    * `Trade.Before`
    * `Trade.columns`
    * `Trade.ofDoc?`
-/

namespace TradeTape

------------------------------------------------------------
-- Trades
------------------------------------------------------------

/- The side that crossed the spread. -/
inductive TradeDirection where
  | buy
  | sell
deriving DecidableEq, Repr

instance : Named TradeDirection where
  all := [.buy, .sell]
  name
    | .buy => "buy"
    | .sell => "sell"

/- One executed trade. -/
structure Trade where
  seq : Int
  id : String
  timestamp : Int
  tickDirection : Int
  price : Decimal
  markPrice : Decimal
  iv : Option Decimal
  instrumentName : String
  indexPrice : Decimal
  direction : TradeDirection
  contracts : Option Decimal
  amount : Decimal
  blockLegCount : Option Nat
  blockId : Option String
  blockRfqId : Option Int
  comboId : Option String
  comboTradeId : Option Int
  liquidation : Option String
deriving DecidableEq, Repr

namespace Trade

------------------------------------------------------------
-- Order
------------------------------------------------------------

/- The key by which trades are ordered. -/
def key (t : Trade) : Int × Int :=
  (t.timestamp, t.seq)

/- The order of trades, first by instant, then by number. -/
def Before (t u : Trade) : Prop :=
  t.timestamp < u.timestamp ∨
    (t.timestamp = u.timestamp ∧ t.seq < u.seq)

instance (t u : Trade) : Decidable (Before t u) := by
  unfold Before
  infer_instance

/- Whether a trade may stand before another one. -/
def le (t u : Trade) : Bool :=
  decide (¬Before u t)

/-
  Equality of all fields, where decimals are compared as
  numbers.
-/
def SameValues (t u : Trade) : Prop :=
  let same : Option Decimal → Option Decimal → Bool
    | some d, some e => decide (d.SameValue e)
    | none, none => true
    | _, _ => false
  t.price.SameValue u.price
    ∧ t.markPrice.SameValue u.markPrice
    ∧ t.indexPrice.SameValue u.indexPrice
    ∧ t.amount.SameValue u.amount
    ∧ same t.iv u.iv = true
    ∧ same t.contracts u.contracts = true
    ∧ { t with
        price := u.price
        markPrice := u.markPrice
        indexPrice := u.indexPrice
        amount := u.amount
        iv := u.iv
        contracts := u.contracts } = u

instance (t u : Trade) : Decidable (SameValues t u) := by
  unfold SameValues
  infer_instance

------------------------------------------------------------
-- Columns
------------------------------------------------------------

/- The names of the fields, in order. -/
def columns : List String :=
  ["trade_seq", "trade_id", "timestamp", "tick_direction",
    "price", "mark_price", "iv", "instrument_name",
    "index_price", "direction", "contracts", "amount",
    "block_trade_leg_count", "block_trade_id", "block_rfq_id",
    "combo_id", "combo_trade_id", "liquidation"]

------------------------------------------------------------
-- Documents
------------------------------------------------------------

/- A trade from a document that holds it as a record. -/
def ofDoc? (d : Json.Doc) : Option Trade := do
  let slots ← d.slots? columns
  match slots with
  | [seq, id, timestamp, tickDirection, price, markPrice, iv,
      instrumentName, indexPrice, direction, contracts, amount,
      legCount, blockId, rfqId, comboId, comboTradeId,
      liquidation] => do
      let seq ← seq.required Json.Doc.int64?
      let id ← id.required Json.Doc.text?
      let timestamp ← timestamp.required Json.Doc.int64?
      let tickDirection ←
        tickDirection.required (Json.Doc.intIn? (-128) 127)
      let price ← price.required Json.Doc.decimal?
      let markPrice ← markPrice.required Json.Doc.decimal?
      let iv ← iv.optional Json.Doc.decimal?
      let instrumentName ← instrumentName.required Json.Doc.text?
      let indexPrice ← indexPrice.required Json.Doc.decimal?
      let direction ← direction.required Json.Doc.named?
      let contracts ← contracts.optional Json.Doc.decimal?
      let amount ← amount.required Json.Doc.decimal?
      let legCount ←
        legCount.optional (Json.Doc.natTo? Word.uint32Max)
      let blockId ← blockId.optional Json.Doc.text?
      let rfqId ← rfqId.optional Json.Doc.int64?
      let comboId ← comboId.optional Json.Doc.text?
      let comboTradeId ← comboTradeId.optional Json.Doc.int64?
      let liquidation ← liquidation.optional Json.Doc.text?
      some
        { seq := seq
          id := id
          timestamp := timestamp
          tickDirection := tickDirection
          price := price
          markPrice := markPrice
          iv := iv
          instrumentName := instrumentName
          indexPrice := indexPrice
          direction := direction
          contracts := contracts
          amount := amount
          blockLegCount := legCount
          blockId := blockId
          blockRfqId := rfqId
          comboId := comboId
          comboTradeId := comboTradeId
          liquidation := liquidation }
  | _ => none

/- A trade as a JSON value; decimals are written as texts. -/
def toValue (t : Trade) : Json.Value :=
  let text := Json.Value.string
  let orNull := fun {α : Type} (f : α → Json.Value) =>
    (Option.elim · Json.Value.null f)
  .object
    (columns.zip
      [.int t.seq, text t.id, .int t.timestamp,
        .int t.tickDirection, text t.price.text,
        text t.markPrice.text,
        orNull (fun d => text (Decimal.text d)) t.iv,
        text t.instrumentName, text t.indexPrice.text,
        text (Named.name t.direction),
        orNull (fun d => text (Decimal.text d)) t.contracts,
        text t.amount.text,
        orNull (fun (n : Nat) => Json.Value.int n) t.blockLegCount,
        orNull text t.blockId, orNull Json.Value.int t.blockRfqId,
        orNull text t.comboId,
        orNull Json.Value.int t.comboTradeId,
        orNull text t.liquidation])

end Trade

end TradeTape
