import TradeTape.Deribit.Market
import TradeTape.Json.Decode
import TradeTape.Json.Printer
import TradeTape.Json.Reader

/-
  The answers of the venue.

  An answer holds a result or an error.  A listed instrument
  keeps whatever else the venue says about it, so that all of
  it can go into the catalog.

  Key definitions include:
    * `Deribit.Envelope`
    * `Deribit.Envelope.read?`
    * `Deribit.TradesPage`
    * `Deribit.ListedInstrument`
    * `Deribit.ListedInstrument.row`
-/

namespace TradeTape

namespace Deribit

------------------------------------------------------------
-- Depth
------------------------------------------------------------

/- The arrays and objects that a reader follows at once. -/
def maxDepth : Nat := 127

/- A value of any shape below a number of levels. -/
def valueBelow?
    (levels : Nat)
    (d : Json.Doc) : Option Json.Value :=
  if d.depth + levels ≤ maxDepth then d.value? else none

------------------------------------------------------------
-- Envelopes
------------------------------------------------------------

/- An error that the venue reports. -/
structure RpcError where
  code : Int
  message : String
  data : Option Json.Value

/- An error from a document, two levels deep in an answer. -/
def RpcError.ofDoc? (d : Json.Doc) : Option RpcError := do
  match ← d.slots? ["code", "message", "data"] with
  | [code, message, data] => do
      let code ← code.required Json.Doc.int64?
      let message ← message.required Json.Doc.text?
      let data ← data.nullable (valueBelow? 2)
      some { code := code, message := message, data := data }
  | _ => none

/- An answer, and when it was received and sent. -/
structure Envelope (α : Type) where
  result : Option α
  error : Option RpcError
  usIn : Option Nat
  usOut : Option Nat

namespace Envelope

/- An answer from a document. -/
def ofDoc?
    {α : Type}
    (read : Json.Doc → Option α)
    (d : Json.Doc) : Option (Envelope α) := do
  match ← d.slots? ["result", "error", "usIn", "usOut"] with
  | [result, error, usIn, usOut] => do
      let result ← result.optional read
      let error ← error.optional RpcError.ofDoc?
      let usIn ← usIn.optional Json.Doc.nat64?
      let usOut ← usOut.optional Json.Doc.nat64?
      some
        { result := result
          error := error
          usIn := usIn
          usOut := usOut }
  | _ => none

/- An answer from the bytes of a response. -/
def read?
    {α : Type}
    (read : Json.Doc → Option α)
    (body : Json.Bytes) : Option (Envelope α) :=
  (Json.parse? body).bind (ofDoc? read)

end Envelope

------------------------------------------------------------
-- Trades
------------------------------------------------------------

/- A page of trades; what it says about more is not relied on. -/
structure TradesPage where
  trades : List Trade
  hasMore : Bool
deriving DecidableEq, Repr

/-
  A trade as the venue writes it: its identifier may be an
  integer, and an array may end before the fields that need
  not be there.
-/
def tradeOf? (d : Json.Doc) : Option Trade := do
  match ← d.slots? Trade.columns with
  | [seq, id, timestamp, tickDirection, price, markPrice, iv,
      instrumentName, indexPrice, direction, contracts, amount,
      legCount, blockId, rfqId, comboId, comboTradeId,
      liquidation] => do
      let seq ← seq.required Json.Doc.int64?
      let id ← id.required Json.Doc.textOrInt?
      let timestamp ← timestamp.required Json.Doc.int64?
      let tickDirection ←
        tickDirection.required (Json.Doc.intIn? (-128) 127)
      let price ← price.required Json.Doc.decimal?
      let markPrice ← markPrice.required Json.Doc.decimal?
      let iv ← iv.nullable Json.Doc.decimal?
      let instrumentName ← instrumentName.required Json.Doc.text?
      let indexPrice ← indexPrice.required Json.Doc.decimal?
      let direction ← direction.required Json.Doc.named?
      let contracts ← contracts.nullable Json.Doc.decimal?
      let amount ← amount.required Json.Doc.decimal?
      let legCount ←
        legCount.nullable (Json.Doc.natTo? Word.uint32Max)
      let blockId ← blockId.nullable Json.Doc.text?
      let rfqId ← rfqId.nullable Json.Doc.int64?
      let comboId ← comboId.nullable Json.Doc.text?
      let comboTradeId ← comboTradeId.nullable Json.Doc.int64?
      let liquidation ← liquidation.nullable Json.Doc.text?
      some
        { seq := seq
          id := id
          timestamp := timestamp
          tickDirection := tickDirection
          price := price
          markPrice := markPrice
          iv := iv
          instrumentName := instrumentName
          indexPrice := indexPrice
          direction := direction
          contracts := contracts
          amount := amount
          blockLegCount := legCount
          blockId := blockId
          blockRfqId := rfqId
          comboId := comboId
          comboTradeId := comboTradeId
          liquidation := liquidation }
  | _ => none

/- A page from a document. -/
def TradesPage.ofDoc? (d : Json.Doc) : Option TradesPage := do
  match ← d.slots? ["trades", "has_more"] with
  | [trades, hasMore] => do
      let trades ← trades.required (Json.Doc.list? tradeOf?)
      let hasMore ← hasMore.withDefault false Json.Doc.bool?
      some { trades := trades, hasMore := hasMore }
  | _ => none

------------------------------------------------------------
-- Instruments
------------------------------------------------------------

/- An instrument as the venue lists it. -/
structure ListedInstrument where
  name : String
  listing : Listing
  creationMs : Int
  expirationMs : Int
  isActive : Bool
  extra : List (String × Json.Value)

namespace ListedInstrument

/- The columns that every row has, in order. -/
def columns : List String :=
  ["instrument_name", "kind", "creation_timestamp",
    "expiration_timestamp", "is_active"]

/- The members of an object that are no column of every row. -/
def extraMembers : Json.Doc → List (Option String × Json.Doc)
  | .object members =>
      members.filter fun m => !(columns.map some).contains m.1
  | _ => []

/-
  An instrument from a document, three levels deep in an
  answer; it is written as an object only.
-/
def ofDoc? (d : Json.Doc) : Option ListedInstrument := do
  match ← d.objectSlots? columns with
  | [name, listing, creation, expiration, isActive] => do
      let name ← name.required Json.Doc.text?
      let listing ← listing.required Json.Doc.named?
      let creation ← creation.required Json.Doc.int64?
      let expiration ← expiration.required Json.Doc.int64?
      let isActive ← isActive.withDefault false Json.Doc.bool?
      let members := extraMembers d
      if members.all fun m => m.2.depth + 3 ≤ maxDepth then
        let extra ← Json.Doc.memberValues? [] members
        some
          { name := name
            listing := listing
            creationMs := creation
            expirationMs := expiration
            isActive := isActive
            extra := extra }
      else
        none
  | _ => none

/- The text of a value in a cell. -/
def cell : Json.Value → String
  | .null => ""
  | .string s => s
  | v => v.render

/- The row of an instrument, its cells by column in order. -/
def row (i : ListedInstrument) : List (String × String) :=
  let known :=
    columns.zip
      [i.name, Named.name i.listing, toString i.creationMs,
        toString i.expirationMs, if i.isActive then "true" else "false"]
  (known ++ i.extra.map fun m => (m.1, cell m.2)).mergeSort
    fun a b => Json.textLe a.1 b.1

/- Why a listed instrument cannot be backfilled. -/
inductive Problem where
  | unsupported (l : Listing)
  | expiresEarly (name : String) (expirationMs creationMs : Int)
deriving DecidableEq, Repr

/- What a person reads about a problem. -/
def Problem.message : Problem → String
  | .unsupported l => l.unsupportedMessage
  | .expiresEarly name expirationMs creationMs =>
      s!"instrument {name} expires ({expirationMs}) before creation "
        ++ s!"({creationMs})"

/- The instrument to backfill. -/
def instrument?
    (i : ListedInstrument) : Except Problem Instrument :=
  match i.listing.kind? with
  | none => .error (.unsupported i.listing)
  | some kind =>
      if i.expirationMs < i.creationMs then
        .error (.expiresEarly i.name i.expirationMs i.creationMs)
      else
        .ok
          { name := i.name
            kind := kind
            creationMs := i.creationMs
            expirationMs := i.expirationMs }

end ListedInstrument

end Deribit

end TradeTape
