import TradeTape.Deribit.Endpoint
import TradeTape.Deribit.Market
import TradeTape.Text.Form

/-
  Questions to the venue, as they are drafted, checked and
  written.

  Key definitions include:
    * `Deribit.Query`
    * `Deribit.InstrumentsDraft`
    * `Deribit.TradesDraft`
    * `Deribit.Query.text`
    * `Deribit.Query.path`
-/

namespace TradeTape

namespace Deribit

------------------------------------------------------------
-- Queries
------------------------------------------------------------

/- A question that the venue answers. -/
inductive Query where
  | instruments
      (currency : Currency)
      (listing : Listing)
      (expired : Bool)
  | trades
      (instrument : String)
      (window : Window)
      (count : Nat)
      (includeOld : Bool)
deriving DecidableEq, Repr

/- The text of a truth value. -/
def boolText (b : Bool) : String :=
  if b then "true" else "false"

namespace Query

/- The names of the bounds of a window. -/
def boundNames : Window → String × String
  | .time _ => ("start_timestamp", "end_timestamp")
  | .seq _ => ("start_seq", "end_seq")

/- The fields of a question, in order. -/
def fields : Query → List (String × String)
  | .instruments currency listing expired =>
      [("currency", Named.name currency),
        ("kind", Named.name listing), ("expired", boolText expired)]
  | .trades instrument window count includeOld =>
      let (low, high) := boundNames window
      [("instrument_name", instrument),
        (low, toString window.bounds.1),
        (high, toString window.bounds.2), ("count", toString count),
        ("include_old", boolText includeOld)]

/- The method by which a question is asked. -/
def method : Query → String
  | .instruments _ _ _ => "/public/get_instruments"
  | .trades _ (.time _) _ _ =>
      "/public/get_last_trades_by_instrument_and_time"
  | .trades _ (.seq _) _ _ =>
      "/public/get_last_trades_by_instrument"

/- The fields of a question, as an address writes them. -/
def text (q : Query) : String :=
  Form.pairs q.fields

/- The part of an address that asks a question. -/
def path (q : Query) : String :=
  q.method ++ "?" ++ q.text

end Query

------------------------------------------------------------
-- Drafts
------------------------------------------------------------

/- What is wrong with a draft. -/
inductive DraftProblem where
  | missing (field : String)
  | reversed (space : String) (low high : Int)
  | countOutOfRange (count : Nat)
deriving DecidableEq, Repr

/- What a person reads about a problem. -/
def DraftProblem.message : DraftProblem → String
  | .missing field => s!"\x60{field}\x60 must be initialized"
  | .reversed space low high =>
      s!"start_{space} ({low}) must not be after end_{space} ({high})"
  | .countOutOfRange n =>
      s!"count must be between 1 and {maxCount}, was {n}"

/- The value of a field that has to be there. -/
def present
    {α : Type}
    (field : String)
    (value : Option α) : Except DraftProblem α :=
  match value with
  | some a => .ok a
  | none => .error (.missing field)

/- A question for instruments, as far as it is drafted. -/
structure InstrumentsDraft where
  currency : Option Currency
  listing : Option Listing
  expired : Option Bool
deriving DecidableEq, Repr

/- The question of a draft. -/
def InstrumentsDraft.build
    (d : InstrumentsDraft) : Except DraftProblem Query := do
  let currency ← present "currency" d.currency
  let listing ← present "kind" d.listing
  .ok (.instruments currency listing (d.expired.getD false))

/- The space in which trades are asked for. -/
inductive Space where
  | time
  | seq
deriving DecidableEq, Repr

namespace Space

/- What the bounds of a space are called. -/
def boundName : Space → String
  | .time => "timestamp"
  | .seq => "seq"

/- The window of two bounds. -/
def window (low high : Int) : Space → Window
  | .time => .time { startMs := low, endMs := high }
  | .seq => .seq { startSeq := low, endSeq := high }

end Space

/- A question for trades, as far as it is drafted. -/
structure TradesDraft where
  space : Space
  instrument : Option String
  low : Option Int
  high : Option Int
  count : Option Nat
  includeOld : Option Bool
deriving DecidableEq, Repr

namespace TradesDraft

/-
  What is wrong with the values of a draft, whatever is still
  missing: bounds in the wrong order come before a count that
  no answer has.
-/
def problem? (d : TradesDraft) : Option DraftProblem :=
  let count :=
    d.count.bind fun n =>
      if n = 0 ∨ maxCount < n then some (.countOutOfRange n)
      else none
  match d.low, d.high with
  | some low, some high =>
      if high < low then
        some (.reversed d.space.boundName low high)
      else
        count
  | _, _ => count

/- The question of a draft. -/
def build (d : TradesDraft) : Except DraftProblem Query := do
  match d.problem? with
  | some p => .error p
  | none =>
      let instrument ← present "instrument_name" d.instrument
      let low ← present ("start_" ++ d.space.boundName) d.low
      let high ← present ("end_" ++ d.space.boundName) d.high
      .ok
        (.trades instrument (d.space.window low high)
          (d.count.getD maxCount) (d.includeOld.getD false))

end TradesDraft

------------------------------------------------------------
-- Reading
------------------------------------------------------------

namespace Query

/- The value of a field that occurs once. -/
def only?
    (fields : List (String × String))
    (name : String) : Option String :=
  match fields.filter fun f => f.1 = name with
  | [f] => some f.2
  | _ => none

/- A truth value from its text. -/
def bool? : String → Option Bool
  | "true" => some true
  | "false" => some false
  | _ => none

/- A signed word from its text. -/
def word? (text : String) : Option Int :=
  (Digits.int? text.toList).filter fun n => Word.FitsInt64 n

/- A count from its text. -/
def count? (text : String) : Option Nat :=
  (Digits.signedNat? text.toList).filter fun n => n ≤ Word.uint64Max

/- The question for instruments that some fields ask. -/
def instrumentsOf?
    (fields : List (String × String)) : Option Query := do
  let currency ← (← only? fields "currency") |> Named.ofName?
  let listing ← (← only? fields "kind") |> Named.ofName?
  let expired ← (← only? fields "expired") |> bool?
  some (.instruments currency listing expired)

/- The question for trades that some fields ask. -/
def tradesOf?
    (space : Space)
    (fields : List (String × String)) : Option Query := do
  let instrument ← only? fields "instrument_name"
  let low ← (← only? fields ("start_" ++ space.boundName)) |> word?
  let high ← (← only? fields ("end_" ++ space.boundName)) |> word?
  let count ← (← only? fields "count") |> count?
  let includeOld ← (← only? fields "include_old") |> bool?
  some (.trades instrument (space.window low high) count includeOld)

/- The question that a text asks by the method of another. -/
def reread?
    (like : Query)
    (text : String) : Option Query := do
  let fields ← Form.fields? text
  match like with
  | .instruments _ _ _ => instrumentsOf? fields
  | .trades _ (.time _) _ _ => tradesOf? .time fields
  | .trades _ (.seq _) _ _ => tradesOf? .seq fields

end Query

end Deribit

end TradeTape
