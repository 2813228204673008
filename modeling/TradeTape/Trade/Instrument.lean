import TradeTape.Trade.Window

/-
  Instruments and the range in which they trade.

  Key definitions include:
    * `InstrumentKind`
    * `Instrument`
    * `Instrument.validRange`
    * `Result`
    * `Result.fileStem`
-/

namespace TradeTape

------------------------------------------------------------
-- Instruments
------------------------------------------------------------

/- The kinds of instrument whose trades are collected. -/
inductive InstrumentKind where
  | option
  | future
deriving DecidableEq, Repr

instance : Named InstrumentKind where
  all := [.option, .future]
  name
    | .option => "option"
    | .future => "future"

/- An instrument between its listing and its expiry. -/
structure Instrument where
  name : String
  kind : InstrumentKind
  creationMs : Int
  expirationMs : Int
deriving DecidableEq, Repr

namespace Instrument

/- The end of a range, cut off at a reference instant. -/
def cutOff
    (reference : Option Int)
    (endMs : Int) : Int :=
  match reference with
  | some r => min endMs r
  | none => endMs

/-
  The instants at which an instrument may have traded before
  the reference instant.  There are none when it was listed
  later.
-/
def validRange
    (i : Instrument)
    (reference : Option Int) : Option TimeWindow :=
  TimeWindow.make? i.creationMs (cutOff reference i.expirationMs)

/- An instrument from a document. -/
def ofDoc? (d : Json.Doc) : Option Instrument := do
  let slots ← d.slots?
    ["name", "kind", "creation_timestamp_ms",
      "expiration_timestamp_ms"]
  match slots with
  | [name, kind, creation, expiration] => do
      let name ← name.required Json.Doc.text?
      let kind ← kind.required Json.Doc.named?
      let creation ← creation.required Json.Doc.int64?
      let expiration ← expiration.required Json.Doc.int64?
      some
        { name := name
          kind := kind
          creationMs := creation
          expirationMs := expiration }
  | _ => none

/- The instrument as a JSON value. -/
def toValue (i : Instrument) : Json.Value :=
  .object
    [("name", .string i.name),
      ("kind", .string (Named.name i.kind)),
      ("creation_timestamp_ms", .int i.creationMs),
      ("expiration_timestamp_ms", .int i.expirationMs)]

end Instrument

------------------------------------------------------------
-- Results
------------------------------------------------------------

/-
  The trades of an instrument that are kept together, of one
  window or of its whole range.
-/
structure Result where
  instrument : Instrument
  window : Option Window
  trades : List Trade
deriving DecidableEq, Repr

namespace Result

/- The name under which the trades of a window are kept. -/
def stemOf
    (name : String)
    (window : Option Window) : String :=
  match window with
  | some w => name ++ "_" ++ w.fileSuffix
  | none => name

/- The name under which a result is kept. -/
def fileStem (r : Result) : String :=
  stemOf r.instrument.name r.window

end Result

end TradeTape
