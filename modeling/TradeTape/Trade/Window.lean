import TradeTape.Trade.Record

/-
  Windows: closed intervals of instants or of trade numbers.

  A window of instants and a window of trade numbers are
  different even when their bounds agree, and they are
  written differently wherever a name is made of one.

  Key definitions include:
    * `TimeWindow`
    * `SeqWindow`
    * `Window`
    * `Window.Holds`
    * `Window.fileSuffix`
-/

namespace TradeTape

/- The number of integers of `[low, high]`, within a word. -/
def spanLength (low high : Int) : Int :=
  Word.addSat (Word.subSat high low) 1

------------------------------------------------------------
-- Windows of instants
------------------------------------------------------------

/- The instants from the start to the end, both included. -/
structure TimeWindow where
  startMs : Int
  endMs : Int
deriving DecidableEq, Repr

namespace TimeWindow

/- A window whose start is not after its end. -/
def make?
    (startMs endMs : Int) : Option TimeWindow :=
  if startMs ≤ endMs then
    some { startMs := startMs, endMs := endMs }
  else
    none

/- The message for bounds in the wrong order. -/
def invalidMessage (startMs endMs : Int) : String :=
  s!"invalid time window: start {startMs} > end {endMs}"

/- The number of milliseconds covered. -/
def length (w : TimeWindow) : Int :=
  spanLength w.startMs w.endMs

/- Membership of an instant. -/
def Covers (w : TimeWindow) (ms : Int) : Prop :=
  w.startMs ≤ ms ∧ ms ≤ w.endMs

instance (w : TimeWindow) (ms : Int) : Decidable (w.Covers ms) := by
  unfold Covers
  infer_instance

/- The window as a person reads it. -/
def text (w : TimeWindow) : String :=
  s!"[{w.startMs}, {w.endMs}]"

/- A window from a document; its bounds are not compared. -/
def ofDoc? (d : Json.Doc) : Option TimeWindow := do
  match ← d.slots? ["start_ms", "end_ms"] with
  | [low, high] => do
      let low ← low.required Json.Doc.int64?
      let high ← high.required Json.Doc.int64?
      some { startMs := low, endMs := high }
  | _ => none

/- The window as a JSON value. -/
def toValue (w : TimeWindow) : Json.Value :=
  .object [("start_ms", .int w.startMs), ("end_ms", .int w.endMs)]

end TimeWindow

------------------------------------------------------------
-- Windows of trade numbers
------------------------------------------------------------

/- The trade numbers from the start to the end. -/
structure SeqWindow where
  startSeq : Int
  endSeq : Int
deriving DecidableEq, Repr

namespace SeqWindow

/- A window whose start is not after its end. -/
def make?
    (startSeq endSeq : Int) : Option SeqWindow :=
  if startSeq ≤ endSeq then
    some { startSeq := startSeq, endSeq := endSeq }
  else
    none

/- The message for bounds in the wrong order. -/
def invalidMessage (startSeq endSeq : Int) : String :=
  s!"invalid sequence window: start {startSeq} > end {endSeq}"

/- The number of trade numbers covered. -/
def length (w : SeqWindow) : Int :=
  spanLength w.startSeq w.endSeq

/- Membership of a trade number. -/
def Covers (w : SeqWindow) (seq : Int) : Prop :=
  w.startSeq ≤ seq ∧ seq ≤ w.endSeq

instance (w : SeqWindow) (seq : Int) : Decidable (w.Covers seq) := by
  unfold Covers
  infer_instance

/- The window as a person reads it. -/
def text (w : SeqWindow) : String :=
  s!"[#{w.startSeq}, #{w.endSeq}]"

/- A window from a document; its bounds are not compared. -/
def ofDoc? (d : Json.Doc) : Option SeqWindow := do
  match ← d.slots? ["start_seq", "end_seq"] with
  | [low, high] => do
      let low ← low.required Json.Doc.int64?
      let high ← high.required Json.Doc.int64?
      some { startSeq := low, endSeq := high }
  | _ => none

/- The window as a JSON value. -/
def toValue (w : SeqWindow) : Json.Value :=
  .object
    [("start_seq", .int w.startSeq), ("end_seq", .int w.endSeq)]

end SeqWindow

------------------------------------------------------------
-- Windows of either space
------------------------------------------------------------

/- A unit of planned work for one instrument. -/
inductive Window where
  | time (w : TimeWindow)
  | seq (w : SeqWindow)
deriving DecidableEq, Repr

namespace Window

/- The bounds of a window in its own space. -/
def bounds : Window → Int × Int
  | .time w => (w.startMs, w.endMs)
  | .seq w => (w.startSeq, w.endSeq)

/- The place of a trade in the space of a window. -/
def place : Window → Trade → Int
  | .time _, t => t.timestamp
  | .seq _, t => t.seq

/- Membership of a trade. -/
def Holds : Window → Trade → Prop
  | .time w, t => w.Covers t.timestamp
  | .seq w, t => w.Covers t.seq

instance (w : Window) (t : Trade) : Decidable (w.Holds t) := by
  cases w <;> unfold Holds <;> infer_instance

/- The window as a person reads it. -/
def text : Window → String
  | .time w => w.text
  | .seq w => w.text

/- What a file name says about the window it covers. -/
def fileSuffix : Window → String
  | .time w => s!"{w.startMs}_{w.endMs}"
  | .seq w => s!"{w.startSeq}-{w.endSeq}"

/- The order of windows by their bounds. -/
def boundsLe (v w : Window) : Bool :=
  let (a, b) := v.bounds
  let (c, d) := w.bounds
  decide (a < c ∨ (a = c ∧ b ≤ d))

/-
  A window from a document: an object whose only member is
  named for the space.
-/
def ofDoc? : Json.Doc → Option Window
  | .object [(some "Time", d)] => (TimeWindow.ofDoc? d).map .time
  | .object [(some "Seq", d)] => (SeqWindow.ofDoc? d).map .seq
  | _ => none

/- The window as a JSON value. -/
def toValue : Window → Json.Value
  | .time w => .object [("Time", w.toValue)]
  | .seq w => .object [("Seq", w.toValue)]

end Window

end TradeTape
