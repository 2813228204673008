import TradeTape.Backfill.Fault
import TradeTape.Backfill.Merge
import TradeTape.Backfill.Settings

/-
  Walking over a window, page by page.

  A walk asks for a page, looks at the answer and either asks
  again or ends.  Windows of instants are walked from their
  end to their start, since a venue answers with the newest
  trades of a range; windows of trade numbers are walked from
  their start to their end.

  Key definitions include:
    * `PageQuery`
    * `Walk`
    * `Walk.query`
    * `Walk.receive`
    * `Walk.run`
-/

namespace TradeTape

------------------------------------------------------------
-- Queries
------------------------------------------------------------

/- A question for the trades of an instrument in a window. -/
structure PageQuery where
  instrument : String
  window : Window
  count : Nat
deriving DecidableEq, Repr

/- What a finished walk brings home. -/
structure Haul where
  window : Window
  trades : List Trade
  requests : Nat
deriving DecidableEq, Repr

------------------------------------------------------------
-- Cursors
------------------------------------------------------------

/- The rules that a walk follows. -/
structure WalkRules where
  pageSize : Nat
  maxPages : Nat
  boundary : Boundary
deriving DecidableEq, Repr

/- The rules of settings; a count below one counts as one. -/
def WalkRules.ofSettings (s : Settings) : WalkRules :=
  { pageSize := max s.pageSize 1
    maxPages := max s.maxPages 1
    boundary := s.boundary }

/- The least of a list of integers, if there is one. -/
def least? : List Int → Option Int
  | [] => none
  | n :: rest => some (rest.foldl min n)

/- The greatest of a list of integers, if there is one. -/
def greatest? : List Int → Option Int
  | [] => none
  | n :: rest => some (rest.foldl max n)

/- A walk that waits for a page. -/
structure Walk where
  rules : WalkRules
  instrument : String
  whole : Window
  asked : Window
  pages : List (List Trade)
  requests : Nat
deriving DecidableEq, Repr

/- Where a walk stands after a page. -/
inductive Progress where
  | asks (w : Walk)
  | ends (r : Except Fault Haul)
deriving Repr

namespace Walk

/- The walk over a window before its first page. -/
def start
    (rules : WalkRules)
    (instrument : String)
    (window : Window) : Walk :=
  { rules := rules
    instrument := instrument
    whole := window
    asked := window
    pages := []
    requests := 0 }

/- The page that a walk waits for. -/
def query (w : Walk) : PageQuery :=
  { instrument := w.instrument
    window := w.asked
    count := w.rules.pageSize }

/- A page that a venue did not cut short. -/
def Full (w : Walk) (page : List Trade) : Prop :=
  w.rules.pageSize ≤ page.length

instance (w : Walk) (page : List Trade) :
    Decidable (w.Full page) := by
  unfold Full
  infer_instance

/- The message for trades on the wrong side of a range. -/
def strayMessage (w : Walk) (side : String) : String :=
  s!"page for {w.instrument} {w.asked.text} holds trades "
    ++ s!"{side}"

/-
  The range after a page of instants: it ends at the oldest
  instant of a full page, or just before it.  A full page of
  a single instant at the end of its range cannot be passed
  by a walk that includes that instant.
-/
def nextTime
    (w : Walk)
    (whole asked : TimeWindow)
    (page : List Trade) : Except Fault (Option Window) :=
  match least? (page.map Trade.timestamp) with
  | none => .ok none
  | some oldest =>
      if ¬w.Full page then
        .ok none
      else if asked.endMs < oldest then
        .error (.malformed (w.strayMessage "after its end"))
      else
        let next : Except Fault Int :=
          match w.rules.boundary with
          | .inclusive =>
              if oldest = asked.endMs then
                .error (.saturated asked.endMs)
              else
                .ok oldest
          | .exclusive => .ok (Word.subSat oldest 1)
        match next with
        | .error f => .error f
        | .ok endMs =>
            if endMs < whole.startMs then .ok none
            else
              .ok
                (some
                  (.time
                    { startMs := whole.startMs, endMs := endMs }))

/-
  The range after a page of trade numbers: it starts after
  the greatest number of a full page.
-/
def nextSeq
    (w : Walk)
    (whole asked : SeqWindow)
    (page : List Trade) : Except Fault (Option Window) :=
  match greatest? (page.map Trade.seq) with
  | none => .ok none
  | some newest =>
      if ¬w.Full page ∨ whole.endSeq ≤ newest then
        .ok none
      else if newest < asked.startSeq then
        .error (.malformed (w.strayMessage "before its start"))
      else
        .ok
          (some
            (.seq
              { startSeq := newest + 1, endSeq := whole.endSeq }))

/- The range after a page, if there is more to ask for. -/
def next
    (w : Walk)
    (page : List Trade) : Except Fault (Option Window) :=
  match w.whole, w.asked with
  | .time whole, .time asked => w.nextTime whole asked page
  | .seq whole, .seq asked => w.nextSeq whole asked page
  | _, _ => .ok none

/-
  Takes a page.  A walk that would ask once more than its
  rules allow ends with a fault.
-/
def receive
    (w : Walk)
    (page : List Trade) : Progress :=
  let requests := w.requests + 1
  let pages := w.pages ++ [page]
  match w.next page with
  | .error f => .ends (.error f)
  | .ok none =>
      .ends
        (.ok
          { window := w.whole
            trades := Merge.pages pages w.whole
            requests := requests })
  | .ok (some window) =>
      if w.rules.maxPages ≤ requests then
        .ends (.error (.pageCeiling w.rules.maxPages))
      else
        .asks
          { w with
            asked := window
            pages := pages
            requests := requests }

/- Takes the answer to a call, a page or a fault. -/
def answer
    (w : Walk) :
    Except Fault (List Trade) → Progress
  | .error f => .ends (.error f)
  | .ok page => w.receive page

/- The number of requests that a walk may still make. -/
def allowance (w : Walk) : Nat :=
  w.rules.maxPages - w.requests

------------------------------------------------------------
-- Whole walks
------------------------------------------------------------

/-
  The rest of a walk against a source of answers with a
  state, and the queries it makes.
-/
def follow
    {σ : Type}
    (ask : σ → PageQuery → Except Fault (List Trade) × σ) :
    Nat → σ → Walk → Except Fault Haul × List PageQuery × σ
  | 0, s, w => (.error (.pageCeiling w.rules.maxPages), [], s)
  | left + 1, s, w =>
      let (reply, s) := ask s w.query
      match w.answer reply with
      | .ends r => (r, [w.query], s)
      | .asks w' =>
          let (r, queries, s) := follow ask left s w'
          (r, w.query :: queries, s)

/- A whole walk from where it stands. -/
def run
    {σ : Type}
    (ask : σ → PageQuery → Except Fault (List Trade) × σ)
    (s : σ)
    (w : Walk) : Except Fault Haul × List PageQuery × σ :=
  follow ask w.allowance s w

end Walk

end TradeTape
