import TradeTape.Proofs.Merge.Neighbours
import TradeTape.Proofs.Run.Alone
import TradeTape.Proofs.Run.NoLoss
import TradeTape.Proofs.Walk.Steps

/-
  What is kept of an instrument as a whole.

  Over any tapes, whatever fails and whenever the run is
  canceled, the trades of an instrument that are kept as one
  are strictly ordered.  Each walk brings home a number once,
  but the same number may come from several windows, at other
  instants.  It is then kept twice if it comes back after
  another number, and only then.

  Key statements include:
    * `Merged`
    * `Merged.seqsDiffer_iff`
    * `TapeVenue.merged_of_reaches`
    * `Run.whole_once`
    * `Run.whole_in_order`
-/

namespace TradeTape

open Trade

------------------------------------------------------------
-- Hauls that are merged
------------------------------------------------------------

/- A haul of a tape: trades of its window, each number once. -/
structure Haul.Of
    (tape : List Trade)
    (haul : Haul) : Prop where
  once : SeqsDiffer haul.trades
  within : ∀ t ∈ haul.trades, t ∈ tape ∧ haul.window.Holds t

/-
  Trades that are merged from hauls over windows of a plan, in
  their order.  Windows whose walks failed are left out.
-/
structure Merged
    (tape : List Trade)
    (range : Option Window)
    (hauls : List Haul)
    (trades : List Trade) : Prop where
  each : ∀ haul ∈ hauls, haul.Of tape
  planned :
    ∃ windows,
      Tiles range windows
        ∧ (hauls.map Haul.window).Sublist windows
  eq : trades = Merge.windows (hauls.map Haul.trades)

namespace Merged

variable {tape : List Trade} {range : Option Window}
variable {hauls : List Haul} {trades : List Trade}

theorem apart
    (h : Merged tape range hauls trades) :
    (hauls.map Haul.window).Pairwise Window.Precedes := by
  rcases h.planned with ⟨windows, hTiles, hSublist⟩
  exact hTiles.apart.sublist hSublist

theorem inOrder
    (h : Merged tape range hauls trades) :
    InOrder trades := by
  rw [h.eq]
  exact Merge.inOrder_windows _

/- A number is kept twice if it comes back, and only then. -/
theorem seqsDiffer_iff
    (h : Merged tape range hauls trades) :
    SeqsDiffer trades ↔
      ¬Merge.Returns (hauls.flatMap Haul.trades) := by
  rw [h.eq, Merge.seqsDiffer_windows_iff, ← List.flatMap_def]

theorem mem_tape
    (h : Merged tape range hauls trades)
    {t : Trade}
    (ht : t ∈ hauls.flatMap Haul.trades) :
    t ∈ tape := by
  rcases List.mem_flatMap.mp ht with ⟨haul, hHaul, hMem⟩
  exact ((h.each haul hHaul).within t hMem).1

theorem seqsDiffer_of_not_returns
    (h : Merged tape range hauls trades)
    (hOnce : ¬Merge.Returns tape) :
    SeqsDiffer trades := by
  apply h.seqsDiffer_iff.mpr
  intro hReturns
  exact hOnce (hReturns.mono fun t ht => h.mem_tape ht)

/- Numbers that are brought home once are kept once. -/
theorem seqsDiffer_of_hauls
    (h : Merged tape range hauls trades)
    (hSeqs : SeqsDiffer (hauls.flatMap Haul.trades)) :
    SeqsDiffer trades := by
  rw [List.flatMap_def] at hSeqs
  rw [h.eq, Merge.windows_eq_sortTrades hSeqs]
  exact hSeqs.perm (Merge.sortTrades_perm _).symm

/- No number is in two windows of numbers. -/
theorem seqsDiffer_of_sequence
    (h : Merged tape range hauls trades)
    (hSpace : ∀ haul ∈ hauls, ∃ w, haul.window = .seq w) :
    SeqsDiffer trades := by
  apply h.seqsDiffer_of_hauls
  unfold SeqsDiffer
  rw [List.map_flatMap]
  refine List.nodup_flatMap.mpr ⟨?_, ?_⟩
  · intro haul hHaul
    exact (h.each haul hHaul).once
  · refine (List.pairwise_map.mp h.apart).imp_of_mem ?_
    intro a b ha hb hPrecedes n hn hAlso
    rcases List.mem_map.mp hn with ⟨t, ht, rfl⟩
    rcases List.mem_map.mp hAlso with ⟨u, hu, hSeq⟩
    rcases hSpace a ha with ⟨v, hv⟩
    rcases hSpace b hb with ⟨w, hw⟩
    have hLow := ((h.each a ha).within t ht).2
    have hHigh := ((h.each b hb).within u hu).2
    have hApart := hPrecedes.2
    rw [hv] at hLow hApart
    rw [hw] at hHigh hApart
    have hUntil : t.seq ≤ v.endSeq := hLow.2
    have hFrom : w.startSeq ≤ u.seq := hHigh.1
    have hNext : v.endSeq < w.startSeq := hApart
    omega

/- One window has each number once. -/
theorem seqsDiffer_of_single
    (h : Merged tape range hauls trades)
    (hSingle : hauls.length ≤ 1) :
    SeqsDiffer trades := by
  apply h.seqsDiffer_of_hauls
  match hauls, hSingle with
  | [], _ => exact List.nodup_nil
  | [haul], _ =>
      rw [List.flatMap_singleton]
      exact (h.each haul (List.mem_singleton_self haul)).once

end Merged

------------------------------------------------------------
-- Walks over tapes
------------------------------------------------------------

/- Hauls are of windows in the order of their outcomes. -/
theorem Outcome.windows_hauls_sublist
    {outcomes : List Outcome}
    (hWindows :
      ∀ out ∈ outcomes, ∀ haul,
        out.walked = .ok haul → haul.window = out.window) :
    ((hauls outcomes).map Haul.window).Sublist
      (outcomes.map Outcome.window) := by
  induction outcomes with
  | nil => exact List.Sublist.slnil
  | cons out rest ih =>
      have hRest :=
        ih fun o ho => hWindows o (List.mem_cons_of_mem out ho)
      unfold hauls at hRest ⊢
      cases hWalked : out.walked with
      | error f =>
          rw [List.filterMap_cons_none (by rw [hWalked]; rfl)]
          exact hRest.cons out.window
      | ok haul =>
          rw [List.filterMap_cons_some (by rw [hWalked]; rfl),
            List.map_cons, List.map_cons,
            hWindows out List.mem_cons_self haul hWalked]
          exact hRest.cons_cons out.window

namespace TapeVenue

variable {κ : Type}

/- A look-up that fails has found nothing. -/
theorem latest_of_error
    {v : TapeVenue}
    {name : String}
    {endMs : Int}
    {f : Fault}
    {latest : Option Int}
    (hFound : Except.error f = .ok latest) :
    latest = lastSeq (v.tape name) endMs := by
  cases hFound

/-
  Pages come from tapes, so what walks over them bring home is
  of the tape of their name, whatever else is known of it.
-/
def carrying
    (v : TapeVenue)
    (s : Settings)
    (reference : Option Int)
    (sink : Sink κ) :
    Prospect (v.office s reference sink) True :=
  { OnWay := fun w =>
      ∀ t ∈ w.pages.flatten, t ∈ v.tape w.instrument
    Ends := fun name w r =>
      ∀ haul,
        r = .ok haul → haul.window = w ∧ haul.Of (v.tape name)
    Found := fun name endMs r =>
      ∀ latest,
        r = .ok latest → latest = lastSeq (v.tape name) endMs
    Holds := fun _ => True
    Answered := fun _ _ => True
    starts := by
      intro name w t ht
      cases ht
    goesOn := by
      intro n w w' hKnown hAsks t ht
      rcases Walk.answer_eq_asks hAsks with
        ⟨page, left, hPage, _, _, rfl⟩
      rcases Walk.mem_flatten_concat.mp ht with hOld | hNew
      · exact hKnown t hOld
      · exact mem_tape_of_mem_page hPage hNew
    ends := by
      rintro n w r hKnown hEnds haul rfl
      rcases Walk.answer_eq_haul hEnds with ⟨page, hPage, _, rfl⟩
      refine ⟨rfl, Merge.seqsDiffer_pages _ _, ?_⟩
      intro t ht
      rcases Merge.mem_of_mem_pages ht with ⟨hMem, hHolds⟩
      refine ⟨?_, hHolds⟩
      rcases Walk.mem_flatten_concat.mp hMem with hOld | hNew
      · exact hKnown t hOld
      · exact mem_tape_of_mem_page hPage hNew
    finds := fun _ _ _ _ hLatest => latest_eq_ok hLatest
    canceled := by
      intro _ name w haul hOk
      cases hOk
    lookupCanceled := fun _ _ _ _ hOk => latest_of_error hOk
    overdue := by
      intro ms _ name w haul hOk
      cases hOk
    keeps := fun _ _ _ => ⟨trivial, trivial⟩ }

------------------------------------------------------------
-- Files and runs
------------------------------------------------------------

variable {v : TapeVenue} {s : Settings}
variable {reference : Option Int} {sink : Sink κ}

/- A plan without chunks has one window of instants at most. -/
theorem length_windows_le
    {i : Instrument}
    {windows : List Window}
    (hPlanned :
      (v.carrying s reference sink).Planned i windows)
    (hTime : s.pagination = .time)
    (hChunk : s.chunkMs = none) :
    windows.length ≤ 1 := by
  unfold Prospect.Planned office at hPlanned
  simp only [hTime] at hPlanned
  cases hRange : i.validRange reference with
  | none =>
      simp only [hRange] at hPlanned
      rw [hPlanned]
      exact Nat.zero_le 1
  | some range =>
      simp only [hRange] at hPlanned
      rw [hPlanned]
      unfold Desk.timePlan Plan.timeWindows
      rw [hChunk]
      exact Nat.le_refl 1

/- What a result for a whole instrument is merged from. -/
theorem merged_of_file
    (hWhole : s.partitioning = .perInstrument)
    {f : File κ}
    (h : (v.carrying s reference sink).FileOk f)
    {result : Result}
    (hMem : result ∈ f.results (v.office s reference sink)) :
    ∃ windows hauls,
      (v.carrying s reference sink).Planned f.desk.instrument
          windows
        ∧ (hauls.map Haul.window).Sublist windows
        ∧ Merged (v.tape f.desk.instrument.name)
            (plannedRange s reference
              (v.tape f.desk.instrument.name) f.desk.instrument)
            hauls result.trades := by
  rcases h.shape with ⟨range, fault, _, _, _, hDesk⟩ | hFetched
  · have hFailure : f.desk.failure.isSome = true := by
      rw [hDesk]
      rfl
    have hNone : f.results (v.office s reference sink) = [] := by
      unfold File.results
      rw [File.last_of_failure hFailure, List.append_nil]
      exact Desk.results_eq_nil hWhole f.desk
    rw [hNone] at hMem
    cases hMem
  · rcases hFetched with ⟨windows, hFetched⟩
    have hEnds (out : Outcome) (hOut : out ∈ f.desk.ordered) :=
      (hFetched.outcomes out
        (f.desk.ordered_perm.mem_iff.mp hOut)).ends
    have hSublist :
        ((Outcome.hauls f.desk.ordered).map Haul.window).Sublist
          windows := by
      rw [← hFetched.windows_ordered]
      apply Outcome.windows_hauls_sublist
      intro out hOut haul hWalked
      exact (hEnds out hOut haul hWalked).1
    have hTiles :=
      hFetched.planned.tiles_plannedRange fun _ latest hFound =>
        hFound latest rfl
    refine
      ⟨windows, Outcome.hauls f.desk.ordered, hFetched.planned,
        hSublist, ?_⟩
    refine
      { each := ?_
        planned := ⟨windows, hTiles, hSublist⟩
        eq := ?_ }
    · intro haul hHaul
      rcases Outcome.mem_hauls.mp hHaul with ⟨out, hOut, hWalked⟩
      exact (hEnds out hOut haul hWalked).2
    · rw [hFetched.results_eq hWhole] at hMem
      split at hMem
      · cases hMem
      · rw [List.mem_singleton.mp hMem]
        rfl

/-
  What a run hands over of whole instruments is merged so, at
  any time and whatever the order of its moves.
-/
theorem merged_of_reaches
    (hCeiling : 0 < s.maxInFlight)
    (hWhole : s.partitioning = .perInstrument)
    {kept : κ}
    {cancelAt : Option Nat}
    {instruments : List Instrument}
    {r : Run Nat κ}
    (hReached :
      let o := v.office s reference sink
      Run.Reaches o (Run.start o 0 kept cancelAt instruments) r)
    {result : Result}
    (hMem : result ∈ r.depot.handed) :
    let i := result.instrument
    let tape := v.tape i.name
    ∃ windows hauls,
      (v.carrying s reference sink).Planned i windows
        ∧ (hauls.map Haul.window).Sublist windows
        ∧ Merged tape (plannedRange s reference tape i) hauls
            result.trades := by
  let o := v.office s reference sink
  rcases
    (v.carrying s reference sink).runOk_of_reaches hCeiling
      (fun _ => trivial) trivial hReached with
    ⟨files, hRun⟩
  rcases List.mem_append.mp (hRun.handed.mem_iff.mp hMem) with
    hOpen | hClosed
  · rcases List.mem_flatMap.mp hOpen with ⟨d, _, hResult⟩
    have hNone : d.results o.settings = [] :=
      Desk.results_eq_nil hWhole d
    rw [hNone] at hResult
    cases hResult
  · rcases List.mem_flatMap.mp hClosed with ⟨f, hFile, hResult⟩
    rw [Prospect.instrument_fileResults hResult]
    exact merged_of_file hWhole (hRun.filed f hFile) hResult

end TapeVenue

------------------------------------------------------------
-- Whole runs
------------------------------------------------------------

section Runs

variable {κ : Type} {s : Settings}

/-
  Where each number of a tape is of one instant, a run hands
  over no number twice, whatever the order of its moves,
  whatever fails and whenever it is canceled.
-/
theorem Run.whole_once
    (hValid : s.Valid)
    (hWhole : s.partitioning = .perInstrument)
    {v : TapeVenue}
    (hInstant :
      ∀ name, ∀ t ∈ v.tape name, ∀ u ∈ v.tape name,
        t.seq = u.seq → t.timestamp = u.timestamp)
    {reference : Option Int}
    {sink : Sink κ}
    {kept : κ}
    {cancelAt : Option Nat}
    {instruments : List Instrument}
    {r : Run Nat κ}
    (hReached :
      let o := v.office s reference sink
      Run.Reaches o (Run.start o 0 kept cancelAt instruments) r) :
    ∀ result ∈ r.depot.handed, SeqsDiffer result.trades := by
  intro result hMem
  rcases
    TapeVenue.merged_of_reaches hValid.limits.1 hWhole hReached
      hMem with
    ⟨_, _, _, _, hMerged⟩
  apply hMerged.seqsDiffer_of_not_returns
  exact Merge.not_returns_of_timestamp_eq (hInstant _)

/-
  What runs over any tapes hand over of whole instruments,
  whatever the order of their moves, whatever fails and
  whenever they are canceled, is in strict order.  Each window
  gives a number once.  A number is kept twice if it comes
  back after another one in what the walks have brought home,
  and only then.  That cannot be where numbers do not come
  back on the tape, where windows are of numbers, or where
  there is one window only.  Every run comes to an end.
-/
theorem Run.whole_in_order
    (hValid : s.Valid)
    (hWhole : s.partitioning = .perInstrument)
    (v : TapeVenue)
    (reference : Option Int)
    (sink : Sink κ)
    (kept : κ)
    (cancelAt : Option Nat)
    (instruments : List Instrument) :
    let o := v.office s reference sink
    let first := Run.start o 0 kept cancelAt instruments
    (Run.Reaches o first (Run.toEnd o first)
        ∧ (Run.toEnd o first).Done)
      ∧ ∀ r,
        Run.Reaches o first r →
          ∀ result ∈ r.depot.handed,
            let i := result.instrument
            let tape := v.tape i.name
            InOrder result.trades
              ∧ (∃ hauls,
                  Merged tape (plannedRange s reference tape i)
                      hauls result.trades
                    ∧ (SeqsDiffer result.trades ↔
                        ¬Merge.Returns (hauls.flatMap Haul.trades)))
              ∧ (¬Merge.Returns tape
                    ∨ s.pagination = .sequence
                    ∨ s.chunkMs = none →
                  SeqsDiffer result.trades) := by
  intro o first
  refine ⟨Run.ends_toEnd hValid 0 kept cancelAt instruments, ?_⟩
  intro r hReached result hMem i tape
  rcases
    TapeVenue.merged_of_reaches hValid.limits.1 hWhole hReached
      hMem with
    ⟨windows, hauls, hPlanned, hSublist, hMerged⟩
  have hNumbers (hSequence : s.pagination = .sequence) :
      SeqsDiffer result.trades := by
    apply hMerged.seqsDiffer_of_sequence
    intro haul hHaul
    have hWindow := hSublist.mem (List.mem_map_of_mem hHaul)
    exact (hPlanned.plans hWindow).eq_seq hSequence
  refine
    ⟨hMerged.inOrder, ⟨hauls, hMerged, hMerged.seqsDiffer_iff⟩, ?_⟩
  rintro (hOnce | hSequence | hChunk)
  · exact hMerged.seqsDiffer_of_not_returns hOnce
  · exact hNumbers hSequence
  · cases hPagination : s.pagination with
    | sequence => exact hNumbers hPagination
    | time =>
        apply hMerged.seqsDiffer_of_single
        have hLength := hSublist.length_le
        rw [List.length_map] at hLength
        exact
          hLength.trans
            (TapeVenue.length_windows_le hPlanned hPagination hChunk)

end Runs

/- Three trades, of which the last one bears the first number. -/
def returningVenue : TapeVenue :=
  { tapes :=
      [("X",
        [Trade.synthetic "X" 1 5, Trade.synthetic "X" 2 10,
          Trade.synthetic "X" 1 15])]
    failingInstruments := []
    failingRanges := []
    latency := none }

/- Pages of three trades, and windows of ten milliseconds. -/
def returningSettings : Settings :=
  { Settings.standard with
    pageSize := 3
    chunkMs := some 10 }

/- What a run over these hands over. -/
def returningResults : List Result :=
  let o := returningVenue.office returningSettings none Shelf.sink
  let r :=
    Run.toEnd o
      (Run.start o 0 (Shelf.make none) none
        [⟨"X", .future, 0, 19⟩])
  r.depot.handed

theorem seqs_returningResults :
    (returningResults.map fun result =>
        (result.instrument, result.trades.map Trade.seq))
      = [(⟨"X", .future, 0, 19⟩, [1, 2, 1])] := by
  cbv

/- The number that comes back is kept twice, and in order. -/
theorem Run.whole_in_order_of_returning :
    ∃ result ∈ returningResults,
      result.trades.map Trade.seq = [1, 2, 1]
        ∧ InOrder result.trades
        ∧ ∃ hauls : List Haul,
          Merged (returningVenue.tape "X") (some (.time ⟨0, 19⟩))
              hauls result.trades
            ∧ Merge.Returns (hauls.flatMap Haul.trades) := by
  rcases List.map_eq_singleton_iff.mp seqs_returningResults with
    ⟨result, hOnly, hFields⟩
  rcases Prod.mk.inj hFields with ⟨hInstrument, hSeqs⟩
  have hMem : result ∈ returningResults := by
    rw [hOnly]
    exact List.mem_singleton_self result
  have hAll :=
    @Run.whole_in_order Shelf returningSettings (by decide)
      rfl returningVenue none Shelf.sink (Shelf.make none) none
      [⟨"X", .future, 0, 19⟩]
  rcases hAll with ⟨⟨hReached, _⟩, hAll⟩
  have hResult := hAll _ hReached result hMem
  simp only [hInstrument] at hResult
  rcases hResult with ⟨hOrder, ⟨hauls, hMerged, hTwice⟩, _⟩
  refine ⟨result, hMem, hSeqs, hOrder, hauls, hMerged, ?_⟩
  by_contra hOnce
  have hDiffer := hTwice.mpr hOnce
  unfold SeqsDiffer at hDiffer
  rw [hSeqs] at hDiffer
  exact absurd hDiffer (by decide)

/- A result for a whole instrument may hold a number twice. -/
theorem Run.exists_number_kept_twice :
    returningSettings.Valid
      ∧ returningSettings.partitioning = .perInstrument
      ∧ ∃ result ∈ returningResults, ¬SeqsDiffer result.trades := by
  refine ⟨by decide, rfl, ?_⟩
  rcases List.map_eq_singleton_iff.mp seqs_returningResults with
    ⟨result, hOnly, hFields⟩
  refine ⟨result, ?_, ?_⟩
  · rw [hOnly]
    exact List.mem_singleton_self result
  · unfold SeqsDiffer
    rw [(Prod.mk.inj hFields).2]
    decide

end TradeTape
