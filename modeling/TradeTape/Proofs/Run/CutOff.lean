import TradeTape.Proofs.Run.Whole

/-
  Where a live run is cut off.

  Windows of instants end at the reference instant, and so do
  the trades that are handed over of them.  Windows of numbers
  end with the greatest number of a trade until then; a later
  trade that bears a number as small is handed over as well.
  That cannot be where numbers rise at the reference instant.

  Key statements include:
    * `holds_plannedRange_time`
    * `holds_plannedRange_sequence`
    * `TapeVenue.planned_of_file`
    * `Run.handed_cut_off`
    * `Run.late_iff`
-/

namespace TradeTape

open Trade

------------------------------------------------------------
-- Planned ranges
------------------------------------------------------------

/-
  Numbers rise at an instant: whatever comes after it has
  greater numbers than what comes until then.
-/
def Trade.RisesAt
    (tape : List Trade)
    (ms : Int) : Prop :=
  ∀ t ∈ tape, ∀ u ∈ tape,
    t.timestamp ≤ ms → ms < u.timestamp → t.seq < u.seq

instance (tape : List Trade) (ms : Int) :
    Decidable (RisesAt tape ms) := by
  unfold RisesAt
  infer_instance

theorem Instrument.validRange_eq_some
    {i : Instrument}
    {reference : Option Int}
    {range : TimeWindow} :
    i.validRange reference = some range ↔
      i.creationMs ≤ cutOff reference i.expirationMs
        ∧ range = ⟨i.creationMs, cutOff reference i.expirationMs⟩ := by
  unfold validRange TimeWindow.make?
  rw [Option.ite_none_right_eq_some, Option.some.injEq, eq_comm]

/- A cut-off is never after the reference instant. -/
theorem Instrument.cutOff_le (reference endMs : Int) :
    cutOff (some reference) endMs ≤ reference :=
  Int.min_le_right endMs reference

/- A number is at most the last one if a trade has one so great. -/
theorem exists_lastSeq_iff
    {tape : List Trade}
    {endMs n : Int} :
    (∃ last, lastSeq tape endMs = some last ∧ n ≤ last) ↔
      ∃ u ∈ tape, u.timestamp ≤ endMs ∧ n ≤ u.seq := by
  constructor
  · rintro ⟨last, hLast, hLe⟩
    have hMem := (greatest?_eq_some hLast).1
    rcases List.mem_map.mp hMem with ⟨u, hUntil, rfl⟩
    rcases List.mem_filter.mp hUntil with ⟨hu, hBefore⟩
    exact ⟨u, hu, of_decide_eq_true hBefore, hLe⟩
  · rintro ⟨u, hu, hBefore, hLe⟩
    have hUntil :
        u.seq ∈ (tape.filter fun t => t.timestamp ≤ endMs).map seq :=
      List.mem_map_of_mem
        (List.mem_filter.mpr ⟨hu, decide_eq_true hBefore⟩)
    cases hLast : lastSeq tape endMs with
    | none =>
        rw [greatest?_eq_none hLast] at hUntil
        cases hUntil
    | some last =>
        have hMost := (greatest?_eq_some hLast).2 u.seq hUntil
        exact ⟨last, rfl, hLe.trans hMost⟩

theorem Desk.holds_seqRange_iff
    {latest : Option Int}
    {t : Trade} :
    (∃ w ∈ seqRange latest, w.Holds t) ↔
      1 ≤ t.seq ∧ ∃ last, latest = some last ∧ t.seq ≤ last := by
  unfold seqRange
  cases latest with
  | none => simp
  | some last =>
      have hMake :
          (some last).bind (SeqWindow.make? 1) =
            if 1 ≤ last then some ⟨1, last⟩ else none :=
        rfl
      rw [hMake]
      split
      · simp [Window.Holds, SeqWindow.Covers]
      · simp
        omega

section Ranges

variable {s : Settings} {reference : Option Int}
variable {tape : List Trade} {i : Instrument} {t : Trade}

theorem holds_plannedRange_time
    (hTime : s.pagination = .time) :
    (∃ w ∈ plannedRange s reference tape i, w.Holds t) ↔
      i.creationMs ≤ t.timestamp
        ∧ t.timestamp
          ≤ Instrument.cutOff reference i.expirationMs := by
  unfold plannedRange
  rw [hTime]
  cases hRange : i.validRange reference with
  | none =>
      unfold Instrument.validRange TimeWindow.make? at hRange
      split at hRange
      · cases hRange
      · simp
        omega
  | some range =>
      rw [(Instrument.validRange_eq_some.mp hRange).2]
      simp [Window.Holds, TimeWindow.Covers]

theorem holds_plannedRange_sequence
    (hSequence : s.pagination = .sequence) :
    (∃ w ∈ plannedRange s reference tape i, w.Holds t) ↔
      i.creationMs ≤ Instrument.cutOff reference i.expirationMs
        ∧ 1 ≤ t.seq
        ∧ ∃ u ∈ tape,
          u.timestamp ≤ Instrument.cutOff reference i.expirationMs
            ∧ t.seq ≤ u.seq := by
  unfold plannedRange
  rw [hSequence, ← exists_lastSeq_iff]
  cases hRange : i.validRange reference with
  | none =>
      have hEmpty :
          ¬i.creationMs
            ≤ Instrument.cutOff reference i.expirationMs := by
        intro hLe
        rw [Instrument.validRange_eq_some.mpr ⟨hLe, rfl⟩] at hRange
        cases hRange
      simp [hEmpty]
  | some range =>
      rcases Instrument.validRange_eq_some.mp hRange with
        ⟨hLe, rfl⟩
      simp only [hLe, true_and]
      exact Desk.holds_seqRange_iff

end Ranges

------------------------------------------------------------
-- Files
------------------------------------------------------------

/- What is kept of single windows is of outcomes. -/
theorem Desk.mem_trades_of_results
    {s : Settings}
    {d : Desk}
    {result : Result}
    (hMem : result ∈ d.results s)
    {t : Trade}
    (ht : t ∈ result.trades) :
    ∃ out ∈ d.outcomes, t ∈ out.trades := by
  have hPartitioning := (Desk.mem_results hMem).1
  apply List.mem_flatMap.mp
  rw [← Desk.flatMap_results hPartitioning]
  exact List.mem_flatMap_of_mem hMem ht

/- What is kept of an instrument as a whole is of all outcomes. -/
theorem Desk.eq_wholeResult
    {s : Settings}
    {d : Desk}
    {result : Result}
    (hLast : d.lastResult? s = some result) :
    result = d.wholeResult d.ordered := by
  unfold lastResult? at hLast
  split at hLast
  · split at hLast
    · cases hLast
    · exact (Option.some.inj hLast).symm
  · cases hLast

/- So its trades are of outcomes too. -/
theorem Desk.mem_trades_of_lastResult?
    {s : Settings}
    {d : Desk}
    {result : Result}
    (hLast : d.lastResult? s = some result)
    {t : Trade}
    (ht : t ∈ result.trades) :
    ∃ out ∈ d.outcomes, t ∈ out.trades := by
  rw [eq_wholeResult hLast] at ht
  have hFetched := Merge.mem_of_mem_windows ht
  rw [Outcome.flatten_hauls] at hFetched
  rcases List.mem_flatMap.mp hFetched with ⟨out, hOut, hTrade⟩
  exact ⟨out, d.ordered_perm.mem_iff.mp hOut, hTrade⟩

/- Whatever a file hands over was fetched for a plan. -/
theorem Prospect.FileOk.fetched_of_mem_results
    {σ κ : Type}
    {o : Office σ κ}
    {cancels : Prop}
    {p : Prospect o cancels}
    {f : File κ}
    (h : p.FileOk f)
    {result : Result}
    (hMem : result ∈ f.results o) :
    ∃ windows,
      p.Fetched f.desk windows
        ∧ ∀ t ∈ result.trades,
          ∃ out ∈ f.desk.outcomes, t ∈ out.trades := by
  rcases h.shape with ⟨range, fault, _, _, _, hDesk⟩ | hFetched
  · rcases unplanned_fields hDesk with ⟨_, _, _, hNone, hFailure⟩
    have hNothing : f.results o = [] := by
      unfold File.results Desk.results
      rw [hNone, File.last_of_failure (by rw [hFailure]; rfl)]
      rfl
    rw [hNothing] at hMem
    cases hMem
  · rcases hFetched with ⟨windows, hFetched⟩
    refine ⟨windows, hFetched, ?_⟩
    intro t ht
    rcases List.mem_append.mp hMem with hDesk | hLast
    · exact Desk.mem_trades_of_results hDesk ht
    · rw [File.last_of_fetching hFetched.fetching,
        Option.mem_toList] at hLast
      exact Desk.mem_trades_of_lastResult? hLast ht

namespace TapeVenue

variable {κ : Type} {v : TapeVenue} {s : Settings}
variable {reference : Option Int} {sink : Sink κ}

/- A file hands over trades of the planned range of a tape. -/
theorem planned_of_file
    {f : File κ}
    (h : (v.carrying s reference sink).FileOk f)
    {result : Result}
    (hMem : result ∈ f.results (v.office s reference sink))
    {t : Trade}
    (ht : t ∈ result.trades) :
    let i := f.desk.instrument
    let tape := v.tape i.name
    t ∈ tape
      ∧ ∃ w ∈ plannedRange s reference tape i, w.Holds t := by
  intro i tape
  rcases h.fetched_of_mem_results hMem with
    ⟨windows, hFetched, hTrades⟩
  rcases hTrades t ht with ⟨out, hOut, hTrade⟩
  rcases Outcome.mem_trades.mp hTrade with ⟨haul, hWalked, hHaul⟩
  rcases (hFetched.outcomes out hOut).ends haul hWalked with
    ⟨hWindow, hOf⟩
  rcases hOf.within t hHaul with ⟨hTape, hHolds⟩
  have hTiles :=
    hFetched.planned.tiles_plannedRange fun _ latest hFound =>
      hFound latest rfl
  refine ⟨hTape, (hTiles.covers t).mp ⟨out.window, ?_, ?_⟩⟩
  · exact hFetched.share.mem_iff.mp (List.mem_map_of_mem hOut)
  · rw [← hWindow]
    exact hHolds

/- So does a run that is done, whatever the order of its moves. -/
theorem planned_of_done
    (hValid : s.Valid)
    {kept : κ}
    {cancelAt : Option Nat}
    {instruments : List Instrument}
    {r : Run Nat κ}
    (hReached :
      let o := v.office s reference sink
      Run.Reaches o (Run.start o 0 kept cancelAt instruments) r)
    (hDone : r.Done)
    {result : Result}
    (hMem : result ∈ r.depot.handed)
    {t : Trade}
    (ht : t ∈ result.trades) :
    let i := result.instrument
    let tape := v.tape i.name
    t ∈ tape
      ∧ ∃ w ∈ plannedRange s reference tape i, w.Holds t := by
  intro i tape
  rcases
    (v.carrying s reference sink).runOk_of_reaches hValid.limits.1
      (fun _ => trivial) trivial hReached with
    ⟨files, hRun⟩
  have hFiles := (hRun.files_of_done hDone).2.mem_iff.mp hMem
  rcases List.mem_flatMap.mp hFiles with ⟨f, hFile, hResult⟩
  have hSame : i = f.desk.instrument :=
    Prospect.instrument_fileResults hResult
  have hPlanned := planned_of_file (hRun.filed f hFile) hResult ht
  rw [← hSame] at hPlanned
  exact hPlanned

end TapeVenue

------------------------------------------------------------
-- Whole runs
------------------------------------------------------------

/-
  What live runs over any tapes hand over, whatever the order
  of their moves, whatever fails and whenever they are
  canceled.  Where windows are of instants, it lies between
  the listing and the cut-off.  Where they are of numbers,
  each number is at most that of a trade until the cut-off,
  which rules out later trades only if numbers rise at the
  reference instant.  Every run comes to an end.
-/
theorem Run.handed_cut_off
    {κ : Type}
    {s : Settings}
    (hValid : s.Valid)
    (v : TapeVenue)
    (reference : Int)
    (sink : Sink κ)
    (kept : κ)
    (cancelAt : Option Nat)
    (instruments : List Instrument) :
    let o := v.office s (some reference) sink
    let first := Run.start o 0 kept cancelAt instruments
    (Run.Reaches o first (Run.toEnd o first)
        ∧ (Run.toEnd o first).Done)
      ∧ ∀ r,
        Run.Reaches o first r →
          r.Done →
            ∀ result ∈ r.depot.handed, ∀ t ∈ result.trades,
              let i := result.instrument
              let tape := v.tape i.name
              let cut :=
                Instrument.cutOff (some reference) i.expirationMs
              t ∈ tape
                ∧ (s.pagination = .time →
                    i.creationMs ≤ t.timestamp ∧ t.timestamp ≤ cut)
                ∧ (s.pagination = .sequence →
                    1 ≤ t.seq
                      ∧ ∃ u ∈ tape,
                        u.timestamp ≤ cut ∧ t.seq ≤ u.seq)
                ∧ (s.pagination = .time ∨ RisesAt tape reference →
                    t.timestamp ≤ reference) := by
  intro o first
  refine ⟨Run.ends_toEnd hValid 0 kept cancelAt instruments, ?_⟩
  intro r hReached hDone result hMem t ht i tape cut
  rcases TapeVenue.planned_of_done hValid hReached hDone hMem ht with
    ⟨hTape, hPlanned⟩
  have hCut : cut ≤ reference :=
    Instrument.cutOff_le reference i.expirationMs
  have hInstants (hTime : s.pagination = .time) :
      i.creationMs ≤ t.timestamp ∧ t.timestamp ≤ cut :=
    (holds_plannedRange_time hTime).mp hPlanned
  have hNumbers (hSequence : s.pagination = .sequence) :
      1 ≤ t.seq
        ∧ ∃ u ∈ tape, u.timestamp ≤ cut ∧ t.seq ≤ u.seq :=
    ((holds_plannedRange_sequence hSequence).mp hPlanned).2
  refine ⟨hTape, hInstants, hNumbers, ?_⟩
  intro hEither
  cases hPagination : s.pagination with
  | time => exact (hInstants hPagination).2.trans hCut
  | sequence =>
      rw [hPagination] at hEither
      have hRises := hEither.resolve_left (by decide)
      rcases (hNumbers hPagination).2 with ⟨u, hu, hBefore, hLe⟩
      by_contra hLate
      have hLess :=
        hRises u hu t hTape (hBefore.trans hCut) (by omega)
      omega

/- Two trades, of which the later one bears the first number. -/
def lateVenue : TapeVenue :=
  { tapes :=
      [("X", [Trade.synthetic "X" 1 100, Trade.synthetic "X" 2 5])]
    failingInstruments := []
    failingRanges := []
    latency := none }

/- Windows of numbers. -/
def numberedSettings : Settings :=
  { Settings.standard with
    pagination := .sequence }

/- What a live run over these hands over. -/
def lateResults : List Result :=
  let o := lateVenue.office numberedSettings (some 10) Shelf.sink
  let r :=
    Run.toEnd o
      (Run.start o 0 (Shelf.make none) none
        [⟨"X", .future, 0, 1000⟩])
  r.depot.handed

theorem trades_lateResults :
    (lateResults.map fun result =>
        (result.instrument,
          result.trades.map fun t => (t.seq, t.timestamp)))
      = [(⟨"X", .future, 0, 1000⟩, [(2, 5), (1, 100)])] := by
  cbv

/- The later trade is handed over; its number is small enough. -/
theorem Run.handed_cut_off_of_late :
    ∃ result ∈ lateResults,
      result.trades.map (fun t => (t.seq, t.timestamp))
          = [(2, 5), (1, 100)]
        ∧ ∀ t ∈ result.trades,
          1 ≤ t.seq
            ∧ ∃ u ∈ lateVenue.tape "X",
              u.timestamp ≤ 10 ∧ t.seq ≤ u.seq := by
  rcases List.map_eq_singleton_iff.mp trades_lateResults with
    ⟨result, hOnly, hFields⟩
  rcases Prod.mk.inj hFields with ⟨hInstrument, hTrades⟩
  have hMem : result ∈ lateResults := by
    rw [hOnly]
    exact List.mem_singleton_self result
  refine ⟨result, hMem, hTrades, ?_⟩
  intro t ht
  have hAll :=
    @Run.handed_cut_off Shelf numberedSettings (by decide)
      lateVenue 10 Shelf.sink (Shelf.make none) none
      [⟨"X", .future, 0, 1000⟩]
  rcases hAll with ⟨⟨hReached, hDone⟩, hAll⟩
  have hTrade := hAll _ hReached hDone result hMem t ht
  simp only [hInstrument] at hTrade
  exact hTrade.2.2.1 rfl

/- A live run may hand over a trade after its reference instant. -/
theorem Run.exists_late_trade :
    numberedSettings.Valid
      ∧ ∃ result ∈ lateResults, ∃ t ∈ result.trades,
        10 < t.timestamp := by
  refine ⟨by decide, ?_⟩
  rcases List.map_eq_singleton_iff.mp trades_lateResults with
    ⟨result, hOnly, hFields⟩
  have hPair : ((1, 100) : Int × Int) ∈
      result.trades.map fun t => (t.seq, t.timestamp) := by
    rw [(Prod.mk.inj hFields).2]
    decide
  rcases List.mem_map.mp hPair with ⟨t, ht, hEq⟩
  have hLate : t.timestamp = 100 := (Prod.mk.inj hEq).2
  refine ⟨result, ?_, t, ht, by omega⟩
  rw [hOnly]
  exact List.mem_singleton_self result

/-
  Over tapes whose numbers differ, a live run that leaves no
  gap, whatever the order of its moves, hands over a trade
  after the reference instant if it goes by numbers and the
  tape has such a trade with a number small enough, and only
  then.
-/
theorem Run.late_iff
    {κ : Type}
    {v : TapeVenue}
    {s : Settings}
    {instruments : List Instrument}
    (hSeqs : ∀ name, SeqsDiffer (v.tape name))
    (hValid : s.Valid)
    (hBoundary : s.boundary = .inclusive)
    (hNames : (instruments.map Instrument.name).Nodup)
    {reference : Int}
    {sink : Sink κ}
    {kept : κ}
    {cancelAt : Option Nat}
    {r : Run Nat κ}
    (hReached :
      let o := v.office s (some reference) sink
      Run.Reaches o (Run.start o 0 kept cancelAt instruments) r) :
    ∀ report ∈ r.reports,
      report.state = .persisted →
      report.gaps = [] →
        let i := report.instrument
        let tape := v.tape i.name
        let cut := Instrument.cutOff (some reference) i.expirationMs
        (∃ result ∈ Prospect.resultsFor i.name r.depot.handed,
            ∃ t ∈ result.trades, reference < t.timestamp) ↔
          s.pagination = .sequence
            ∧ i.creationMs ≤ cut
            ∧ ∃ t ∈ tape,
              reference < t.timestamp
                ∧ 1 ≤ t.seq
                ∧ ∃ u ∈ tape,
                  u.timestamp ≤ cut ∧ t.seq ≤ u.seq := by
  intro report hReport hState hGaps i tape cut
  have hLossless :=
    Run.lossless_of_reaches hSeqs hValid hBoundary hNames hReached
      hReport hState
  rw [hGaps] at hLossless
  have hHanded (t : Trade) :
      (∃ result ∈ Prospect.resultsFor i.name r.depot.handed,
          t ∈ result.trades) ↔
        t ∈ tape
          ∧ ∃ w ∈ plannedRange s (some reference) tape i,
            w.Holds t := by
    rw [← List.mem_flatMap, hLossless.mem_iff t]
    simp [tape, i]
  have hCut : cut ≤ reference :=
    Instrument.cutOff_le reference i.expirationMs
  constructor
  · rintro ⟨result, hMem, t, ht, hLate⟩
    rcases (hHanded t).mp ⟨result, hMem, ht⟩ with
      ⟨hTape, hPlanned⟩
    cases hPagination : s.pagination with
    | time =>
        have hUntil :=
          ((holds_plannedRange_time hPagination).mp hPlanned).2
        omega
    | sequence =>
        rcases (holds_plannedRange_sequence hPagination).mp
          hPlanned with ⟨hListed, hFirst, hLast⟩
        exact ⟨rfl, hListed, t, hTape, hLate, hFirst, hLast⟩
  · rintro ⟨hSequence, hListed, t, hTape, hLate, hFirst, hLast⟩
    have hPlanned :=
      (holds_plannedRange_sequence hSequence).mpr
        ⟨hListed, hFirst, hLast⟩
    rcases (hHanded t).mpr ⟨hTape, hPlanned⟩ with
      ⟨result, hMem, ht⟩
    exact ⟨result, hMem, t, ht, hLate⟩

end TradeTape
