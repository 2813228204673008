import TradeTape.Proofs.Run.Closing
import TradeTape.Proofs.Run.Completion
import TradeTape.Proofs.Walk.Exactness

/-
  No trade is lost in silence.

  Over venues that serve tapes, what a run hands to the sink
  for an instrument that it calls persisted is what the tape
  holds in the planned range, but for the windows that the
  report names as gaps.  It does not matter how long calls
  take, which of them fail, or when the run is canceled.

  Key statements include:
    * `plannedRange`
    * `Lossless`
    * `TapeVenue.prospect`
    * `TapeVenue.lossless_file`
    * `Run.lossless_of_reaches`
    * `Run.reports_lossless`
-/

namespace TradeTape

open Trade

------------------------------------------------------------
-- Trades of outcomes
------------------------------------------------------------

namespace Outcome

/- The trades that a walk brought home. -/
def trades (out : Outcome) : List Trade :=
  match out.walked with
  | .ok haul => haul.trades
  | .error _ => []

theorem mem_trades
    {out : Outcome}
    {t : Trade} :
    t ∈ out.trades ↔
      ∃ haul, out.walked = .ok haul ∧ t ∈ haul.trades := by
  unfold trades
  cases out.walked with
  | ok haul => simp
  | error f => simp

theorem mem_hauls
    {outcomes : List Outcome}
    {haul : Haul} :
    haul ∈ hauls outcomes ↔
      ∃ out ∈ outcomes, out.walked = .ok haul := by
  unfold hauls
  rw [List.mem_filterMap]
  refine exists_congr fun out => and_congr_right fun _ => ?_
  cases out.walked <;> simp [Except.toOption]

theorem flatten_hauls (outcomes : List Outcome) :
    ((hauls outcomes).map Haul.trades).flatten =
      outcomes.flatMap trades := by
  induction outcomes with
  | nil => rfl
  | cons out rest ih =>
      unfold hauls at ih ⊢
      rw [List.flatMap_cons, ← ih]
      unfold trades
      cases hWalked : out.walked with
      | ok haul =>
          rw [List.filterMap_cons_some (by rw [hWalked]; rfl)]
          rfl
      | error f =>
          rw [List.filterMap_cons_none (by rw [hWalked]; rfl)]
          rfl

theorem mem_gaps
    {name : String}
    {outcomes : List Outcome}
    {g : Gap} :
    g ∈ gaps name outcomes ↔
      ∃ out ∈ outcomes, ∃ f,
        out.walked = .error f ∧ g = ⟨name, out.window, f⟩ := by
  unfold gaps
  rw [List.mem_filterMap]
  constructor
  · rintro ⟨out, hOut, hGap⟩
    refine ⟨out, hOut, ?_⟩
    cases hWalked : out.walked with
    | ok haul =>
        rw [hWalked] at hGap
        cases hGap
    | error f =>
        rw [hWalked] at hGap
        exact ⟨f, rfl, (Option.some.inj hGap).symm⟩
  · rintro ⟨out, hOut, f, hWalked, rfl⟩
    refine ⟨out, hOut, ?_⟩
    rw [hWalked]

end Outcome

/- What is kept of windows by themselves holds their trades. -/
theorem Desk.flatMap_results
    {s : Settings}
    (hPartitioning : s.partitioning = .perWindow)
    (d : Desk) :
    (d.results s).flatMap Result.trades =
      d.outcomes.flatMap Outcome.trades := by
  unfold Desk.results
  induction d.outcomes with
  | nil => rfl
  | cons out rest ih =>
      rw [List.flatMap_cons, ← ih]
      unfold Outcome.trades
      cases hWalked : out.walked with
      | error f =>
          rw [List.filterMap_cons_none (by rw [hWalked]; rfl)]
          rfl
      | ok haul =>
          by_cases hNone : haul.trades = []
          · rw [List.filterMap_cons_none]
            · simp only [hNone]
              rfl
            · rw [hWalked]
              simp only [windowResult?, hPartitioning, hNone,
                if_true]
          · rw [List.filterMap_cons_some (b :=
              ⟨d.instrument, some out.window, haul.trades⟩)]
            · rfl
            · rw [hWalked]
              simp only [windowResult?, hPartitioning, hNone,
                if_false]

------------------------------------------------------------
-- Lossless results
------------------------------------------------------------

/- The greatest number at or before an instant. -/
def lastSeq
    (tape : List Trade)
    (endMs : Int) : Option Int :=
  greatest?
    ((tape.filter fun t => t.timestamp ≤ endMs).map Trade.seq)

/-
  The range that is planned for an instrument: the instants
  at which it may have traded, or the numbers of its tape up
  to the last of these instants.
-/
def plannedRange
    (s : Settings)
    (reference : Option Int)
    (tape : List Trade)
    (i : Instrument) : Option Window :=
  match i.validRange reference, s.pagination with
  | none, _ => none
  | some range, .time => some (.time range)
  | some range, .sequence =>
      Desk.seqRange (lastSeq tape range.endMs)

/-
  Where look-ups find the last number of a tape, the windows
  of a plan tile the planned range.
-/
theorem Prospect.Planned.tiles_plannedRange
    {σ κ : Type}
    {o : Office σ κ}
    {cancels : Prop}
    {p : Prospect o cancels}
    {i : Instrument}
    {windows : List Window}
    {tape : List Trade}
    (hPlanned : p.Planned i windows)
    (hFound :
      ∀ endMs latest,
        p.Found i.name endMs (.ok latest) →
          latest = lastSeq tape endMs) :
    Tiles (plannedRange o.settings o.reference tape i)
      windows := by
  have hTiles := hPlanned.tiles
  unfold plannedRange
  cases hRange : i.validRange o.reference with
  | none =>
      simp only [hRange] at hTiles
      exact hTiles
  | some range =>
      cases hPagination : o.settings.pagination with
      | time =>
          simp only [hRange, hPagination] at hTiles
          exact hTiles
      | sequence =>
          simp only [hRange, hPagination] at hTiles
          rcases hTiles with ⟨latest, hLatest, hTiles⟩
          rw [hFound range.endMs latest hLatest] at hTiles
          exact hTiles

/- A result of a window that holds a trade. -/
def Result.Covers
    (result : Result)
    (t : Trade) : Prop :=
  ∃ w, result.window = some w ∧ w.Holds t

/-
  Results that hold the trades of a tape in a range, each of
  them once, but for those in gaps.  Where windows are kept
  by themselves, each trade is in the result of its window.
-/
structure Lossless
    (partitioning : Partitioning)
    (tape : List Trade)
    (range : Option Window)
    (gaps : List Gap)
    (results : List Result) : Prop where
  once : (results.flatMap Result.trades).Nodup
  inOrder : ∀ result ∈ results, InOrder result.trades
  mem_iff :
    ∀ t,
      t ∈ results.flatMap Result.trades ↔
        t ∈ tape
          ∧ (∃ w ∈ range, w.Holds t)
          ∧ ∀ g ∈ gaps, ¬g.window.Holds t
  placed :
    partitioning = .perWindow →
    ∀ t ∈ results.flatMap Result.trades,
      ∃ result ∈ results,
        t ∈ result.trades
          ∧ result.Covers t
          ∧ ∀ other ∈ results, other.Covers t → other = result

theorem Lossless.perm
    {partitioning : Partitioning}
    {tape : List Trade}
    {range : Option Window}
    {gaps : List Gap}
    {results others : List Result}
    (h : Lossless partitioning tape range gaps results)
    (hPerm : others.Perm results) :
    Lossless partitioning tape range gaps others := by
  have hTrades := hPerm.flatMap_right Result.trades
  refine
    { once := hTrades.nodup_iff.mpr h.once
      inOrder := fun result hMem =>
        h.inOrder result (hPerm.mem_iff.mp hMem)
      mem_iff := fun t => hTrades.mem_iff.trans (h.mem_iff t)
      placed := ?_ }
  intro hPartitioning t ht
  rcases h.placed hPartitioning t (hTrades.mem_iff.mp ht) with
    ⟨result, hMem, hTrade, hCovers, hOnly⟩
  refine
    ⟨result, hPerm.mem_iff.mpr hMem, hTrade, hCovers, ?_⟩
  intro other hOther
  exact hOnly other (hPerm.mem_iff.mp hOther)

------------------------------------------------------------
-- Outcomes of a whole plan
------------------------------------------------------------

/- Outcomes of all windows of a plan, exact where they are ok. -/
structure Exhausts
    (tape : List Trade)
    (range : Option Window)
    (outcomes : List Outcome) : Prop where
  tiles :
    ∃ windows,
      Tiles range windows
        ∧ (outcomes.map Outcome.window).Perm windows
  exact :
    ∀ out ∈ outcomes, ∀ haul,
      out.walked = .ok haul → Exact tape out.window haul.trades

namespace Exhausts

variable {tape : List Trade} {range : Option Window}
variable {outcomes : List Outcome}

theorem perm
    {others : List Outcome}
    (h : Exhausts tape range outcomes)
    (hPerm : others.Perm outcomes) :
    Exhausts tape range others := by
  rcases h.tiles with ⟨windows, hTiles, hShare⟩
  exact
    { tiles := ⟨windows, hTiles, (hPerm.map _).trans hShare⟩
      exact := fun out hOut =>
        h.exact out (hPerm.mem_iff.mp hOut) }

theorem distinct
    (h : Exhausts tape range outcomes) :
    (outcomes.map Outcome.window).Nodup := by
  rcases h.tiles with ⟨windows, hTiles, hShare⟩
  exact hShare.nodup_iff.mpr hTiles.nodup

/- A trade lies in the window of one outcome at most. -/
theorem eq_of_holds
    (h : Exhausts tape range outcomes)
    {out other : Outcome}
    (hOut : out ∈ outcomes)
    (hOther : other ∈ outcomes)
    {t : Trade}
    (hHolds : out.window.Holds t)
    (hAlso : other.window.Holds t) :
    out = other := by
  rcases h.tiles with ⟨windows, hTiles, hShare⟩
  have hWindow :=
    hTiles.eq_of_holds
      (hShare.mem_iff.mp (List.mem_map_of_mem hOut))
      (hShare.mem_iff.mp (List.mem_map_of_mem hOther)) hHolds hAlso
  exact List.inj_on_of_nodup_map h.distinct hOut hOther hWindow

theorem holds_of_mem
    (h : Exhausts tape range outcomes)
    {out : Outcome}
    (hOut : out ∈ outcomes)
    {t : Trade}
    (ht : t ∈ out.trades) :
    t ∈ tape ∧ out.window.Holds t := by
  rcases Outcome.mem_trades.mp ht with ⟨haul, hWalked, hMem⟩
  exact ((h.exact out hOut haul hWalked).mem_iff t).mp hMem

theorem nodup
    (h : Exhausts tape range outcomes) :
    (outcomes.flatMap Outcome.trades).Nodup := by
  refine List.nodup_flatMap.mpr ⟨?_, ?_⟩
  · intro out hOut
    unfold Outcome.trades
    cases hWalked : out.walked with
    | ok haul => exact (h.exact out hOut haul hWalked).inOrder.nodup
    | error f => exact List.nodup_nil
  · refine (List.Nodup.of_map _ h.distinct).imp_of_mem ?_
    intro out other hOut hOther hNe t ht hAlso
    exact
      hNe
        (h.eq_of_holds hOut hOther (h.holds_of_mem hOut ht).2
          (h.holds_of_mem hOther hAlso).2)

theorem seqsDiffer
    (h : Exhausts tape range outcomes)
    (hSeqs : SeqsDiffer tape) :
    SeqsDiffer (outcomes.flatMap Outcome.trades) := by
  have hTape :
      ∀ t ∈ outcomes.flatMap Outcome.trades, t ∈ tape := by
    intro t ht
    rcases List.mem_flatMap.mp ht with ⟨out, hOut, hMem⟩
    exact (h.holds_of_mem hOut hMem).1
  refine List.Nodup.map_on ?_ h.nodup
  intro t ht u hu hSeq
  exact hSeqs.eq_of_seq_eq (hTape t ht) (hTape u hu) hSeq

/- What is missing of the range lies in gaps. -/
theorem mem_iff
    (h : Exhausts tape range outcomes)
    (name : String)
    (t : Trade) :
    t ∈ outcomes.flatMap Outcome.trades ↔
      t ∈ tape
        ∧ (∃ w ∈ range, w.Holds t)
        ∧ ∀ g ∈ Outcome.gaps name outcomes,
            ¬g.window.Holds t := by
  rcases h.tiles with ⟨windows, hTiles, hShare⟩
  rw [List.mem_flatMap, ← hTiles.covers t]
  constructor
  · rintro ⟨out, hOut, ht⟩
    rcases h.holds_of_mem hOut ht with ⟨hTape, hHolds⟩
    refine
      ⟨hTape,
        ⟨out.window,
          hShare.mem_iff.mp (List.mem_map_of_mem hOut), hHolds⟩, ?_⟩
    intro g hGap hAlso
    rcases Outcome.mem_gaps.mp hGap with
      ⟨other, hOther, f, hFailed, rfl⟩
    have hSame := h.eq_of_holds hOut hOther hHolds hAlso
    rcases Outcome.mem_trades.mp ht with ⟨haul, hWalked, _⟩
    rw [hSame, hFailed] at hWalked
    cases hWalked
  · rintro ⟨hTape, ⟨w, hw, hHolds⟩, hNoGap⟩
    rcases List.mem_map.mp (hShare.mem_iff.mpr hw) with
      ⟨out, hOut, rfl⟩
    refine ⟨out, hOut, ?_⟩
    cases hWalked : out.walked with
    | ok haul =>
        have hExact := h.exact out hOut haul hWalked
        exact
          Outcome.mem_trades.mpr
            ⟨haul, hWalked, (hExact.mem_iff t).mpr ⟨hTape, hHolds⟩⟩
    | error f =>
        have hGap : ⟨name, out.window, f⟩ ∈ Outcome.gaps name outcomes :=
          Outcome.mem_gaps.mpr ⟨out, hOut, f, hWalked, rfl⟩
        exact absurd hHolds (hNoGap _ hGap)

end Exhausts

/- What a desk hands over, if its windows are kept one by one. -/
theorem lossless_windows
    {s : Settings}
    {d : Desk}
    {outcomes : List Outcome}
    {tape : List Trade}
    {range : Option Window}
    (hPartitioning : s.partitioning = .perWindow)
    (hPerm : outcomes.Perm d.outcomes)
    (h : Exhausts tape range d.outcomes) :
    Lossless s.partitioning tape range
      (Outcome.gaps d.instrument.name outcomes)
      (d.results s) := by
  have hTrades := Desk.flatMap_results hPartitioning d
  -- Each result is that of one outcome, with its window.
  have hResult :
      ∀ result,
        result ∈ d.results s ↔
          ∃ out ∈ d.outcomes, ∃ haul,
            out.walked = .ok haul
              ∧ haul.trades ≠ []
              ∧ result =
                ⟨d.instrument, some out.window, haul.trades⟩ := by
    intro result
    unfold Desk.results
    rw [List.mem_filterMap]
    constructor
    · rintro ⟨out, hOut, hMade⟩
      refine ⟨out, hOut, ?_⟩
      cases hWalked : out.walked with
      | error f =>
          rw [hWalked] at hMade
          cases hMade
      | ok haul =>
          rw [hWalked] at hMade
          simp only [Desk.windowResult?, hPartitioning,
            Option.ite_none_left_eq_some,
            Option.some.injEq] at hMade
          exact ⟨haul, rfl, hMade.1, hMade.2.symm⟩
    · rintro ⟨out, hOut, haul, hWalked, hSome, rfl⟩
      refine ⟨out, hOut, ?_⟩
      rw [hWalked]
      simp only [Desk.windowResult?, hPartitioning, hSome, if_false]
  refine
    { once := by
        rw [hTrades]
        exact h.nodup
      inOrder := ?_
      mem_iff := fun t => by
        rw [hTrades,
          ← (hPerm.flatMap_right Outcome.trades).mem_iff]
        exact (h.perm hPerm).mem_iff d.instrument.name t
      placed := ?_ }
  · intro result hMem
    rcases (hResult result).mp hMem with
      ⟨out, hOut, haul, hWalked, _, rfl⟩
    exact (h.exact out hOut haul hWalked).inOrder
  · intro _ t ht
    rcases List.mem_flatMap.mp ht with ⟨result, hMem, hTrade⟩
    rcases (hResult result).mp hMem with
      ⟨out, hOut, haul, hWalked, _, hEq⟩
    have hHolds : out.window.Holds t := by
      rw [hEq] at hTrade
      exact
        (((h.exact out hOut haul hWalked).mem_iff t).mp hTrade).2
    refine
      ⟨result, hMem, hTrade, ⟨out.window, by rw [hEq], hHolds⟩, ?_⟩
    rintro other hOther ⟨w, hWindow, hAlso⟩
    rcases (hResult other).mp hOther with
      ⟨out', hOut', haul', hWalked', _, hEq'⟩
    have hSame : out' = out := by
      rw [hEq'] at hWindow
      have hw : out'.window = w := Option.some.inj hWindow
      exact h.eq_of_holds hOut' hOut (hw ▸ hAlso) hHolds
    rw [hSame, hWalked] at hWalked'
    rw [hEq, hEq', hSame, Except.ok.inj hWalked']

/- What a desk hands over, if it is kept as a whole. -/
theorem lossless_whole
    {s : Settings}
    {d : Desk}
    {outcomes : List Outcome}
    {tape : List Trade}
    {range : Option Window}
    (hPartitioning : s.partitioning = .perInstrument)
    (hSeqs : SeqsDiffer tape)
    (h : Exhausts tape range outcomes) :
    Lossless s.partitioning tape range
      (Outcome.gaps d.instrument.name outcomes)
      [d.wholeResult outcomes] := by
  have hDiffer := h.seqsDiffer hSeqs
  have hTrades :
      (d.wholeResult outcomes).trades =
        Merge.sortTrades (outcomes.flatMap Outcome.trades) := by
    unfold Desk.wholeResult
    rw [← Outcome.flatten_hauls] at hDiffer ⊢
    exact Merge.windows_eq_sortTrades hDiffer
  have hAll :
      [d.wholeResult outcomes].flatMap Result.trades =
        Merge.sortTrades (outcomes.flatMap Outcome.trades) := by
    rw [List.flatMap_singleton, hTrades]
  have hPerm :=
    Merge.sortTrades_perm (outcomes.flatMap Outcome.trades)
  refine
    { once := by
        rw [hAll]
        exact hPerm.nodup_iff.mpr h.nodup
      inOrder := by
        intro result hMem
        rw [List.mem_singleton.mp hMem, hTrades]
        exact Merge.inOrder_sortTrades hDiffer
      mem_iff := fun t => by
        rw [hAll, hPerm.mem_iff]
        exact h.mem_iff d.instrument.name t
      placed := ?_ }
  intro hOther
  rw [hPartitioning] at hOther
  cases hOther

------------------------------------------------------------
-- Venues that serve tapes
------------------------------------------------------------

namespace TapeVenue

variable {κ : Type}

/- Tapes that are given with different numbers keep them. -/
theorem seqsDiffer_tape
    {v : TapeVenue}
    (hSeqs : ∀ entry ∈ v.tapes, SeqsDiffer entry.2)
    (name : String) :
    SeqsDiffer (v.tape name) := by
  have hGiven : SeqsDiffer ((v.tapes.lookup name).getD []) := by
    cases hLookup : v.tapes.lookup name with
    | none => exact List.nodup_nil
    | some tape =>
        rcases List.lookup_eq_some_iff.mp hLookup with
          ⟨before, after, hSplit, _⟩
        refine hSeqs (name, tape) ?_
        rw [hSplit]
        exact List.mem_append_right _ List.mem_cons_self
  have hPerm :=
    (Merge.sortTrades_perm ((v.tapes.lookup name).getD [])).map
      Trade.seq
  exact hPerm.nodup_iff.mpr hGiven

/-
  Walks over tapes whose numbers differ track them, and what
  they end with, if it is no fault, is exact.
-/
def prospect
    (v : TapeVenue)
    (hSeqs : ∀ name, SeqsDiffer (v.tape name))
    (s : Settings)
    (hBoundary : s.boundary = .inclusive)
    (reference : Option Int)
    (sink : Sink κ) :
    Prospect (v.office s reference sink) True :=
  { OnWay := fun w => w.Tracks (v.tape w.instrument)
    Ends := fun name w r =>
      ∀ haul, r = .ok haul → Exact (v.tape name) w haul.trades
    Found := fun name endMs r =>
      ∀ latest,
        r = .ok latest → latest = lastSeq (v.tape name) endMs
    Holds := fun _ => True
    Answered := fun _ _ => True
    starts := fun name w => Walk.tracks_start hBoundary name w
    goesOn := by
      intro n w w' hTracks hAsks
      change w.answer (v.page w.query) = .asks w' at hAsks
      have hSame := (Walk.asks_of_answer hAsks).1
      cases hPage : v.page w.query with
      | error f =>
          rw [hPage] at hAsks
          cases hAsks
      | ok page =>
          rw [hPage] at hAsks
          have hReceive :=
            hTracks.receive (hSeqs w.instrument)
              (answers_page (hSeqs w.instrument) hPage)
          rw [show w.receive page = .asks w' from hAsks] at hReceive
          rw [hSame]
          exact hReceive.1
    ends := by
      rintro n w r hTracks hEnds haul rfl
      change w.answer (v.page w.query) = .ends (.ok haul) at hEnds
      cases hPage : v.page w.query with
      | error f =>
          rw [hPage] at hEnds
          cases hEnds
      | ok page =>
          rw [hPage] at hEnds
          have hReceive :=
            hTracks.receive (hSeqs w.instrument)
              (answers_page (hSeqs w.instrument) hPage)
          rw [show w.receive page = .ends (.ok haul)
            from hEnds] at hReceive
          exact hReceive.2
    finds := fun _ _ _ _ hLatest => latest_eq_ok hLatest
    canceled := by
      intro _ name w haul hOk
      cases hOk
    lookupCanceled := by
      intro _ name endMs latest hOk
      cases hOk
    overdue := by
      intro ms _ name w haul hOk
      cases hOk
    keeps := fun _ _ _ => ⟨trivial, trivial⟩ }

variable {v : TapeVenue}
variable {hSeqs : ∀ name, SeqsDiffer (v.tape name)}
variable {s : Settings} {hBoundary : s.boundary = .inclusive}
variable {reference : Option Int} {sink : Sink κ}

/- The windows of a plan tile the planned range. -/
theorem tiles_of_planned
    {i : Instrument}
    {windows : List Window}
    (hPlanned :
      (v.prospect hSeqs s hBoundary reference sink).Planned i
        windows) :
    Tiles (plannedRange s reference (v.tape i.name) i)
      windows :=
  hPlanned.tiles_plannedRange fun _ latest hFound =>
    hFound latest rfl

theorem exhausts_of_fetched
    {d : Desk}
    {windows : List Window}
    (h :
      (v.prospect hSeqs s hBoundary reference sink).Fetched d
        windows) :
    Exhausts (v.tape d.instrument.name)
      (plannedRange s reference (v.tape d.instrument.name)
        d.instrument) d.outcomes :=
  { tiles := ⟨windows, tiles_of_planned h.planned, h.share⟩
    exact := fun out hOut haul hWalked =>
      (h.outcomes out hOut).ends haul hWalked }

/- What a file with a report of success says. -/
theorem lossless_file
    {f : File κ}
    (h : (v.prospect hSeqs s hBoundary reference sink).FileOk f)
    (hState :
      (f.report (v.office s reference sink)).state = .persisted) :
    let i := f.desk.instrument
    Lossless s.partitioning (v.tape i.name)
      (plannedRange s reference (v.tape i.name) i)
      (f.report (v.office s reference sink)).gaps
      (f.results (v.office s reference sink)) := by
  intro i
  rcases h.fetched_of_persisted hState with ⟨windows, hFetched⟩
  have hExhausts := exhausts_of_fetched hFetched
  have hOrdered := f.desk.ordered_perm
  have hClose :
      f.desk.close s sink f.depot = f.desk.merge s sink f.depot :=
    Desk.close_of_fetching hFetched.fetching
  have hHanded := (f.handed_eq (v.office s reference sink)).1
  unfold File.report at hState ⊢
  change
    (f.desk.close s sink f.depot).2.handed = _ at hHanded
  change
    (f.desk.close s sink f.depot).1.state = .persisted at hState
  change
    Lossless _ _ _ (f.desk.close s sink f.depot).1.gaps _
  rw [hClose] at hHanded hState ⊢
  rcases Desk.merge_persisted hFetched.fetching hState with
    ⟨hGaps, hLast⟩
  rw [hGaps]
  have hSame := List.append_cancel_left (hHanded.symm.trans hLast)
  unfold File.results
  rw [hSame]
  cases hPartitioning : s.partitioning with
  | perWindow =>
      simp only [List.append_nil]
      rw [← hPartitioning]
      exact lossless_windows hPartitioning hOrdered hExhausts
  | perInstrument =>
      have hNone :
          f.desk.results (v.office s reference sink).settings
            = [] :=
        Desk.results_eq_nil hPartitioning f.desk
      have hWhole :=
        lossless_whole hPartitioning (hSeqs i.name)
          (d := f.desk) (hExhausts.perm hOrdered)
      rw [hPartitioning] at hWhole
      rw [hNone, List.nil_append]
      exact hWhole

end TapeVenue

------------------------------------------------------------
-- Whole runs
------------------------------------------------------------

/-
  Reports that are written in a run over tapes, whatever the
  order of its moves, leave no trade out in silence.
-/
theorem Run.lossless_of_reaches
    {κ : Type}
    {v : TapeVenue}
    {s : Settings}
    {instruments : List Instrument}
    (hSeqs : ∀ name, SeqsDiffer (v.tape name))
    (hValid : s.Valid)
    (hBoundary : s.boundary = .inclusive)
    (hNames : (instruments.map Instrument.name).Nodup)
    {reference : Option Int}
    {sink : Sink κ}
    {kept : κ}
    {cancelAt : Option Nat}
    {r : Run Nat κ}
    (hReached :
      let o := v.office s reference sink
      Run.Reaches o (Run.start o 0 kept cancelAt instruments) r)
    {report : Report}
    (hReport : report ∈ r.reports)
    (hState : report.state = .persisted) :
    let i := report.instrument
    Lossless s.partitioning (v.tape i.name)
      (plannedRange s reference (v.tape i.name) i)
      report.gaps
      (Prospect.resultsFor i.name r.depot.handed) := by
  intro i
  rcases
    Prospect.runOk_of_reaches
      (v.prospect hSeqs s hBoundary reference sink) hValid.limits.1
      (fun _ => trivial) trivial hReached with
    ⟨files, hRun⟩
  rw [hRun.reports] at hReport
  rcases List.mem_map.mp hReport with ⟨f, hFile, rfl⟩
  have hInstrument : i = f.desk.instrument :=
    Prospect.instrument_report _ f
  have hLossless :=
    TapeVenue.lossless_file (hRun.filed f hFile) hState
  rw [hInstrument]
  exact hLossless.perm (hRun.resultsFor_perm hNames hFile)

/-
  Runs over tapes lose no trade in silence, whatever the order
  of their moves.  Their settings have passed the checks, walks
  include the instant at which a page was cut, and names tell
  instruments apart.  Every run comes to an end.
-/
theorem Run.reports_lossless
    {κ : Type}
    {v : TapeVenue}
    {s : Settings}
    {instruments : List Instrument}
    (hSeqs : ∀ name, SeqsDiffer (v.tape name))
    (hValid : s.Valid)
    (hBoundary : s.boundary = .inclusive)
    (hNames : (instruments.map Instrument.name).Nodup)
    (reference : Option Int)
    (sink : Sink κ)
    (kept : κ)
    (cancelAt : Option Nat) :
    let o := v.office s reference sink
    let first := Run.start o 0 kept cancelAt instruments
    (Run.Reaches o first (Run.toEnd o first)
        ∧ (Run.toEnd o first).Done)
      ∧ ∀ r,
        Run.Reaches o first r →
          ∀ report ∈ r.reports,
            report.state = .persisted →
              let i := report.instrument
              Lossless s.partitioning (v.tape i.name)
                (plannedRange s reference (v.tape i.name) i)
                report.gaps
                (Prospect.resultsFor i.name r.depot.handed) := by
  intro o first
  refine ⟨Run.ends_toEnd hValid 0 kept cancelAt instruments, ?_⟩
  intro r hReached report hReport hState
  exact
    Run.lossless_of_reaches hSeqs hValid hBoundary hNames hReached
      hReport hState

/- Four trades, of which the last lies where calls fail. -/
def gappedVenue : TapeVenue :=
  { tapes :=
      [("BTC",
        [Trade.synthetic "BTC" 1 5, Trade.synthetic "BTC" 2 5,
          Trade.synthetic "BTC" 3 7, Trade.synthetic "BTC" 4 12])]
    failingInstruments := []
    failingRanges := [⟨"BTC", ⟨10, 19⟩, .timeout "busy"⟩]
    latency := Latency.make? 3 4 }

/- Pages of three trades, and windows of ten milliseconds. -/
def gappedSettings : Settings :=
  { Settings.standard with
    pageSize := 3
    chunkMs := some 10
    partitioning := .perWindow }

/- A run over these, which is canceled when it is over. -/
def gappedRun : Run Nat Shelf :=
  let o := gappedVenue.office gappedSettings none Shelf.sink
  Run.toEnd o
    (Run.start o 0 (Shelf.make none) (some 1000)
      [⟨"BTC", .future, 0, 19⟩])

/- The second window is a gap, and the first is complete. -/
theorem Run.reports_lossless_of_gap :
    ∃ report ∈ gappedRun.reports,
      report.state = .persisted
        ∧ report.gaps.map Gap.window = [.time ⟨10, 19⟩]
        ∧ Lossless .perWindow (gappedVenue.tape "BTC")
          (some (.time ⟨0, 19⟩)) report.gaps
          (Prospect.resultsFor "BTC" gappedRun.depot.handed) := by
  have hReports :
      (gappedRun.reports.map fun report =>
          (report.instrument, report.state,
            report.gaps.map Gap.window))
        = [(⟨"BTC", .future, 0, 19⟩, .persisted,
            [.time ⟨10, 19⟩])] := by
    cbv
  have hSeqs : ∀ name, SeqsDiffer (gappedVenue.tape name) :=
    TapeVenue.seqsDiffer_tape (by decide)
  have hLossless :=
    @Run.reports_lossless Shelf gappedVenue gappedSettings
      [⟨"BTC", .future, 0, 19⟩] hSeqs (by decide) rfl (by decide)
      none Shelf.sink (Shelf.make none) (some 1000)
  rcases List.map_eq_singleton_iff.mp hReports with
    ⟨report, hOnly, hEq⟩
  simp only [Prod.mk.injEq] at hEq
  rcases hEq with ⟨hInstrument, hState, hGaps⟩
  have hMem : report ∈ gappedRun.reports := by
    rw [hOnly]
    exact List.mem_singleton_self report
  rcases hLossless with ⟨⟨hReached, _⟩, hAll⟩
  have hReport := hAll gappedRun hReached report hMem hState
  simp only [hInstrument] at hReport
  exact ⟨report, hMem, hState, hGaps, hReport⟩

end TradeTape
