import TradeTape.Backfill.Summary
import TradeTape.Proofs.Run.Consistency
import TradeTape.Proofs.Run.Handing

/-
  The accounts of a run balance.

  A summary is folded from the reports of a run, one after the
  other.  Its totals are the totals over these reports, in
  whatever order they come.  What a report says was kept is
  what the sink has accepted of its instrument, and so the
  trades of the summary are those that the sink has accepted
  in the whole run.

  Key definitions include:
    * `Report.failed?`
    * `Summary.SameTotals`
    * `Summary.Balanced`

  Key statements include:
    * `Summary.ofReports_eq`
    * `Summary.ofReports_perm`
    * `File.stored_perm_kept`
    * `Run.lt_of_recounted`
    * `Run.offersIn_perm`
    * `Run.trades_accepted`
    * `Run.summaries_balance`
-/

namespace TradeTape

------------------------------------------------------------
-- Summaries
------------------------------------------------------------

/- What a summary notes of an instrument that was not kept. -/
def Report.failed? (r : Report) : Option (String × String) :=
  if r.state = .persisted then none
  else
    some (r.instrument.name, (r.failure.map Failure.message).getD "")

namespace Summary

theorem ofReports_concat (reports : List Report) (r : Report) :
    ofReports (reports ++ [r])
      = (ofReports reports).record r.account :=
  List.foldl_concat _ _ _ _

/- Each field of a summary is a total over the reports. -/
theorem ofReports_eq (reports : List Report) :
    ofReports reports =
      { instruments := reports.length
        persisted := reports.countP fun r => r.state = .persisted
        incomplete := reports.countP fun r => r.Partial
        failed := reports.filterMap Report.failed?
        windowsPlanned := total (reports.map Report.windowsPlanned)
        windowsOk := total (reports.map Report.windowsOk)
        trades := total (reports.map Report.trades)
        requests := total (reports.map Report.requests)
        gaps := reports.flatMap Report.gaps } := by
  induction reports using List.reverseRecOn with
  | nil => rfl
  | append_singleton rest r ih =>
      rw [ofReports_concat, ih]
      unfold record Account.Partial Report.Partial
      by_cases hKept : r.state = .persisted <;>
        simp [Report.account, Report.failed?, total_eq_sum, hKept,
          List.countP_append]

/- Every instrument was kept, or is named as failed. -/
theorem instruments_ofReports (reports : List Report) :
    (ofReports reports).instruments
      = (ofReports reports).persisted
        + (ofReports reports).failed.length := by
  rw [ofReports_eq]
  simp only
  induction reports with
  | nil => rfl
  | cons r rest ih =>
      rw [List.length_cons, ih, List.countP_cons,
        List.filterMap_cons, Report.failed?]
      by_cases hKept : r.state = .persisted <;> simp [hKept] <;> omega

theorem success_ofReports (reports : List Report) :
    (ofReports reports).Success ↔
      ∀ r ∈ reports, r.state = .persisted := by
  unfold Success
  rw [ofReports_eq, List.filterMap_eq_nil_iff]
  unfold Report.failed?
  simp

/-
  Two summaries that have the same totals, and name the same
  failures and gaps, if in another order.
-/
structure SameTotals (s t : Summary) : Prop where
  instruments : s.instruments = t.instruments
  persisted : s.persisted = t.persisted
  incomplete : s.incomplete = t.incomplete
  failed : s.failed.Perm t.failed
  windowsPlanned : s.windowsPlanned = t.windowsPlanned
  windowsOk : s.windowsOk = t.windowsOk
  trades : s.trades = t.trades
  requests : s.requests = t.requests
  gaps : s.gaps.Perm t.gaps

/- The order of the reports does not matter. -/
theorem ofReports_perm
    {reports others : List Report}
    (h : reports.Perm others) :
    (ofReports reports).SameTotals (ofReports others) := by
  have hTotal (count : Report → Nat) :
      total (reports.map count) = total (others.map count) := by
    rw [total_eq_sum, total_eq_sum]
    exact (h.map count).sum_eq
  rw [ofReports_eq, ofReports_eq]
  exact
    { instruments := h.length_eq
      persisted := h.countP_eq _
      incomplete := h.countP_eq _
      failed := h.filterMap _
      windowsPlanned := hTotal _
      windowsOk := hTotal _
      trades := hTotal _
      requests := hTotal _
      gaps := h.flatMap fun _ _ => List.Perm.refl _ }

/-
  A summary that balances, with the reports that it is made of
  and with the results that a sink has accepted.
-/
structure Balanced
    (s : Summary)
    (reports : List Report)
    (accepted : List Result) : Prop where
  instruments : s.instruments = reports.length
  ended : s.instruments = s.persisted + s.failed.length
  incomplete : s.incomplete = reports.countP fun r => r.Partial
  failed : s.failed.Perm (reports.filterMap Report.failed?)
  windows : s.windowsPlanned = s.windowsOk + s.gaps.length
  trades :
    s.trades = total (accepted.map fun result => result.trades.length)
  gaps : s.gaps.Perm (reports.flatMap Report.gaps)
  success : s.Success ↔ ∀ r ∈ reports, r.state = .persisted

/- Reports whose windows and trades balance one by one. -/
theorem balanced_ofReports
    {reports : List Report}
    {accepted : List Result}
    (hWindows :
      ∀ r ∈ reports, r.windowsPlanned = r.windowsOk + r.gaps.length)
    (hTrades :
      total (reports.map Report.trades)
        = total (accepted.map fun result => result.trades.length)) :
    (ofReports reports).Balanced reports accepted := by
  have hEnded := instruments_ofReports reports
  have hSuccess := success_ofReports reports
  rw [ofReports_eq] at hEnded hSuccess ⊢
  refine
    { instruments := rfl
      ended := hEnded
      incomplete := rfl
      failed := List.Perm.refl _
      windows := ?_
      trades := hTrades
      gaps := List.Perm.refl _
      success := hSuccess }
  simp only [total_eq_sum, List.length_flatMap, ← List.sum_map_add]
  exact congrArg List.sum (List.map_congr_left hWindows)

/- A summary balances in every order of its reports. -/
theorem Balanced.of_sameTotals
    {s t : Summary}
    {reports : List Report}
    {accepted : List Result}
    (h : t.Balanced reports accepted)
    (hSame : s.SameTotals t) :
    s.Balanced reports accepted := by
  refine
    { instruments := hSame.instruments.trans h.instruments
      ended := ?_
      incomplete := hSame.incomplete.trans h.incomplete
      failed := hSame.failed.trans h.failed
      windows := ?_
      trades := hSame.trades.trans h.trades
      gaps := hSame.gaps.trans h.gaps
      success := ?_ }
  · rw [hSame.instruments, hSame.persisted, hSame.failed.length_eq]
    exact h.ended
  · rw [hSame.windowsPlanned, hSame.windowsOk, hSame.gaps.length_eq]
    exact h.windows
  · refine Iff.trans ?_ h.success
    unfold Success
    constructor
    · intro hNone
      exact (hNone ▸ hSame.failed).nil_eq.symm
    · intro hNone
      exact (hNone ▸ hSame.failed).eq_nil

end Summary

------------------------------------------------------------
-- What was kept of an instrument
------------------------------------------------------------

namespace File

variable {σ κ : Type} {o : Office σ κ} {f : File κ}

/- The sink has accepted a whole instrument, or nothing. -/
theorem kept_of_whole
    {windows : List Window}
    (h : (Prospect.anything o).Fetched f.desk windows)
    (hWhole : o.settings.partitioning = .perInstrument)
    (looked : List (Except Fault (Option Int))) :
    (f.fetchedStory o looked).kept
      = (f.desk.verdictStored? (f.lastAnswer o)).toList := by
  have hReason := h.sinkReason?_eq_none hWhole
  have hLast := File.last_of_fetching (o := o) h.fetching
  have hNoOffer := filterMap_offer?_of_whole hWhole f.desk
  unfold Story.kept fetchedStory Desk.verdictStored? lastAnswer
  simp only [hReason, hNoOffer, hLast, List.nil_append]
  cases f.desk.lastResult? o.settings with
  | none => rfl
  | some result =>
      simp only [Option.toList_some, Option.map_some, List.map_cons,
        List.map_nil, List.filterMap_cons, List.filterMap_nil]
      cases (f.depot.keep o.sink result).1 <;> rfl

/- A report names what the sink has accepted, and no more. -/
theorem stored_perm_kept
    {journal : List Note}
    (hOk : (Prospect.anything o).FileOk f)
    (hRecorded : f.Recorded o (deedsAt f.desk.position journal)) :
    (f.report o).stored.Perm
      (Story.of (deedsAt f.desk.position journal)).kept := by
  rcases story_of_recorded hOk hRecorded with
    ⟨fault, _, hDesk, hIs⟩
      | ⟨planned, looked, windows, _, hFetched, hLength, hOutcomes,
        hIs⟩
  · have hNone :=
      (consistent_of_unplanned (o := o) hDesk).unplanned fault rfl
    rw [hIs, hNone.2.2.2.2.2]
    exact List.Perm.refl _
  · rw [hIs]
    cases hPartitioning : o.settings.partitioning with
    | perWindow =>
        have hConsistent :=
          consistent_of_fetched hFetched hLength hOutcomes looked
        exact (hConsistent.windows hPartitioning).2.1
    | perInstrument =>
        have hReport :=
          (File.report_of_fetching (o := o) hFetched.fetching).trans
            (Desk.verdict_eq hFetched.fetching (f.lastAnswer o))
        have hNone :=
          (whole_of_fetched hFetched hPartitioning looked).1
        rw [hReport, kept_of_whole hFetched hPartitioning]
        simp only [hNone, List.nil_append]
        exact List.Perm.refl _

/- The windows of a report are fetched or named as gaps. -/
theorem windows_of_recorded
    {journal : List Note}
    (hOk : (Prospect.anything o).FileOk f)
    (hRecorded : f.Recorded o (deedsAt f.desk.position journal)) :
    (f.report o).windowsPlanned
      = (f.report o).windowsOk + (f.report o).gaps.length := by
  rcases (accounts_of_recorded hOk hRecorded).agrees with
    ⟨plan, _, hConsistent⟩
  cases plan with
  | ok windows => exact (hConsistent.planned windows rfl).2.2.2
  | error fault =>
      rcases hConsistent.unplanned fault rfl with
        ⟨hPlanned, hOk, _, _, hGaps, _⟩
      rw [hPlanned, hOk, hGaps]
      rfl

/- The trades of a report are those that the sink accepted. -/
theorem trades_of_recorded
    {journal : List Note}
    (hOk : (Prospect.anything o).FileOk f)
    (hRecorded : f.Recorded o (deedsAt f.desk.position journal)) :
    (f.report o).trades =
      total
        ((Story.of (deedsAt f.desk.position journal)).kept.map
          Stored.trades) := by
  rcases (accounts_of_recorded hOk hRecorded).agrees with
    ⟨_, _, hConsistent⟩
  rw [hConsistent.trades, total_eq_sum, total_eq_sum]
  exact ((stored_perm_kept hOk hRecorded).map Stored.trades).sum_eq

end File

------------------------------------------------------------
-- Places in a journal
------------------------------------------------------------

/- What has one of several keys, sorted by its key. -/
theorem perm_flatMap_filter
    {α β : Type}
    [DecidableEq β]
    (key : α → β)
    {keys : List β}
    (hNodup : keys.Nodup)
    {entries : List α}
    (hKeys : ∀ a ∈ entries, key a ∈ keys) :
    entries.Perm
      (keys.flatMap fun k => entries.filter fun a => key a = k) := by
  induction keys generalizing entries with
  | nil =>
      have hNone : entries = [] := by
        apply List.eq_nil_iff_forall_not_mem.mpr
        intro a ha
        exact List.not_mem_nil (hKeys a ha)
      rw [hNone]
      exact List.Perm.refl _
  | cons k rest ih =>
      rcases List.nodup_cons.mp hNodup with ⟨hFresh, hRest⟩
      let others := entries.filter fun a => !decide (key a = k)
      have hOthers :
          others.Perm
            (rest.flatMap fun k => others.filter fun a => key a = k) := by
        apply ih hRest
        intro a ha
        rcases List.mem_filter.mp ha with ⟨hMem, hNot⟩
        rcases List.mem_cons.mp (hKeys a hMem) with hIs | hLater
        · simp [hIs] at hNot
        · exact hLater
      have hSame (k' : β) (hk' : k' ∈ rest) :
          (others.filter fun a => key a = k')
            = entries.filter fun a => key a = k' := by
        rw [List.filter_filter]
        apply List.filter_congr
        intro a _
        have hNot : k' ≠ k := by
          rintro rfl
          exact hFresh hk'
        by_cases hKey : key a = k' <;> simp [hKey, hNot]
      rw [List.flatMap_congr hSame] at hOthers
      exact
        (List.filter_append_perm _ entries).symm.trans
          (hOthers.append_left _)

namespace Run

variable {σ κ : Type} {o : Office σ κ}
variable {r r' : Run σ κ}

/- What is told of a step is told of a desk. -/
theorem Told.exists_desk
    {news : List Note}
    (h : Told o r news r')
    {n : Note}
    (hNote : n ∈ news) :
    ∃ d ∈ r.desks, n.position = d.position := by
  have hNotes (position : Nat) (deeds : List Deed)
      (hIn : n ∈ r.notes position deeds) : n.position = position := by
    rcases List.mem_map.mp hIn with ⟨_, _, rfl⟩
    rfl
  cases h with
  | opens _ _ _ _ => cases hNote
  | waits _ _ => cases hNote
  | works d _ _ hDesk hWork =>
      refine ⟨d, hDesk, ?_⟩
      cases hWork with
      | plans _ => cases hNote
      | starts _ _ _ => cases hNote
      | serves j _ _ hGroup =>
          unfold serveDeeds at hNote
          split at hNote
          · cases hNote
          · exact (hNotes _ _ hNote).trans hGroup
      | closes _ _ _ => exact hNotes _ _ hNote

/- A journal tells of nothing but the entries of the list. -/
theorem lt_of_recounted
    (hCeiling : 0 < o.settings.maxInFlight)
    {venue : σ}
    {kept : κ}
    {cancelAt : Option Nat}
    {instruments : List Instrument}
    {journal : List Note}
    (h : Recounted o (start o venue kept cancelAt instruments) journal r)
    {n : Note}
    (hNote : n ∈ journal) :
    n.position < instruments.length := by
  induction h with
  | stays => cases hNote
  | turns f _ ih => exact ih hNote
  | moves hSoFar hTold ih =>
      rcases List.mem_append.mp hNote with hOld | hNew
      · exact ih hOld
      · rcases hTold.exists_desk hNew with ⟨d, hDesk, hIs⟩
        rcases Chronicle.of_recounted hCeiling hSoFar with
          ⟨files, hChronicle⟩
        have hPlace :=
          hChronicle.places.mem_iff.mp
            (List.mem_append_left _
              (List.mem_append_right _
                (List.mem_map_of_mem (f := Desk.place) hDesk)))
        rw [hIs]
        exact
          (List.getElem?_eq_some_iff.mp (mem_places_iff.mp hPlace)).1

------------------------------------------------------------
-- Whole runs
------------------------------------------------------------

variable {instruments : List Instrument} {files : List (File κ)}
variable {journal : List Note}

/- What is offered in a run, sorted by the entries of its list. -/
theorem offersIn_perm
    (hPlaces :
      (files.map fun f => f.desk.place).Perm
        ((List.range instruments.length).zip instruments))
    (hWithin : ∀ n ∈ journal, n.position < instruments.length) :
    (offersIn journal).Perm
      (files.flatMap fun f =>
        (Story.of (deedsAt f.desk.position journal)).offers) := by
  let positions := files.map fun f => f.desk.position
  have hRange : positions.Perm (List.range instruments.length) := by
    have hFirsts := hPlaces.map Prod.fst
    rw [List.map_map, List.map_fst_zip (by simp)] at hFirsts
    exact hFirsts
  have hNotes :
      journal.Perm
        (positions.flatMap fun position =>
          journal.filter fun n => n.position = position) := by
    apply perm_flatMap_filter Note.position
    · exact hRange.nodup_iff.mpr List.nodup_range
    · intro n hNote
      exact hRange.mem_iff.mpr (List.mem_range.mpr (hWithin n hNote))
  have hOffers :=
    (hNotes.map Note.deed).filterMap Deed.offer?
  rw [List.map_flatMap, List.filterMap_flatMap,
    List.flatMap_map] at hOffers
  exact hOffers

/- The trades of all reports are those that the sink accepted. -/
theorem trades_accepted
    (h : Chronicle o instruments r files journal)
    (hPlaces :
      (files.map fun f => f.desk.place).Perm
        ((List.range instruments.length).zip instruments))
    (hWithin : ∀ n ∈ journal, n.position < instruments.length)
    {kept : κ}
    (hHanded : Handed o kept journal r) :
    total (r.reports.map Report.trades)
      = total
        ((o.sink.accepted kept r.depot.handed).map fun result =>
          result.trades.length) := by
  have hReports : r.reports = files.map (File.report o) :=
    h.run.reports
  have hKept :
      ((offersIn journal).filterMap fun offer =>
          offer.2.toOption).map Stored.trades
        = (o.sink.accepted kept r.depot.handed).map fun result =>
          result.trades.length := by
    rw [hHanded.answers]
    unfold Sink.accepted
    rw [List.filterMap_map, List.map_filterMap, List.map_filterMap]
    apply List.filterMap_congr
    rintro ⟨result, answer⟩ _
    cases answer <;> rfl
  have hSorted :=
    ((offersIn_perm hPlaces hWithin).filterMap fun offer =>
      offer.2.toOption).map Stored.trades
  rw [List.filterMap_flatMap, List.map_flatMap] at hSorted
  rw [← hKept, total_eq_sum, total_eq_sum, hSorted.sum_eq,
    List.flatMap_def, List.sum_flatten, hReports, List.map_map,
    List.map_map]
  apply congrArg List.sum
  apply List.map_congr_left
  intro f hFile
  have hTrades :=
    File.trades_of_recorded (h.run.filed f hFile) (h.filed f hFile)
  exact hTrades.trans (total_eq_sum _)

/-
  A run that is done, whatever the order of its moves, and
  whatever a venue and a sink do.  The summary of its reports
  balances, and it does so in whatever order they are
  recorded: there is a report for each entry of the list, kept
  or failed, each planned window is fetched or a gap, and the
  trades are those that the sink has accepted.  Every run
  comes to such an end.
-/
theorem summaries_balance
    (hValid : o.settings.Valid)
    (venue : σ)
    (kept : κ)
    (cancelAt : Option Nat)
    (instruments : List Instrument) :
    let first := start o venue kept cancelAt instruments
    (Reaches o first (toEnd o first) ∧ (toEnd o first).Done)
      ∧ ∀ r,
        Reaches o first r →
          r.Done →
            ∀ reports,
              reports.Perm r.reports →
                (Summary.ofReports reports).instruments
                    = instruments.length
                  ∧ (Summary.ofReports reports).Balanced r.reports
                    (o.sink.accepted kept r.depot.handed)
                  ∧ ∀ others,
                    others.Perm r.reports →
                      (Summary.ofReports reports).SameTotals
                        (Summary.ofReports others) := by
  intro first
  refine ⟨ends_toEnd hValid venue kept cancelAt instruments, ?_⟩
  intro r hReached hDone reports hOrder
  rcases hReached.exists_recounted with ⟨journal, hRecounted⟩
  rcases Chronicle.of_recounted hValid.limits.1 hRecounted with
    ⟨files, h⟩
  have hPlaces := h.places_of_done hDone
  have hReports : r.reports = files.map (File.report o) :=
    h.run.reports
  have hBalanced :
      (Summary.ofReports r.reports).Balanced r.reports
        (o.sink.accepted kept r.depot.handed) := by
    apply Summary.balanced_ofReports
    · intro report hReport
      rw [hReports] at hReport
      rcases List.mem_map.mp hReport with ⟨f, hFile, rfl⟩
      exact
        File.windows_of_recorded (h.run.filed f hFile)
          (h.filed f hFile)
    · apply trades_accepted h hPlaces
      · intro n hNote
        exact lt_of_recounted hValid.limits.1 hRecounted hNote
      · exact handed_of_recounted hRecounted
  have hSame := Summary.ofReports_perm hOrder
  refine ⟨?_, hBalanced.of_sameTotals hSame, ?_⟩
  · rw [hSame.instruments, hBalanced.instruments,
      h.length_reports_of_done hDone]
  · intro others hOthers
    exact Summary.ofReports_perm (hOrder.trans hOthers.symm)

/-
  Of four windows one is a gap, and one of two instruments has
  failed, since the sink had room for two trades only.  The
  reports are recorded from the last to the first.
-/
theorem summaries_balance_of_full_sink :
    let o := crowdedVenue.office crowdedSettings none roomySink
    let r :=
      toEnd o
        (start o 0 1 none
          [⟨"BTC", .future, 0, 17⟩, ⟨"ETH", .future, 0, 5⟩])
    let s := Summary.ofReports r.reports.reverse
    s =
        { instruments := 2
          persisted := 1
          incomplete := 0
          failed := [("BTC", "sink failed: full")]
          windowsPlanned := 4
          windowsOk := 3
          trades := 2
          requests := 3
          gaps := [⟨"BTC", .time ⟨12, 17⟩, .timeout "busy"⟩] }
      ∧ s.Balanced r.reports (o.sink.accepted 1 r.depot.handed) := by
  intro o
  have hReports :
      (toEnd o
          (start o 0 1 none
            [⟨"BTC", .future, 0, 17⟩, ⟨"ETH", .future, 0, 5⟩])).reports =
        [{ instrument := ⟨"ETH", .future, 0, 5⟩
           state := .persisted
           windowsPlanned := 1
           windowsOk := 1
           requests := 1
           trades := 0
           stored := []
           gaps := []
           failure := none },
          { instrument := ⟨"BTC", .future, 0, 17⟩
            state := .failed
            windowsPlanned := 3
            windowsOk := 2
            requests := 2
            trades := 2
            stored := [⟨"BTC_0_5", some (.time ⟨0, 5⟩), 2⟩]
            gaps := [⟨"BTC", .time ⟨12, 17⟩, .timeout "busy"⟩]
            failure := some (.sink "full") }] := by
    cbv
  intro r s
  have hBalance :=
    @summaries_balance Nat Nat o (by decide) 0 1 none
      [⟨"BTC", .future, 0, 17⟩, ⟨"ETH", .future, 0, 5⟩]
  rcases hBalance with ⟨⟨hReached, hDone⟩, hAll⟩
  constructor
  · change Summary.ofReports r.reports.reverse = _
    rw [hReports]
    decide
  · exact
      (hAll r hReached hDone r.reports.reverse
        (List.reverse_perm r.reports)).2.1

end Run

end TradeTape
