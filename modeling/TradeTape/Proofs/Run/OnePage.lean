import TradeTape.Proofs.Run.Alone
import TradeTape.Proofs.Run.Calls
import TradeTape.Proofs.Walk.OnePage
import TradeTape.Proofs.Walk.Tapes

/-
  Runs over numbers that ask for one page a window.

  The windows of numbers that a run plans are no longer than
  a page.  So a venue that serves what it is asked for, and
  fails for nothing under a name, gets one look-up for an
  instrument of that name and one query for each window of
  its plan, and the report says so.

  Key statements include:
    * `Venue.Meets`
    * `Venue.Finds`
    * `Office.onePage`
    * `Office.OnePageEach`
    * `Run.one_page_each`
-/

namespace TradeTape

open Trade

------------------------------------------------------------
-- Venues
------------------------------------------------------------

namespace Venue

variable {σ : Type}

/- Queries for the numbers of a name get pages that are met. -/
def Meets
    (v : Venue σ)
    (name : String) : Prop :=
  ∀ s q w,
    q.instrument = name →
    q.window = .seq w →
      ∃ page, (v.page s q).1.result = .ok page ∧ q.Met page

/- Look-ups of a name do not fail. -/
def Finds
    (v : Venue σ)
    (name : String) : Prop :=
  ∀ s endMs,
    ∃ latest, (v.latest s name endMs).1.result = .ok latest

/- The page of a short window ends the walk over it. -/
theorem Meets.answer_eq
    {v : Venue σ}
    {name : String}
    (h : v.Meets name)
    {rules : WalkRules}
    {window : Window}
    (hShort : window.Short rules.pageSize)
    (s : σ) :
    let w := Walk.start rules name window
    ∃ haul,
      w.answer (v.page s w.query).1.result = .ends (.ok haul)
        ∧ haul.requests = 1 := by
  intro w
  cases window with
  | time _ => exact hShort.elim
  | seq window =>
      rcases h s w.query window rfl rfl with ⟨page, hReply, hMet⟩
      rw [hReply]
      exact ⟨_, Walk.answer_of_short hShort hMet, rfl⟩

/- The walk over a short window makes one query. -/
theorem Meets.walk_eq
    {v : Venue σ}
    {name : String}
    (h : v.Meets name)
    {rules : WalkRules}
    (hMaxPages : 0 < rules.maxPages)
    {window : SeqWindow}
    (hShort : (Window.seq window).Short rules.pageSize)
    (s : σ) :
    let w := Walk.start rules name (.seq window)
    ∃ haul after,
      v.walk s w = (.ok haul, [w.query], after)
        ∧ haul.window = .seq window
        ∧ haul.requests = 1 := by
  intro w
  rcases h s w.query window rfl rfl with ⟨page, hReply, hMet⟩
  have hRun :=
    Walk.run_of_short
      (fun s q => ((v.page s q).1.result, (v.page s q).2))
      hMaxPages hShort s hReply hMet
  exact ⟨_, _, hRun, rfl, rfl⟩

end Venue

namespace TapeVenue

variable {v : TapeVenue} {name : String}

/- A tape whose numbers differ is enough. -/
theorem meets
    (hWorks : v.Works name)
    (hSeqs : SeqsDiffer (v.tape name)) :
    v.toVenue.Meets name := by
  rintro s q w rfl _
  refine ⟨_, hWorks.page_eq, Answers.met ?_ hSeqs⟩
  exact answers_page hSeqs hWorks.page_eq

theorem finds
    (hWorks : v.Works name) :
    v.toVenue.Finds name := by
  intro s endMs
  change ∃ latest, v.latest name endMs = .ok latest
  unfold TapeVenue.latest
  rw [hWorks.working]
  exact ⟨_, rfl⟩

end TapeVenue

------------------------------------------------------------
-- Windows of one page
------------------------------------------------------------

namespace Office

variable {σ κ : Type}

/-
  What is known of a run where a name's windows of numbers
  are met: its walks over short windows are as they started,
  and end with a haul of one request.
-/
def onePage
    (o : Office σ κ)
    {name : String}
    (hMeets : o.venue.Meets name)
    (hTimeout : o.settings.taskTimeoutMs = none) :
    Prospect o False :=
  let rules := WalkRules.ofSettings o.settings
  { OnWay := fun w =>
      w.instrument = name →
      w.whole.Short rules.pageSize →
        w = Walk.start rules name w.whole
    Ends := fun other w r =>
      other = name →
      w.Short rules.pageSize →
        ∃ haul, r = .ok haul ∧ haul.requests = 1
    Found := fun other endMs r =>
      ∃ s, (o.venue.latest s other endMs).1.result = r
    Holds := fun _ => True
    Answered := fun _ _ => True
    starts := by
      rintro other w rfl _
      rfl
    goesOn := by
      intro s w w' hOnWay hAsks hName hShort
      rcases Walk.asks_of_answer hAsks with
        ⟨hInstrument, hWhole, _⟩
      rw [hWhole] at hShort
      have hFirst := hOnWay (hInstrument ▸ hName) hShort
      rcases hMeets.answer_eq hShort s with ⟨haul, hEnds, _⟩
      rw [← hFirst, hAsks] at hEnds
      cases hEnds
    ends := by
      intro s w r hOnWay hEnd hName hShort
      have hFirst := hOnWay hName hShort
      rcases hMeets.answer_eq hShort s with ⟨haul, hEnds, hOne⟩
      rw [← hFirst, hEnd] at hEnds
      cases hEnds
      exact ⟨haul, rfl, hOne⟩
    finds := fun s _ _ => ⟨s, rfl⟩
    canceled := False.elim
    lookupCanceled := False.elim
    overdue := by
      intro ms hSome
      rw [hTimeout] at hSome
      cases hSome
    keeps := fun _ _ _ => ⟨trivial, trivial⟩ }

section Plans

variable {o : Office σ κ} {name : String}

theorem pageSize_rules
    (hValid : o.settings.Valid) :
    (WalkRules.ofSettings o.settings).pageSize
      = o.settings.pageSize :=
  Nat.max_eq_left hValid.pageSize.1

/- A plan over numbers is for what was looked up, if anything. -/
theorem planned_cases
    {cancels : Prop}
    {p : Prospect o cancels}
    (hSequence : o.settings.pagination = .sequence)
    {i : Instrument}
    {windows : List Window}
    (hPlanned : p.Planned i windows) :
    (i.validRange o.reference = none ∧ windows = [])
      ∨ ∃ range latest,
        i.validRange o.reference = some range
          ∧ p.Found i.name range.endMs (.ok latest)
          ∧ windows = Desk.seqPlan o.settings latest := by
  unfold Prospect.Planned at hPlanned
  rw [hSequence] at hPlanned
  cases hRange : i.validRange o.reference with
  | none =>
      simp only [hRange] at hPlanned
      exact Or.inl ⟨rfl, hPlanned⟩
  | some range =>
      simp only [hRange] at hPlanned
      rcases hPlanned with ⟨latest, hFound, hWindows⟩
      exact Or.inr ⟨range, latest, rfl, hFound, hWindows⟩

/- A plan over numbers has windows that one page holds. -/
theorem short_of_planned
    {cancels : Prop}
    {p : Prospect o cancels}
    (hValid : o.settings.Valid)
    (hSequence : o.settings.pagination = .sequence)
    {i : Instrument}
    {windows : List Window}
    (hPlanned : p.Planned i windows)
    {w : Window}
    (hw : w ∈ windows) :
    w.Short (WalkRules.ofSettings o.settings).pageSize := by
  rw [pageSize_rules hValid]
  rcases planned_cases hSequence hPlanned with
    ⟨_, rfl⟩ | ⟨range, latest, _, _, rfl⟩
  · cases hw
  · exact Desk.short_of_mem_seqPlan hValid hw

/- So each of its walks makes one call. -/
theorem oneCall_onePage
    (hValid : o.settings.Valid)
    (hSequence : o.settings.pagination = .sequence)
    (hMeets : o.venue.Meets name)
    (hTimeout : o.settings.taskTimeoutMs = none) :
    (o.onePage hMeets hTimeout).OneCall name :=
  { uncanceled := fun h => h
    patient := hTimeout
    first := by
      rintro i windows _ hPlanned w hw u hOnWay hName rfl
      exact
        hOnWay hName (short_of_planned hValid hSequence hPlanned hw)
    ends := by
      intro i windows _ hPlanned w hw s
      have hShort := short_of_planned hValid hSequence hPlanned hw
      rcases hMeets.answer_eq hShort s with ⟨haul, hEnds, _⟩
      exact ⟨_, hEnds⟩ }

end Plans

end Office

------------------------------------------------------------
-- Reports
------------------------------------------------------------

/- Where each walk came home after one request. -/
theorem Outcome.hauls_of_single
    {outcomes : List Outcome}
    (hSingle :
      ∀ out ∈ outcomes,
        ∃ haul, out.walked = .ok haul ∧ haul.requests = 1) :
    (hauls outcomes).length = outcomes.length
      ∧ total ((hauls outcomes).map Haul.requests)
        = outcomes.length := by
  induction outcomes with
  | nil => exact ⟨rfl, rfl⟩
  | cons out rest ih =>
      rcases List.forall_mem_cons.mp hSingle with
        ⟨⟨haul, hWalked, hOne⟩, hRest⟩
      rcases ih hRest with ⟨hLength, hTotal⟩
      have hHauls : hauls (out :: rest) = haul :: hauls rest := by
        unfold hauls
        rw [List.filterMap_cons, hWalked]
        rfl
      rw [hHauls, List.map_cons, List.length_cons,
        List.length_cons, total, hLength, hTotal, hOne]
      omega

/-
  The calls for an instrument and its report: one look-up,
  one page for each window of the plan that follows from it,
  and as many requests reported as windows planned.  Where
  there is no range to plan for, nothing is called for.
-/
def Office.OnePageEach
    {σ κ : Type}
    (o : Office σ κ)
    (report : Report)
    (calls : List Call) : Prop :=
  let name := report.instrument.name
  report.requests = report.windowsPlanned
    ∧ report.windowsOk = report.windowsPlanned
    ∧ report.gaps = []
    ∧ match report.instrument.validRange o.reference with
      | none => report.windowsPlanned = 0 ∧ calls = []
      | some range =>
          ∃ s latest,
            (o.venue.latest s name range.endMs).1.result
                = .ok latest
              ∧ calls.Perm
                (.latest name range.endMs
                  :: (Desk.seqPlan o.settings latest).map fun w =>
                    .page
                      { instrument := name
                        window := w
                        count := o.settings.pageSize })
              ∧ report.windowsPlanned
                = (Desk.seqPlan o.settings latest).length
              ∧ ∀ n,
                  latest = some n →
                  1 ≤ n →
                    (report.windowsPlanned : Int)
                      = (n + (o.settings.pageSize - 1))
                        / o.settings.pageSize

section Files

variable {σ κ : Type} {o : Office σ κ} {name : String}
variable {hMeets : o.venue.Meets name}
variable {hTimeout : o.settings.taskTimeoutMs = none}

/- The walks of such a name came home after one request each. -/
theorem Prospect.Fetched.single
    {d : Desk}
    {windows : List Window}
    (h : (o.onePage hMeets hTimeout).Fetched d windows)
    (hValid : o.settings.Valid)
    (hSequence : o.settings.pagination = .sequence)
    (hName : d.instrument.name = name) :
    ∀ out ∈ d.ordered,
      ∃ haul, out.walked = .ok haul ∧ haul.requests = 1 := by
  intro out hOut
  have hMem := d.ordered_perm.mem_iff.mp hOut
  have hw : out.window ∈ windows :=
    h.share.mem_iff.mp (List.mem_map_of_mem hMem)
  exact
    (h.outcomes out hMem).ends hName
      (Office.short_of_planned hValid hSequence h.planned hw)

/- What is reported of walks of one request each. -/
theorem Prospect.Fetched.report_of_single
    {cancels : Prop}
    {p : Prospect o cancels}
    {f : File κ}
    {windows : List Window}
    (h : p.Fetched f.desk windows)
    (hSingle :
      ∀ out ∈ f.desk.ordered,
        ∃ haul, out.walked = .ok haul ∧ haul.requests = 1) :
    (f.report o).windowsPlanned = windows.length
      ∧ (f.report o).windowsOk = windows.length
      ∧ (f.report o).requests = windows.length
      ∧ (f.report o).gaps = [] := by
  rcases Outcome.hauls_of_single hSingle with ⟨hHauls, hTotal⟩
  have hLength : f.desk.ordered.length = windows.length := by
    rw [← h.windows_ordered, List.length_map]
  have hGaps :
      Outcome.gaps f.desk.instrument.name f.desk.ordered = [] := by
    have hAll :=
      Outcome.length_hauls_add_gaps f.desk.instrument.name
        f.desk.ordered
    apply List.length_eq_zero_iff.mp
    omega
  rw [File.report_of_fetching h.fetching,
    Desk.verdict_eq h.fetching]
  exact
    ⟨h.fields.2.1, hHauls.trans hLength, hTotal.trans hLength,
      hGaps⟩

/- What a desk of a plan has done with is called for. -/
theorem Prospect.Fetched.calls_settled
    {cancels : Prop}
    {p : Prospect o cancels}
    {d : Desk}
    {windows : List Window}
    (h : p.Fetched d windows)
    (hValid : o.settings.Valid) :
    ((d.settled o).map (Duty.call o.settings)).Perm
      ((d.settledLookup o).map (Duty.call o.settings)
        ++ windows.map fun w =>
          .page
            { instrument := d.instrument.name
              window := w
              count := o.settings.pageSize }) := by
  unfold Desk.settled
  rw [List.map_append, List.map_map]
  refine List.Perm.append_left _ ?_
  have hPages := h.share.map fun w =>
    Duty.call o.settings (.walk d.instrument.name w)
  rw [List.map_map] at hPages
  refine hPages.trans (List.Perm.of_eq ?_)
  refine List.map_congr_left fun w _ => ?_
  rw [← Office.pageSize_rules hValid]
  rfl

/- What a file of such a name tells. -/
theorem Prospect.FileOk.onePageEach
    {f : File κ}
    (h : (o.onePage hMeets hTimeout).FileOk f)
    (hValid : o.settings.Valid)
    (hSequence : o.settings.pagination = .sequence)
    (hFinds : o.venue.Finds name)
    (hName : f.desk.instrument.name = name) :
    o.OnePageEach (f.report o)
      ((f.desk.settledFor o name).map (Duty.call o.settings)) := by
  rcases h.shape with
    ⟨range, fault, _, _, ⟨s, hFault⟩, _⟩ | ⟨windows, hFetched⟩
  · -- Its look-up did not fail.
    rcases hFinds s range.endMs with ⟨latest, hLatest⟩
    rw [hName, hLatest] at hFault
    cases hFault
  have hSingle := hFetched.single hValid hSequence hName
  have hCalls := hFetched.calls_settled hValid
  rcases hFetched.report_of_single hSingle with
    ⟨hPlanned, hOk, hRequests, hGaps⟩
  rw [Desk.settledFor_eq hName]
  unfold Office.OnePageEach
  rw [Prospect.instrument_report, hPlanned]
  refine ⟨hRequests, hOk, hGaps, ?_⟩
  rcases Office.planned_cases hSequence hFetched.planned with
    ⟨hRange, rfl⟩ | ⟨range, latest, hRange, ⟨s, hFound⟩, rfl⟩
  · rw [Desk.settledLookup_of_none hRange] at hCalls
    rw [hRange]
    exact ⟨rfl, hCalls.eq_nil⟩
  · have hState :
        ¬(f.desk.life.state = .discovered
          ∨ f.desk.life.state = .planning) := by
      rw [hFetched.fields.1]
      simp [Lifecycle.state]
    rw [Desk.settledLookup_eq hRange hSequence hState] at hCalls
    rw [hRange]
    refine ⟨s, latest, hFound, hCalls, rfl, ?_⟩
    rintro n rfl hSome
    exact Desk.length_seqPlan hValid hSome

end Files

------------------------------------------------------------
-- Whole runs
------------------------------------------------------------

/- Parts that are empty may be left out. -/
theorem flatMap_filter_of_nil
    {α β : Type}
    {P : α → Prop}
    [DecidablePred P]
    {part : α → List β}
    (hNil : ∀ a, ¬P a → part a = [])
    (xs : List α) :
    (xs.filter fun a => P a).flatMap part = xs.flatMap part := by
  induction xs with
  | nil => rfl
  | cons a rest ih =>
      rw [List.filter_cons, List.flatMap_cons]
      by_cases hKept : P a
      · rw [if_pos (decide_eq_true hKept), List.flatMap_cons, ih]
      · rw [if_neg (by simp [hKept]), hNil a hKept, ih,
          List.nil_append]

namespace Run

variable {σ κ : Type} {o : Office σ κ}

/-
  A venue that answers queries for the numbers of a name with
  pages that are met: one query is made for each window of a
  plan, by a walk that succeeds.  So if look-ups of the name
  do not fail and no time is up, the calls under the name are
  shared out among the reports of its instruments, one
  look-up and one page for each window that is planned.  That
  is so for every order of the moves, and every run comes to
  an end.
-/
theorem one_page_each
    (hValid : o.settings.Valid)
    {name : String}
    (hMeets : o.venue.Meets name)
    (venue : σ)
    (kept : κ)
    (instruments : List Instrument) :
    (∀ latest,
        1 ≤ latest →
        ∀ w ∈ Plan.seqWindows o.settings.seqSpan ⟨1, latest⟩,
        ∀ s,
          let walk :=
            Walk.start (WalkRules.ofSettings o.settings) name
              (.seq w)
          ∃ haul after,
            o.venue.walk s walk = (.ok haul, [walk.query], after)
              ∧ haul.window = .seq w
              ∧ haul.requests = 1)
      ∧ (o.settings.pagination = .sequence →
          o.settings.taskTimeoutMs = none →
          o.venue.Finds name →
          let first := start o venue kept none instruments
          (Reaches o first (toEnd o first) ∧ (toEnd o first).Done)
            ∧ ∀ last,
              Reaches o first last →
                last.Done →
                  (last.reports.map Report.instrument).Perm
                      instruments
                    ∧ ∃ shares : List (Report × List Call),
                      shares.map Prod.fst
                          = (last.reports.filter fun report =>
                              report.instrument.name = name)
                        ∧ (callsFor name last.calls).Perm
                          (shares.flatMap Prod.snd)
                        ∧ ∀ share ∈ shares,
                            o.OnePageEach share.1 share.2) := by
  refine ⟨?_, ?_⟩
  · intro latest hSome w hw s
    have hShort :=
      Plan.short_of_mem_seqWindows hValid.seqSpan_eq hSome hw
    rw [← Office.pageSize_rules hValid] at hShort
    exact hMeets.walk_eq (WalkRules.maxPages_pos _) hShort s
  · intro hSequence hTimeout hFinds first
    refine ⟨ends_toEnd hValid venue kept none instruments, ?_⟩
    intro last hReached hDone
    let p := o.onePage hMeets hTimeout
    have hOne := Office.oneCall_onePage hValid hSequence hMeets hTimeout
    rcases
      Prospect.exists_ledger (p := p) hOne hValid.limits.1 trivial
        hReached with
      ⟨files, hRun, hLedger⟩
    have hCalls := Prospect.calls_of_done hRun hLedger hDone
    have hInstruments := (hRun.files_of_done hDone).1
    let own := files.filter fun f => f.desk.instrument.name = name
    refine
      ⟨?_,
        own.map fun f =>
          (f.report o,
            (f.desk.settledFor o name).map (Duty.call o.settings)),
        ?_, ?_, ?_⟩
    · rw [hRun.reports, List.map_map]
      refine List.Perm.trans (List.Perm.of_eq ?_) hInstruments
      exact List.map_congr_left fun f _ =>
        Prospect.instrument_report o f
    · rw [hRun.reports, List.filter_map, List.map_map]
      refine congrArg (List.map (File.report o)) ?_
      refine List.filter_congr fun f _ => ?_
      rw [Function.comp_apply, Prospect.instrument_report]
    · refine hCalls.trans (List.Perm.of_eq ?_)
      rw [List.flatMap_map]
      refine (flatMap_filter_of_nil ?_ files).symm
      intro f hOther
      rw [Desk.settledFor_of_ne hOther]
      rfl
    · intro share hShare
      rcases List.mem_map.mp hShare with ⟨f, hf, rfl⟩
      rcases List.mem_filter.mp hf with ⟨hFile, hName⟩
      exact
        (hRun.filed f hFile).onePageEach hValid hSequence hFinds
          (of_decide_eq_true hName)

/- Four trades that are not in the order of their numbers. -/
def strideTape : List Trade :=
  [Trade.synthetic "BTC" 5 3, Trade.synthetic "BTC" 1 4,
    Trade.synthetic "BTC" 9 6, Trade.synthetic "BTC" 2 8]

/- A venue with these trades, at which another name fails. -/
def strideVenue : TapeVenue :=
  { tapes := [("BTC", strideTape)]
    failingInstruments := [("ETH", .timeout "busy")]
    failingRanges := []
    latency := Latency.make? 3 4 }

/- Windows of four numbers, and one page for each at most. -/
def strideOffice : Office Nat Shelf :=
  strideVenue.office
    { Settings.standard with
      pageSize := 4
      maxPages := 1
      pagination := .sequence
      taskTimeoutMs := none }
    none Shelf.sink

/- Nine numbers make three windows and three requests. -/
theorem one_page_each_of_strides :
    let i : Instrument := ⟨"BTC", .future, 0, 19⟩
    let last :=
      toEnd strideOffice
        (start strideOffice 0 (Shelf.make none) none
          [⟨"ETH", .future, 0, 19⟩, i])
    (∃ haul after,
      strideVenue.toVenue.walk 0
          (Walk.start (WalkRules.ofSettings strideOffice.settings)
            "BTC" (.seq ⟨5, 8⟩))
        = (.ok haul, [⟨"BTC", .seq ⟨5, 8⟩, 4⟩], after)
        ∧ haul.requests = 1)
      ∧ ∃ report ∈ last.reports,
        report.instrument = i
          ∧ report.windowsPlanned = 3
          ∧ report.requests = 3
          ∧ (callsFor "BTC" last.calls).Perm
            [.latest "BTC" 19,
              .page ⟨"BTC", .seq ⟨1, 4⟩, 4⟩,
              .page ⟨"BTC", .seq ⟨5, 8⟩, 4⟩,
              .page ⟨"BTC", .seq ⟨9, 9⟩, 4⟩] := by
  intro i last
  have hSame : strideVenue.tape "BTC" = strideTape :=
    List.mergeSort_of_pairwise (by decide)
  have hWorks : strideVenue.Works "BTC" := ⟨by decide, by decide⟩
  have hSeqs : SeqsDiffer (strideVenue.tape "BTC") := by
    rw [hSame]
    decide
  have hEach :=
    one_page_each (o := strideOffice) (by decide)
      (TapeVenue.meets hWorks hSeqs) 0 (Shelf.make none)
      [⟨"ETH", .future, 0, 19⟩, i]
  rcases hEach with ⟨hWalks, hRun⟩
  rcases hRun rfl rfl (TapeVenue.finds hWorks) with
    ⟨⟨hReached, hDone⟩, hAll⟩
  rcases hAll last hReached hDone with
    ⟨hInstruments, shares, hReports, hCalls, hShares⟩
  refine ⟨?_, ?_⟩
  · rcases hWalks 9 (by decide) ⟨5, 8⟩ (by decide) 0 with
      ⟨haul, after, hWalk, _, hOne⟩
    exact ⟨haul, after, hWalk, hOne⟩
  · -- One report is for the name, and one share of the calls.
    have hOwn :
        (shares.map Prod.fst).map Report.instrument = [i] := by
      have hPerm :=
        hInstruments.filter fun i : Instrument => i.name = "BTC"
      rw [List.filter_map] at hPerm
      rw [hReports]
      exact List.perm_singleton.mp hPerm
    rcases List.map_eq_singleton_iff.mp hOwn with
      ⟨report, hOwn, hInstrument⟩
    rcases List.map_eq_singleton_iff.mp hOwn with
      ⟨share, rfl, rfl⟩
    have hReport : share.1 ∈ last.reports := by
      have hFiled : share.1 ∈ [share].map Prod.fst :=
        List.mem_singleton_self _
      rw [hReports] at hFiled
      exact List.mem_of_mem_filter hFiled
    rw [List.flatMap_singleton] at hCalls
    rcases hShares share (List.mem_singleton_self _) with
      ⟨hRequests, _, _, hPlan⟩
    rw [hInstrument] at hPlan
    rcases hPlan with ⟨s, latest, hLatest, hPages, hPlanned, _⟩
    have hNine : latest = some 9 := by
      change strideVenue.latest "BTC" 19 = .ok latest at hLatest
      rw [TapeVenue.latest_eq_ok hLatest, hSame]
      decide
    rw [hNine] at hPages hPlanned
    exact
      ⟨share.1, hReport, hInstrument, hPlanned,
        hRequests.trans hPlanned, hCalls.trans hPages⟩

end Run

end TradeTape
