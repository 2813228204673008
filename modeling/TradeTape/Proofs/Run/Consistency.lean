import TradeTape.Proofs.Run.Alone
import TradeTape.Proofs.Run.Chronicle

/-
  Reports agree with what came to pass.

  A report counts windows, requests and trades, names gaps
  and what was kept, and says whether the instrument failed.
  All of it follows from the deeds of the instrument: from
  what its look-up has found, from how its walks have ended
  and from what the sink has answered.

  Key statements include:
    * `Story`
    * `Consistent`
    * `Accounts`
    * `File.consistent_of_fetched`
    * `Run.reports_consistent`
-/

namespace TradeTape

------------------------------------------------------------
-- Stories
------------------------------------------------------------

/- The deeds of an instrument, sorted by their kind. -/
structure Story where
  finds : List (Except Fault (Option Int))
  walks : List (Window × Except Fault Haul)
  offers : List (Result × Except String Stored)
  reports : List Report

namespace Story

/- The story that deeds tell. -/
def of (deeds : List Deed) : Story :=
  { finds := deeds.filterMap Deed.find?
    walks := deeds.filterMap Deed.walk?
    offers := deeds.filterMap Deed.offer?
    reports := deeds.filterMap Deed.report? }

/- The hauls of the walks that came to their end. -/
def hauls (story : Story) : List Haul :=
  story.walks.filterMap fun walk => walk.2.toOption

/- The windows whose walks failed. -/
def gaps
    (name : String)
    (story : Story) : List Gap :=
  story.walks.filterMap fun walk =>
    match walk.2 with
    | .ok _ => none
    | .error f =>
        some { instrument := name, window := walk.1, fault := f }

/- The results of the windows that were not empty. -/
def windowResults
    (s : Settings)
    (i : Instrument)
    (story : Story) : List Result :=
  story.walks.filterMap fun walk =>
    Desk.windowResult? s i walk.1 walk.2

/- What the sink has kept. -/
def kept (story : Story) : List Stored :=
  story.offers.filterMap fun offer => offer.2.toOption

end Story

/-
  A report that agrees with the story of its instrument and
  with the plan that was made for it, if one was made.
-/
structure Consistent
    (s : Settings)
    (i : Instrument)
    (plan : Except Fault (List Window))
    (story : Story)
    (report : Report) : Prop where
  instrument : report.instrument = i
  accepted : ∀ refusal, report.failure ≠ some (.refused refusal)
  ended : report.state = .persisted ∨ report.state = .failed
  failure : report.failure.isSome = true ↔ report.state = .failed
  failed :
    report.state = .failed ↔
      (∃ fault, plan = .error fault)
        ∨ (∃ result reason,
            (result, .error reason) ∈ story.offers)
        ∨ ((∃ windows, plan = .ok windows ∧ windows ≠ [])
            ∧ story.hauls = [])
  planned :
    ∀ windows,
      plan = .ok windows →
        (story.walks.map Prod.fst).Perm windows
          ∧ report.windowsPlanned = windows.length
          ∧ report.windowsOk = story.hauls.length
          ∧ report.windowsPlanned
            = report.windowsOk + report.gaps.length
  unplanned :
    ∀ fault,
      plan = .error fault →
        report.windowsPlanned = 0
          ∧ report.windowsOk = 0
          ∧ report.requests = 0
          ∧ report.trades = 0
          ∧ report.gaps = []
          ∧ report.stored = []
  requests :
    report.requests = total (story.hauls.map Haul.requests)
  trades :
    report.trades = total (report.stored.map Stored.trades)
  gaps : report.gaps.Perm (story.gaps i.name)
  gapsAscend :
    (report.gaps.map Gap.window).Pairwise Window.Precedes
  whole :
    s.partitioning = .perInstrument →
      (report.state = .persisted →
        ∃ result,
          result.window = none
            ∧ story.offers = [(result, .ok result.stored)]
            ∧ report.stored = [result.stored])
        ∧ (report.state = .failed → report.stored = [])
  windows :
    s.partitioning = .perWindow →
      story.offers.map Prod.fst = story.windowResults s i
        ∧ report.stored.Perm story.kept
        ∧ (∃ ascending : List Window,
            ascending.Pairwise Window.Precedes
              ∧ report.stored.map Stored.window
                = ascending.map some)
        ∧ (report.state = .persisted →
            report.stored.Perm
              ((story.windowResults s i).map Result.stored))

/-
  A report accounts for the deeds at a position: it is the
  only one, and it agrees with them.
-/
structure Accounts
    {σ κ : Type}
    (o : Office σ κ)
    (journal : List Note)
    (position : Nat)
    (i : Instrument)
    (report : Report) : Prop where
  only : (Story.of (deedsAt position journal)).reports = [report]
  agrees :
    ∃ plan,
      Plans o.settings o.reference i
          (Story.of (deedsAt position journal)).finds plan
        ∧ Consistent o.settings i plan
          (Story.of (deedsAt position journal)) report

------------------------------------------------------------
-- Stories of desks
------------------------------------------------------------

namespace Story

theorem of_append (deeds more : List Deed) :
    Story.of (deeds ++ more) =
      { finds := (Story.of deeds).finds ++ (Story.of more).finds
        walks := (Story.of deeds).walks ++ (Story.of more).walks
        offers := (Story.of deeds).offers ++ (Story.of more).offers
        reports :=
          (Story.of deeds).reports ++ (Story.of more).reports } := by
  unfold Story.of
  simp only [List.filterMap_append]

/- What look-ups come to. -/
theorem of_finds (finds : List (Except Fault (Option Int))) :
    Story.of (finds.map .found) =
      { finds := finds, walks := [], offers := [], reports := [] } := by
  induction finds with
  | nil => rfl
  | cons found rest ih =>
      rw [List.map_cons, ← List.singleton_append, of_append, ih]
      rfl

/- What offers come to. -/
theorem of_offers (offers : List (Result × Except String Stored)) :
    Story.of (offers.map fun offer => .offered offer.1 offer.2) =
      { finds := [], walks := [], offers := offers, reports := [] } := by
  induction offers with
  | nil => rfl
  | cons offer rest ih =>
      rw [List.map_cons, ← List.singleton_append, of_append, ih]
      rfl

/- What the outcomes of a desk come to. -/
theorem of_outcomes
    (s : Settings)
    (i : Instrument)
    (outcomes : List Outcome) :
    Story.of (outcomes.flatMap (Outcome.deeds s i)) =
      { finds := []
        walks := outcomes.map fun out => (out.window, out.walked)
        offers := outcomes.filterMap (Outcome.offer? s i)
        reports := [] } := by
  induction outcomes with
  | nil => rfl
  | cons out rest ih =>
      have hFirst :
          Story.of (Outcome.deeds s i out) =
            { finds := []
              walks := [(out.window, out.walked)]
              offers := (out.offer? s i).toList
              reports := [] } := by
        unfold Outcome.deeds
        rw [← List.singleton_append, of_append, of_offers]
        rfl
      rw [List.flatMap_cons, of_append, hFirst, ih, List.map_cons,
        List.filterMap_cons]
      cases out.offer? s i <;> rfl

end Story

------------------------------------------------------------
-- Outcomes
------------------------------------------------------------

namespace Prospect

variable {σ κ : Type} {o : Office σ κ}

/-
  What was offered of a window by itself, and what was kept of
  it, is what its walk has led to.
-/
theorem OutcomeOk.offers
    {i : Instrument}
    {out : Outcome}
    (h : (anything o).OutcomeOk i out) :
    (out.offer? o.settings i).map Prod.fst =
        Desk.windowResult? o.settings i out.window out.walked
      ∧ out.kept.bind Except.toOption =
        (out.offer? o.settings i).bind
          (fun offer => offer.2.toOption)
      ∧ (∀ stored,
          out.kept = some (.ok stored) →
            stored.window = some out.window)
      ∧ ((∀ reason, out.kept ≠ some (.error reason)) →
          out.kept.bind Except.toOption =
            (Desk.windowResult? o.settings i out.window
              out.walked).map Result.stored) := by
  have hKept := h.kept
  unfold KeptOk at hKept
  unfold Outcome.offer?
  cases hResult :
      Desk.windowResult? o.settings i out.window out.walked with
  | none =>
      rw [hResult] at hKept
      change out.kept = none at hKept
      rw [hKept]
      refine ⟨rfl, rfl, ?_, fun _ => rfl⟩
      intro stored hStored
      cases hStored
  | some result =>
      rw [hResult] at hKept
      rcases hKept with ⟨answer, hAnswer, hIs⟩
      rw [hIs]
      refine ⟨rfl, rfl, ?_, ?_⟩
      · intro stored hStored
        rw [hAnswer stored (Option.some.inj hStored)]
        exact (Desk.windowResult?_eq_some hResult).2.1
      · intro hFine
        cases hCase : answer with
        | error reason =>
            rw [hCase] at hFine
            exact absurd rfl (hFine reason)
        | ok stored =>
            rw [hAnswer stored hCase]
            rfl

end Prospect

------------------------------------------------------------
-- Files of plans
------------------------------------------------------------

namespace File

variable {σ κ : Type} {o : Office σ κ} {f : File κ}
variable {windows : List Window}

/- What the sink has answered when the desk was closed. -/
def lastAnswer
    (o : Office σ κ)
    (f : File κ) : Option (Except String Stored) :=
  (f.desk.lastResult? o.settings).map fun result =>
    (f.depot.keep o.sink result).1

/- The story of a desk whose plan was made, up to its report. -/
def fetchedStory
    (o : Office σ κ)
    (f : File κ)
    (looked : List (Except Fault (Option Int))) : Story :=
  { finds := looked
    walks := f.desk.outcomes.map fun out => (out.window, out.walked)
    offers :=
      f.desk.outcomes.filterMap
          (Outcome.offer? o.settings f.desk.instrument)
        ++ (f.last o).map fun result =>
          (result, (f.depot.keep o.sink result).1)
    reports := [f.report o] }

/- Each window of the plan has an outcome, and none has two. -/
theorem share_of_fetched
    (h : (Prospect.anything o).Fetched f.desk windows)
    {planned : List Window}
    (hLength : planned.length = windows.length)
    (hPlanned : ∀ out ∈ f.desk.outcomes, out.window ∈ planned) :
    (f.desk.outcomes.map Outcome.window).Perm planned := by
  rcases h.planned.exists_tiles with ⟨range, hTiles⟩
  have hNodup : (f.desk.outcomes.map Outcome.window).Nodup :=
    h.share.nodup_iff.mpr hTiles.nodup
  have hSub :
      f.desk.outcomes.map Outcome.window ⊆ planned := by
    intro w hw
    rcases List.mem_map.mp hw with ⟨out, hOut, rfl⟩
    exact hPlanned out hOut
  apply (hNodup.subperm hSub).perm_of_length_le
  rw [hLength, h.share.length_eq]

/- Windows of outcomes, in order, follow each other. -/
theorem pairwise_ordered
    (h : (Prospect.anything o).Fetched f.desk windows) :
    f.desk.ordered.Pairwise fun a b =>
      a.window.Precedes b.window := by
  rcases h.planned.exists_tiles with ⟨range, hTiles⟩
  have hApart := hTiles.apart
  rw [← h.windows_ordered] at hApart
  exact List.pairwise_map.mp hApart

/- When a report says that its instrument has failed. -/
theorem failure_of_fetched
    (h : (Prospect.anything o).Fetched f.desk windows)
    (looked : List (Except Fault (Option Int))) :
    (f.desk.verdictFailure? (f.lastAnswer o)).isSome = true ↔
      (∃ result reason,
          (result, .error reason)
            ∈ (f.fetchedStory o looked).offers)
        ∨ (f.desk.planned ≠ 0
            ∧ Outcome.hauls f.desk.ordered = []) := by
  have hOrdered := f.desk.ordered_perm
  -- A window that the sink turned down, among the outcomes.
  have hWindow :
      Outcome.sinkReason? f.desk.ordered ≠ none ↔
        ∃ result reason,
          (result, .error reason)
            ∈ f.desk.outcomes.filterMap
              (Outcome.offer? o.settings f.desk.instrument) := by
    rw [Ne, Outcome.sinkReason?_eq_none]
    push Not
    constructor
    · rintro ⟨out, hOut, reason, hKept⟩
      have hMem := hOrdered.mem_iff.mp hOut
      have hOk := (h.outcomes out hMem).kept
      unfold Prospect.KeptOk at hOk
      cases hResult :
          Desk.windowResult? o.settings f.desk.instrument
            out.window out.walked with
      | none =>
          rw [hResult, hKept] at hOk
          cases hOk
      | some result =>
          refine
            ⟨result, reason,
              List.mem_filterMap.mpr ⟨out, hMem, ?_⟩⟩
          unfold Outcome.offer?
          rw [hResult, hKept]
          rfl
    · rintro ⟨result, reason, hOffer⟩
      rcases List.mem_filterMap.mp hOffer with ⟨out, hOut, hIs⟩
      refine ⟨out, hOrdered.mem_iff.mpr hOut, reason, ?_⟩
      unfold Outcome.offer? at hIs
      rcases Option.bind_eq_some_iff.mp hIs with ⟨_, _, hKept⟩
      rcases Option.map_eq_some_iff.mp hKept with
        ⟨answer, hAnswer, hPair⟩
      rw [hAnswer, (Prod.mk.inj hPair).2]
  have hLast := File.last_of_fetching (o := o) h.fetching
  unfold fetchedStory lastAnswer Desk.verdictFailure?
  simp only [hLast]
  constructor
  · intro hFailed
    cases hReason : Outcome.sinkReason? f.desk.ordered with
    | some reason =>
        rcases hWindow.mp (by rw [hReason]; simp) with
          ⟨result, why, hOffer⟩
        exact Or.inl ⟨result, why, List.mem_append_left _ hOffer⟩
    | none =>
        cases hResult : f.desk.lastResult? o.settings with
        | none =>
            simp only [hReason, hResult, Option.map_none] at hFailed
            split at hFailed
            · exact Or.inr ‹_›
            · cases hFailed
        | some result =>
            cases hAnswer : (f.depot.keep o.sink result).1 with
            | ok stored =>
                simp only [hReason, hResult, hAnswer,
                  Option.map_some] at hFailed
                cases hFailed
            | error reason =>
                refine Or.inl ⟨result, reason, ?_⟩
                apply List.mem_append_right
                rw [← hAnswer]
                exact List.mem_singleton_self _
  · rintro (⟨result, reason, hOffer⟩ | hNone)
    · rcases List.mem_append.mp hOffer with hOld | hNew
      · have hSome := hWindow.mpr ⟨result, reason, hOld⟩
        rcases Option.ne_none_iff_exists'.mp hSome with
          ⟨why, hReason⟩
        rw [hReason]
        rfl
      · rcases List.mem_map.mp hNew with ⟨given, hGiven, hPair⟩
        rcases Prod.mk.inj hPair with ⟨rfl, hAnswer⟩
        rw [Option.mem_toList] at hGiven
        rw [Option.mem_def.mp hGiven]
        simp only [Option.map_some, hAnswer]
        cases Outcome.sinkReason? f.desk.ordered <;> rfl
    · cases hReason : Outcome.sinkReason? f.desk.ordered with
      | some reason => rfl
      | none =>
          have hResult : f.desk.lastResult? o.settings = none := by
            unfold Desk.lastResult?
            rw [hReason, if_pos hNone]
            cases o.settings.partitioning <;> rfl
          simp only [hResult, Option.map_none, if_pos hNone]
          rfl

theorem hauls_fetchedStory
    (looked : List (Except Fault (Option Int))) :
    (f.fetchedStory o looked).hauls = Outcome.hauls f.desk.outcomes := by
  unfold Story.hauls fetchedStory
  rw [List.filterMap_map]
  rfl

theorem gaps_fetchedStory
    (name : String)
    (looked : List (Except Fault (Option Int))) :
    (f.fetchedStory o looked).gaps name
      = Outcome.gaps name f.desk.outcomes := by
  unfold Story.gaps fetchedStory
  rw [List.filterMap_map]
  rfl

theorem windowResults_fetchedStory
    (looked : List (Except Fault (Option Int))) :
    (f.fetchedStory o looked).windowResults o.settings
        f.desk.instrument
      = f.desk.results o.settings := by
  unfold Story.windowResults fetchedStory
  rw [List.filterMap_map]
  rfl

/- Gaps in the order of their windows. -/
theorem pairwise_gaps
    (h : (Prospect.anything o).Fetched f.desk windows)
    (name : String) :
    ((Outcome.gaps name f.desk.ordered).map Gap.window).Pairwise
      Window.Precedes := by
  apply List.pairwise_map.mpr
  refine List.Pairwise.filterMap _ ?_ (pairwise_ordered h)
  intro a b hPrecedes g hg g' hg'
  have hWindow (out : Outcome) (gap : Gap)
      (hGap :
        (match out.walked with
          | .ok _ => none
          | .error f =>
              some
                { instrument := name
                  window := out.window
                  fault := f : Gap }) = some gap) :
      gap.window = out.window := by
    cases hWalked : out.walked with
    | ok haul =>
        rw [hWalked] at hGap
        cases hGap
    | error fault =>
        rw [hWalked] at hGap
        rw [← Option.some.inj hGap]
  rw [hWindow a g hg, hWindow b g' hg']
  exact hPrecedes

/- No window is offered by itself. -/
theorem filterMap_offer?_of_whole
    (hWhole : o.settings.partitioning = .perInstrument)
    (d : Desk) :
    d.outcomes.filterMap (Outcome.offer? o.settings d.instrument)
      = [] := by
  apply List.filterMap_eq_nil_iff.mpr
  intro out _
  unfold Outcome.offer?
  rw [Desk.windowResult?_eq_none hWhole]
  rfl

/- What is kept of a whole instrument. -/
theorem whole_of_fetched
    (h : (Prospect.anything o).Fetched f.desk windows)
    (hWhole : o.settings.partitioning = .perInstrument)
    (looked : List (Except Fault (Option Int))) :
    Outcome.stored f.desk.ordered = []
      ∧ match f.desk.verdictFailure? (f.lastAnswer o) with
        | some _ => f.desk.verdictStored? (f.lastAnswer o) = none
        | none =>
            ∃ result,
              result.window = none
                ∧ (f.fetchedStory o looked).offers
                  = [(result, .ok result.stored)]
                ∧ f.desk.verdictStored? (f.lastAnswer o)
                  = some result.stored := by
  have hReason := h.sinkReason?_eq_none hWhole
  have hNoOffer := filterMap_offer?_of_whole hWhole f.desk
  have hLast := File.last_of_fetching (o := o) h.fetching
  constructor
  · apply List.filterMap_eq_nil_iff.mpr
    intro out hOut
    have hMem := f.desk.ordered_perm.mem_iff.mp hOut
    rw [(h.outcomes out hMem).kept_eq_none hWhole]
    rfl
  · unfold fetchedStory Desk.verdictFailure? Desk.verdictStored?
      lastAnswer
    simp only [hReason, hNoOffer, hLast, List.nil_append]
    cases hResult : f.desk.lastResult? o.settings with
    | none =>
        -- Nothing was offered, so all windows failed.
        have hAll :
            f.desk.planned ≠ 0
              ∧ Outcome.hauls f.desk.ordered = [] := by
          unfold Desk.lastResult? at hResult
          rw [hWhole, hReason] at hResult
          simp only at hResult
          split at hResult
          · assumption
          · cases hResult
        simp only [Option.map_none, if_pos hAll]
    | some result =>
        have hAnswered :=
          ((Prospect.anything o).keeps f.depot result trivial).2
        cases hAnswer : (f.depot.keep o.sink result).1 with
        | error reason => simp only [Option.map_some, hAnswer]
        | ok stored =>
            simp only [Option.map_some, hAnswer]
            refine
              ⟨result, (Desk.window_lastResult? hResult).2, ?_, ?_⟩
            · rw [hAnswered stored hAnswer] at hAnswer
              simp only [Option.toList_some, List.map_cons,
                List.map_nil, hAnswer]
            · rw [hAnswered stored hAnswer]

/- What is kept of single windows. -/
theorem windows_of_fetched
    (h : (Prospect.anything o).Fetched f.desk windows)
    (hWindows : o.settings.partitioning = .perWindow)
    (looked : List (Except Fault (Option Int))) :
    let story := f.fetchedStory o looked
    let stored := Outcome.stored f.desk.ordered
    f.desk.verdictStored? (f.lastAnswer o) = none
      ∧ story.offers.map Prod.fst
        = story.windowResults o.settings f.desk.instrument
      ∧ stored.Perm story.kept
      ∧ (∃ ascending : List Window,
          ascending.Pairwise Window.Precedes
            ∧ stored.map Stored.window = ascending.map some)
      ∧ (f.desk.verdictFailure? (f.lastAnswer o) = none →
          stored.Perm
            ((story.windowResults o.settings
              f.desk.instrument).map Result.stored)) := by
  intro story stored
  have hOk (out : Outcome) (hOut : out ∈ f.desk.outcomes) :=
    (h.outcomes out hOut).offers
  have hOrdered := f.desk.ordered_perm
  have hResult : f.desk.lastResult? o.settings = none := by
    unfold Desk.lastResult?
    rw [hWindows]
  have hNone : f.lastAnswer o = none := by
    unfold lastAnswer
    rw [hResult]
    rfl
  have hLast : f.last o = [] := by
    rw [File.last_of_fetching h.fetching, hResult]
    rfl
  have hOffers :
      story.offers =
        f.desk.outcomes.filterMap
          (Outcome.offer? o.settings f.desk.instrument) := by
    change _ ++ (f.last o).map _ = _
    rw [hLast]
    exact List.append_nil _
  have hStored :
      stored.Perm
        (f.desk.outcomes.filterMap fun out =>
          out.kept.bind Except.toOption) :=
    hOrdered.filterMap _
  refine ⟨?_, ?_, ?_, ?_, ?_⟩
  · unfold Desk.verdictStored?
    rw [hNone]
    cases Outcome.sinkReason? f.desk.ordered <;> rfl
  · rw [hOffers, windowResults_fetchedStory, List.map_filterMap]
    apply List.filterMap_congr
    intro out hOut
    exact (hOk out hOut).1
  · unfold Story.kept
    rw [hOffers, List.filterMap_filterMap]
    refine hStored.trans (List.Perm.of_eq ?_)
    apply List.filterMap_congr
    intro out hOut
    exact (hOk out hOut).2.1
  · refine
      ⟨f.desk.ordered.filterMap fun out =>
          (out.kept.bind Except.toOption).map fun _ => out.window,
        ?_, ?_⟩
    · refine List.Pairwise.filterMap _ ?_ (pairwise_ordered h)
      intro a b hPrecedes v hv w hw
      rcases Option.map_eq_some_iff.mp hv with ⟨_, _, rfl⟩
      rcases Option.map_eq_some_iff.mp hw with ⟨_, _, rfl⟩
      exact hPrecedes
    · change (List.filterMap _ _).map Stored.window = _
      rw [List.map_filterMap, List.map_filterMap]
      apply List.filterMap_congr
      intro out hOut
      have hMem := hOrdered.mem_iff.mp hOut
      cases hKept : out.kept with
      | none => rfl
      | some answer =>
          cases answer with
          | error reason => rfl
          | ok kept =>
              exact congrArg some ((hOk out hMem).2.2.1 kept hKept)
  · intro hFine
    have hReason : Outcome.sinkReason? f.desk.ordered = none := by
      unfold Desk.verdictFailure? at hFine
      cases hReason : Outcome.sinkReason? f.desk.ordered with
      | none => rfl
      | some reason =>
          rw [hReason] at hFine
          cases hFine
    rw [windowResults_fetchedStory]
    unfold Desk.results
    rw [List.map_filterMap]
    refine hStored.trans (List.Perm.of_eq ?_)
    apply List.filterMap_congr
    intro out hOut
    apply (hOk out hOut).2.2.2
    exact
      Outcome.sinkReason?_eq_none.mp hReason out
        (hOrdered.mem_iff.mpr hOut)

/- The report of a desk whose plan was made. -/
theorem consistent_of_fetched
    (h : (Prospect.anything o).Fetched f.desk windows)
    {planned : List Window}
    (hLength : planned.length = windows.length)
    (hPlanned : ∀ out ∈ f.desk.outcomes, out.window ∈ planned)
    (looked : List (Except Fault (Option Int))) :
    Consistent o.settings f.desk.instrument (.ok planned)
      (f.fetchedStory o looked) (f.report o) := by
  have hReport :=
    (File.report_of_fetching (o := o) h.fetching).trans
      (Desk.verdict_eq h.fetching (f.lastAnswer o))
  have hShare := share_of_fetched h hLength hPlanned
  have hCount : f.desk.planned = planned.length :=
    h.fields.2.1.trans hLength.symm
  have hHauls :
      (Outcome.hauls f.desk.ordered).Perm
        (f.fetchedStory o looked).hauls := by
    rw [hauls_fetchedStory]
    exact f.desk.ordered_perm.filterMap _
  have hFailed := failure_of_fetched h looked
  rw [hCount] at hFailed
  rw [hReport]
  refine
    { instrument := rfl
      accepted := ?_
      ended := ?_
      failure := ?_
      failed := ?_
      planned := ?_
      unplanned := ?_
      requests := ?_
      trades := rfl
      gaps := ?_
      gapsAscend := pairwise_gaps h _
      whole := ?_
      windows := ?_ }
  · intro refusal hRefused
    unfold Desk.verdictFailure? at hRefused
    split at hRefused
    · cases hRefused
    · cases hRefused
    · cases hRefused
    · split at hRefused <;> cases hRefused
  · cases f.desk.verdictFailure? (f.lastAnswer o) with
    | none => exact Or.inl rfl
    | some _ => exact Or.inr rfl
  · cases f.desk.verdictFailure? (f.lastAnswer o) <;> simp
  · have hState :
        (if (f.desk.verdictFailure? (f.lastAnswer o)).isSome = true
          then Lifecycle.State.failed
          else .persisted) = .failed ↔
          (f.desk.verdictFailure? (f.lastAnswer o)).isSome = true := by
      cases f.desk.verdictFailure? (f.lastAnswer o) <;> simp
    refine (hState.trans hFailed).trans ?_
    constructor
    · rintro (hRejected | ⟨hSome, hNone⟩)
      · exact Or.inr (Or.inl hRejected)
      · refine Or.inr (Or.inr ⟨⟨planned, rfl, ?_⟩, ?_⟩)
        · rintro rfl
          exact hSome rfl
        · rw [hNone] at hHauls
          exact hHauls.nil_eq.symm
    · rintro (⟨fault, hNot⟩ | hRejected | ⟨⟨_, hIs, hSome⟩, hNone⟩)
      · cases hNot
      · exact Or.inl hRejected
      · cases hIs
        refine Or.inr ⟨?_, ?_⟩
        · exact fun hZero => hSome (List.eq_nil_of_length_eq_zero hZero)
        · rw [hNone] at hHauls
          exact hHauls.eq_nil
  · intro others hIs
    cases hIs
    refine ⟨?_, hCount, hHauls.length_eq, ?_⟩
    · unfold fetchedStory
      rw [List.map_map]
      exact hShare
    · change
        f.desk.planned
          = (Outcome.hauls f.desk.ordered).length
            + (Outcome.gaps f.desk.instrument.name
                f.desk.ordered).length
      rw [Outcome.length_hauls_add_gaps,
        f.desk.ordered_perm.length_eq, hCount, ← hShare.length_eq,
        List.length_map]
  · intro fault hNot
    cases hNot
  · change total _ = total _
    rw [total_eq_sum, total_eq_sum]
    exact (hHauls.map Haul.requests).sum_eq
  · rw [gaps_fetchedStory]
    exact f.desk.ordered_perm.filterMap _
  · intro hWhole
    rcases whole_of_fetched h hWhole looked with ⟨hNone, hLast⟩
    simp only [hNone, List.nil_append]
    cases hFailure : f.desk.verdictFailure? (f.lastAnswer o) with
    | some failure =>
        rw [hFailure] at hLast
        simp [hLast]
    | none =>
        rw [hFailure] at hLast
        rcases hLast with ⟨result, hWindow, hOffers, hStored⟩
        refine ⟨fun _ => ⟨result, hWindow, hOffers, ?_⟩, ?_⟩
        · rw [hStored]
          rfl
        · intro hNot
          cases hNot
  · intro hWindows
    rcases windows_of_fetched h hWindows looked with
      ⟨hNone, hOffers, hKept, hAscend, hAll⟩
    simp only [hNone, Option.toList_none, List.append_nil]
    refine ⟨hOffers, hKept, hAscend, ?_⟩
    intro hState
    apply hAll
    cases hFailure : f.desk.verdictFailure? (f.lastAnswer o) with
    | none => rfl
    | some failure =>
        rw [hFailure] at hState
        cases hState

------------------------------------------------------------
-- Files without a plan
------------------------------------------------------------

/- The report of a desk whose look-up failed. -/
theorem consistent_of_unplanned
    {fault : Fault}
    (hDesk :
      f.desk = (Prospect.planning f.desk).withoutPlan fault) :
    Consistent o.settings f.desk.instrument (.error fault)
      { finds := [.error fault]
        walks := []
        offers := []
        reports := [f.report o] }
      (f.report o) := by
  have hFailure : f.desk.failure.isSome = true := by
    rw [hDesk]
    rfl
  have hReport :
      f.report o =
        { instrument := f.desk.instrument
          state := .failed
          windowsPlanned := 0
          windowsOk := 0
          requests := 0
          trades := 0
          stored := []
          gaps := []
          failure := some (.planning fault) } := by
    unfold report
    rw [Desk.close_of_failure hFailure, hDesk]
    rfl
  rw [hReport]
  exact
    { instrument := rfl
      accepted := by
        intro refusal hRefused
        cases hRefused
      ended := Or.inr rfl
      failure := by simp
      failed := by simp
      planned := by
        intro windows hPlan
        cases hPlan
      unplanned := fun _ _ => ⟨rfl, rfl, rfl, rfl, rfl, rfl⟩
      requests := rfl
      trades := rfl
      gaps := List.Perm.refl _
      gapsAscend := List.Pairwise.nil
      whole := by
        intro _
        refine ⟨?_, fun _ => rfl⟩
        intro hState
        cases hState
      windows := by
        intro _
        refine
          ⟨rfl, List.Perm.refl _, ⟨[], List.Pairwise.nil, rfl⟩, ?_⟩
        intro hState
        cases hState }

------------------------------------------------------------
-- All files
------------------------------------------------------------

/- The story of a desk whose look-up failed, up to its report. -/
def unplannedStory
    (o : Office σ κ)
    (f : File κ)
    (fault : Fault) : Story :=
  { finds := [.error fault]
    walks := []
    offers := []
    reports := [f.report o] }

/- What is recorded of a desk is one of the two stories. -/
theorem story_of_recorded
    {journal : List Note}
    (hOk : (Prospect.anything o).FileOk f)
    (hRecorded : f.Recorded o (deedsAt f.desk.position journal)) :
    (∃ fault,
        Plans o.settings o.reference f.desk.instrument
            [.error fault] (.error fault)
          ∧ f.desk = (Prospect.planning f.desk).withoutPlan fault
          ∧ Story.of (deedsAt f.desk.position journal)
            = f.unplannedStory o fault)
      ∨ ∃ planned looked windows,
        Plans o.settings o.reference f.desk.instrument looked
            (.ok planned)
          ∧ (Prospect.anything o).Fetched f.desk windows
          ∧ planned.length = windows.length
          ∧ (∀ out ∈ f.desk.outcomes, out.window ∈ planned)
          ∧ Story.of (deedsAt f.desk.position journal)
            = f.fetchedStory o looked := by
  rcases hRecorded with ⟨deeds, hCame, hAll⟩
  have hOffers :
      (f.last o).map (fun result =>
          Deed.offered result (f.depot.keep o.sink result).1)
        = ((f.last o).map fun result =>
            (result, (f.depot.keep o.sink result).1)).map
          fun offer => .offered offer.1 offer.2 := by
    rw [List.map_map]
    rfl
  have hStory :
      Story.of (deedsAt f.desk.position journal) =
        { finds := (Story.of deeds).finds
          walks := (Story.of deeds).walks
          offers :=
            (Story.of deeds).offers
              ++ (f.last o).map fun result =>
                (result, (f.depot.keep o.sink result).1)
          reports := (Story.of deeds).reports ++ [f.report o] } := by
    have hClosed :
        Story.of [.closed (f.report o)] =
          { finds := []
            walks := []
            offers := []
            reports := [f.report o] } := rfl
    rw [hAll, hOffers, Story.of_append, Story.of_append,
      Story.of_offers, hClosed]
    simp only [List.append_nil]
  cases hCame with
  | fresh hDesk _ =>
      -- All is done at the desk, so it has left its start behind.
      have hState :
          f.desk.life.state = .failed
            ∨ f.desk.life.state = .fetching := by
        rcases hOk.shape with ⟨_, _, _, _, _, hIs⟩ | ⟨_, hFetched⟩
        · rw [(Prospect.unplanned_fields hIs).1]
          exact Or.inl rfl
        · rw [hFetched.fields.1]
          exact Or.inr rfl
      rcases hDesk with hIs | hIs <;> rw [hIs] at hState <;>
        rcases hState with hNot | hNot <;> cases hNot
  | unplanned fault hPlan hDesk _ =>
      have hFailure : f.desk.failure.isSome = true := by
        rw [hDesk]
        rfl
      refine Or.inl ⟨fault, hPlan, hDesk, ?_⟩
      rw [hStory, File.last_of_failure hFailure]
      rfl
  | fetching planned looked hPlan hDesk _ _ hOutcomes =>
      have hCount : f.desk.planned = planned.length := by
        rw [hDesk]
        rfl
      rcases hOk.shape with
        ⟨_, _, _, _, _, hNot⟩ | ⟨windows, hFetched⟩
      · have hLife := (Prospect.unplanned_fields hNot).1
        rw [hDesk] at hLife
        cases congrArg Lifecycle.state hLife
      · refine
          Or.inr
            ⟨planned, looked, windows, hPlan, hFetched,
              hCount.symm.trans hFetched.fields.2.1, hOutcomes, ?_⟩
        rw [hStory, Story.of_append, Story.of_finds,
          Story.of_outcomes]
        simp only [List.append_nil, List.nil_append]
        rfl

/- A report accounts for all that is recorded of its desk. -/
theorem accounts_of_recorded
    {journal : List Note}
    (hOk : (Prospect.anything o).FileOk f)
    (hRecorded : f.Recorded o (deedsAt f.desk.position journal)) :
    Accounts o journal f.desk.position f.desk.instrument
      (f.report o) := by
  rcases story_of_recorded hOk hRecorded with
    ⟨fault, hPlan, hDesk, hIs⟩
      | ⟨planned, looked, _, hPlan, hFetched, hLength, hOutcomes, hIs⟩
  · constructor
    · rw [hIs]
      rfl
    · rw [hIs]
      exact ⟨.error fault, hPlan, consistent_of_unplanned hDesk⟩
  · constructor
    · rw [hIs]
      rfl
    · rw [hIs]
      exact
        ⟨.ok planned, hPlan,
          consistent_of_fetched hFetched hLength hOutcomes looked⟩

end File

------------------------------------------------------------
-- Whole runs
------------------------------------------------------------

/- A life in a run is never stuck. -/
theorem Prospect.DeskOk.life_ok
    {σ κ : Type}
    {o : Office σ κ}
    {cancels : Prop}
    {p : Prospect o cancels}
    {d : Desk}
    {duties : List Duty}
    (h : p.DeskOk d duties) :
    ∃ m, d.life = .ok m := by
  cases h with
  | fresh hDesk _ =>
      rw [hDesk]
      exact ⟨_, rfl⟩
  | looking _ _ _ hDesk _ =>
      rw [hDesk]
      exact ⟨_, rfl⟩
  | unplanned _ _ _ _ _ hDesk _ =>
      rw [hDesk]
      exact ⟨_, rfl⟩
  | fetching _ _ _ hDesk _ _ _ =>
      rw [hDesk]
      exact ⟨_, rfl⟩

/- The places of a list of instruments. -/
theorem mem_places_iff
    {instruments : List Instrument}
    {position : Nat}
    {i : Instrument} :
    (position, i)
        ∈ (List.range instruments.length).zip instruments ↔
      instruments[position]? = some i := by
  rw [List.mem_iff_getElem?]
  constructor
  · rintro ⟨n, hn⟩
    rcases List.getElem?_zip_eq_some.mp hn with ⟨hRange, hAt⟩
    rcases List.getElem?_eq_some_iff.mp hRange with ⟨_, hEq⟩
    rw [List.getElem_range] at hEq
    cases hEq
    exact hAt
  · intro hAt
    refine ⟨position, List.getElem?_zip_eq_some.mpr ⟨?_, hAt⟩⟩
    exact List.getElem?_range (List.getElem?_eq_some_iff.mp hAt).1

/-
  Every report of a run that is done is consistent, whatever
  the order of its moves, whatever a venue and a sink do, how
  long they take and when the run is canceled.  A journal of
  the moves tells of all that was offered to the sink and of
  all reports.  Each instrument of the list has one report,
  which accounts for all that the journal tells of it.  Every
  run comes to such an end, all moves have a journal, and no
  life is ever stuck.
-/
theorem Run.reports_consistent
    {σ κ : Type}
    {o : Office σ κ}
    (hValid : o.settings.Valid)
    (venue : σ)
    (kept : κ)
    (cancelAt : Option Nat)
    (instruments : List Instrument) :
    let first := Run.start o venue kept cancelAt instruments
    (Run.Recounted o first (Run.journal o first) (Run.toEnd o first)
        ∧ (Run.toEnd o first).Done)
      ∧ (∀ journal r,
          Run.Recounted o first journal r →
            r.Done →
              let deeds := journal.map Note.deed
              deeds.filterMap Deed.report? = r.reports
                ∧ (deeds.filterMap Deed.offer?).map Prod.fst
                  = r.depot.handed
                ∧ r.reports.length = instruments.length
                ∧ (∀ position i,
                    instruments[position]? = some i →
                      ∃ report ∈ r.reports,
                        Accounts o journal position i report)
                ∧ ∀ report ∈ r.reports,
                    ∃ position i,
                      instruments[position]? = some i
                        ∧ Accounts o journal position i report)
      ∧ ∀ r,
          Run.Reaches o first r →
            (∃ journal, Run.Recounted o first journal r)
              ∧ ∀ d ∈ r.desks, ∃ m, d.life = .ok m := by
  intro first
  refine
    ⟨⟨Run.recounted_journal o first,
        (Run.ends_toEnd hValid venue kept cancelAt instruments).2⟩,
      ?_, ?_⟩
  · intro journal r hRecounted hDone deeds
    rcases Chronicle.of_recounted hValid.limits.1 hRecounted with
      ⟨files, h⟩
    have hPlaces := h.places_of_done hDone
    have hReports : r.reports = files.map (File.report o) :=
      h.run.reports
    have hAccounts (f : File κ) (hFile : f ∈ files) :
        instruments[f.desk.position]? = some f.desk.instrument
          ∧ Accounts o journal f.desk.position f.desk.instrument
            (f.report o) := by
      constructor
      · apply mem_places_iff.mp
        apply hPlaces.mem_iff.mp
        exact List.mem_map_of_mem (f := fun f => f.desk.place) hFile
      · exact
          File.accounts_of_recorded (h.run.filed f hFile)
            (h.filed f hFile)
    refine
      ⟨h.reports, h.handed, h.length_reports_of_done hDone, ?_, ?_⟩
    · intro position i hAt
      have hPlace := hPlaces.mem_iff.mpr (mem_places_iff.mpr hAt)
      rcases List.mem_map.mp hPlace with ⟨f, hFile, hIs⟩
      rcases Prod.mk.inj hIs with ⟨rfl, rfl⟩
      refine ⟨f.report o, ?_, (hAccounts f hFile).2⟩
      rw [hReports]
      exact List.mem_map_of_mem hFile
    · intro report hReport
      rw [hReports] at hReport
      rcases List.mem_map.mp hReport with ⟨f, hFile, rfl⟩
      exact
        ⟨f.desk.position, f.desk.instrument, (hAccounts f hFile).1,
          (hAccounts f hFile).2⟩
  · intro r hReached
    refine ⟨hReached.exists_recounted, ?_⟩
    intro d hDesk
    rcases
      Prospect.runOk_of_reaches (Prospect.anything o)
        hValid.limits.1 (fun _ => trivial) trivial hReached with
      ⟨_, hRun⟩
    exact (hRun.desks d hDesk).life_ok

/- Three trades in two windows, and a window that fails. -/
def crowdedVenue : TapeVenue :=
  { tapes :=
      [("BTC",
        [Trade.synthetic "BTC" 1 5, Trade.synthetic "BTC" 2 5,
          Trade.synthetic "BTC" 3 7])]
    failingInstruments := []
    failingRanges := [⟨"BTC", ⟨10, 19⟩, .timeout "busy"⟩]
    latency := Latency.make? 3 4 }

/- Windows of six milliseconds, each of them kept by itself. -/
def crowdedSettings : Settings :=
  { Settings.standard with
    chunkMs := some 6
    partitioning := .perWindow }

/- A sink with room for so many results. -/
def roomySink : Sink Nat :=
  { store := fun room _ =>
      match room with
      | 0 => (.error "full", 0)
      | room + 1 => (.ok (), room) }

/-
  Of three windows the first is kept, the second turned down,
  and the third is a gap, and the report accounts for them.
-/
theorem Run.reports_consistent_of_full_sink :
    let o := crowdedVenue.office crowdedSettings none roomySink
    let start := Run.start o 0 1 none [⟨"BTC", .future, 0, 17⟩]
    ∃ report,
      (Run.toEnd o start).reports = [report]
        ∧ (report.state, report.windowsPlanned, report.windowsOk,
            report.gaps.length, report.stored.length)
          = (.failed, 3, 2, 1, 1)
        ∧ Accounts o (Run.journal o start) 0
          ⟨"BTC", .future, 0, 17⟩ report := by
  intro o start
  have hReports :
      ((Run.toEnd o start).reports.map fun report =>
          (report.state, report.windowsPlanned, report.windowsOk,
            report.gaps.length, report.stored.length))
        = [(.failed, 3, 2, 1, 1)] := by
    cbv
  have hConsistent :=
    @Run.reports_consistent Nat Nat o (by decide) 0 1 none
      [⟨"BTC", .future, 0, 17⟩]
  rcases hConsistent with ⟨⟨hRecounted, hDone⟩, hAll, _⟩
  rcases hAll _ _ hRecounted hDone with ⟨_, _, _, hAccounts, _⟩
  rcases hAccounts 0 ⟨"BTC", .future, 0, 17⟩ rfl with
    ⟨report, hMem, hOwn⟩
  rcases List.map_eq_singleton_iff.mp hReports with
    ⟨only, hOnly, hFields⟩
  rw [hOnly] at hMem
  rw [List.mem_singleton.mp hMem] at hOwn
  exact ⟨only, hOnly, hFields, hOwn⟩

end TradeTape
