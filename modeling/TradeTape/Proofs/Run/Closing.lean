import TradeTape.Proofs.Plan.Tiling
import TradeTape.Proofs.Run.Soundness

/-
  What a file says: the report that was written, and what was
  handed over.

  Key statements include:
    * `Prospect.Planned.tiles`
    * `Prospect.FileOk.shape`
    * `Prospect.Fetched.windows_ordered`
    * `Desk.verdict_eq`
    * `Desk.merge_persisted`
    * `Prospect.RunOk.resultsFor_perm`
-/

namespace TradeTape

------------------------------------------------------------
-- Windows that are planned
------------------------------------------------------------

/- The windows of the space in which a run is planned. -/
def Pagination.Plans : Pagination → Window → Prop
  | .time, .time _ | .sequence, .seq _ => True
  | _, _ => False

theorem Pagination.Plans.eq_time
    {pagination : Pagination}
    {range : TimeWindow}
    (h : pagination.Plans (.time range)) :
    pagination = .time := by
  cases pagination with
  | time => rfl
  | sequence => exact h.elim

theorem Pagination.Plans.eq_seq
    {pagination : Pagination}
    {w : Window}
    (h : pagination.Plans w)
    (hSequence : pagination = .sequence) :
    ∃ range, w = .seq range := by
  cases w with
  | seq range => exact ⟨range, rfl⟩
  | time range =>
      rw [h.eq_time] at hSequence
      cases hSequence

------------------------------------------------------------
-- Shapes
------------------------------------------------------------

namespace Prospect

variable {σ κ : Type} {o : Office σ κ} {cancels : Prop}
variable {p : Prospect o cancels}

/- The windows that a desk has done with, all of its plan. -/
structure Fetched
    (p : Prospect o cancels)
    (d : Desk)
    (windows : List Window) : Prop where
  planned : p.Planned d.instrument windows
  desk :
    d =
      { (planning d).withPlan windows with
        outcomes := d.outcomes
        pending := [] }
  share : (d.outcomes.map Outcome.window).Perm windows
  outcomes : ∀ out ∈ d.outcomes, p.OutcomeOk d.instrument out

/- The windows of a plan tile the range that it is made for. -/
theorem Planned.tiles
    {i : Instrument}
    {windows : List Window}
    (hPlanned : p.Planned i windows) :
    match i.validRange o.reference, o.settings.pagination with
    | none, _ => Tiles none windows
    | some range, .time => Tiles (some (.time range)) windows
    | some range, .sequence =>
        ∃ latest,
          p.Found i.name range.endMs (.ok latest)
            ∧ Tiles (Desk.seqRange latest) windows := by
  unfold Planned at hPlanned
  cases hRange : i.validRange o.reference with
  | none =>
      simp only [hRange] at hPlanned
      rw [hPlanned]
      exact Tiles.nil
  | some range =>
      cases hPagination : o.settings.pagination with
      | time =>
          simp only [hRange, hPagination] at hPlanned
          have hOrder : range.startMs ≤ range.endMs := by
            unfold Instrument.validRange TimeWindow.make? at hRange
            split at hRange
            · cases hRange
              assumption
            · cases hRange
          rw [hPlanned]
          exact Desk.tiles_timePlan hOrder
      | sequence =>
          simp only [hRange, hPagination] at hPlanned
          rcases hPlanned with ⟨latest, hFound, hWindows⟩
          rw [hWindows]
          exact ⟨latest, hFound, Desk.tiles_seqPlan _ latest⟩

theorem Planned.exists_tiles
    {i : Instrument}
    {windows : List Window}
    (hPlanned : p.Planned i windows) :
    ∃ range, Tiles range windows := by
  have hTiles := hPlanned.tiles
  split at hTiles
  · exact ⟨_, hTiles⟩
  · exact ⟨_, hTiles⟩
  · rcases hTiles with ⟨latest, _, hTiles⟩
    exact ⟨_, hTiles⟩

/- A plan holds windows of its space only. -/
theorem Planned.plans
    {i : Instrument}
    {windows : List Window}
    (hPlanned : p.Planned i windows)
    {w : Window}
    (hw : w ∈ windows) :
    o.settings.pagination.Plans w := by
  unfold Planned at hPlanned
  cases hRange : i.validRange o.reference with
  | none =>
      simp only [hRange] at hPlanned
      rw [hPlanned] at hw
      cases hw
  | some range =>
      cases hPagination : o.settings.pagination with
      | time =>
          simp only [hRange, hPagination] at hPlanned
          rw [hPlanned] at hw
          rcases List.mem_map.mp hw with ⟨v, _, rfl⟩
          trivial
      | sequence =>
          simp only [hRange, hPagination] at hPlanned
          rcases hPlanned with ⟨latest, _, rfl⟩
          unfold Desk.seqPlan at hw
          split at hw
          · rcases List.mem_map.mp hw with ⟨v, _, rfl⟩
            trivial
          · cases hw

/- A file is that of a look-up that failed, or of a plan. -/
theorem FileOk.shape
    {f : File κ}
    (h : p.FileOk f) :
    (∃ range fault,
        f.desk.instrument.validRange o.reference = some range
          ∧ o.settings.pagination = .sequence
          ∧ p.Found f.desk.instrument.name range.endMs
              (.error fault)
          ∧ f.desk = (planning f.desk).withoutPlan fault)
      ∨ ∃ windows, p.Fetched f.desk windows := by
  cases h.desk with
  | fresh hDesk hDuties =>
      refine absurd ?_ h.touched
      unfold Desk.Untouched
      rw [hDesk]
      rfl
  | looking range hRange hPagination hDesk hDuties => cases hDuties
  | unplanned range fault hRange hPagination hFound hDesk hDuties =>
      exact
        Or.inl ⟨range, fault, hRange, hPagination, hFound, hDesk⟩
  | fetching windows opened hPlanned hDesk hDuties hShare hOutcomes =>
      have hNone : opened = [] :=
        List.map_eq_nil_iff.mp hDuties.nil_eq.symm
      rw [hNone, h.pending, List.nil_append,
        List.nil_append] at hShare
      rw [h.pending] at hDesk
      exact Or.inr ⟨windows, hPlanned, hDesk, hShare, hOutcomes⟩

end Prospect

------------------------------------------------------------
-- Outcomes
------------------------------------------------------------

namespace Outcome

theorem sinkReason?_eq_none
    {outcomes : List Outcome} :
    sinkReason? outcomes = none ↔
      ∀ out ∈ outcomes, ∀ reason,
        out.kept ≠ some (.error reason) := by
  unfold sinkReason?
  rw [List.findSome?_eq_none_iff]
  constructor
  · intro hNone out hOut reason hKept
    have hReason := hNone out hOut
    rw [hKept] at hReason
    cases hReason
  · intro hNone out hOut
    split
    · rename_i reason hKept
      exact absurd hKept (hNone out hOut reason)
    · rfl

/- A walk has a haul or leaves a gap. -/
theorem length_hauls_add_gaps
    (name : String)
    (outcomes : List Outcome) :
    (hauls outcomes).length + (gaps name outcomes).length
      = outcomes.length := by
  induction outcomes with
  | nil => rfl
  | cons out rest ih =>
      have hHauls :
          hauls (out :: rest) = out.walked.toOption.toList ++ hauls rest := by
        unfold hauls
        rw [List.filterMap_cons]
        cases out.walked <;> rfl
      have hGaps :
          (gaps name (out :: rest)).length + out.walked.toOption.toList.length
            = (gaps name rest).length + 1 := by
        unfold gaps
        rw [List.filterMap_cons]
        cases out.walked <;> rfl
      rw [hHauls, List.length_append, List.length_cons]
      omega

end Outcome

------------------------------------------------------------
-- Reports
------------------------------------------------------------

namespace Desk

theorem ordered_perm (d : Desk) : d.ordered.Perm d.outcomes :=
  List.mergeSort_perm d.outcomes _

/- A desk at which all windows have been fetched. -/
def Fetching (d : Desk) : Prop :=
  d.life = .ok { state := .fetching, rows := Lifecycle.rows }
    ∧ d.failure = none

section Verdicts

variable {κ : Type}

/- What the sink is given when a desk is closed, if anything. -/
def lastResult?
    (s : Settings)
    (d : Desk) : Option Result :=
  match s.partitioning, Outcome.sinkReason? d.ordered with
  | .perInstrument, none =>
      if d.planned ≠ 0 ∧ Outcome.hauls d.ordered = [] then none
      else some (d.wholeResult d.ordered)
  | _, _ => none

/- The report of a desk, by what the sink has answered then. -/
def verdict
    (d : Desk)
    (answer : Option (Except String Stored)) : Report :=
  let outcomes := d.ordered
  let d := d.fire .merge
  match Outcome.sinkReason? outcomes, answer with
  | some reason, _ | none, some (.error reason) =>
      (d.failed (.sink reason)).report outcomes none
  | none, some (.ok stored) =>
      (d.fire .persist).report outcomes (some stored)
  | none, none =>
      if d.planned ≠ 0 ∧ Outcome.hauls outcomes = [] then
        (d.failed (.allWindows d.planned)).report outcomes none
      else
        (d.fire .persist).report outcomes none

/- Why an instrument whose plan was made has failed. -/
def verdictFailure?
    (d : Desk)
    (answer : Option (Except String Stored)) : Option Failure :=
  match Outcome.sinkReason? d.ordered, answer with
  | some reason, _ | none, some (.error reason) =>
      some (.sink reason)
  | none, some (.ok _) => none
  | none, none =>
      if d.planned ≠ 0 ∧ Outcome.hauls d.ordered = [] then
        some (.allWindows d.planned)
      else
        none

/- What was kept for the whole instrument, if it is a success. -/
def verdictStored?
    (d : Desk)
    (answer : Option (Except String Stored)) : Option Stored :=
  match Outcome.sinkReason? d.ordered, answer with
  | none, some (.ok stored) => some stored
  | _, _ => none

theorem window_lastResult?
    {s : Settings}
    {d : Desk}
    {result : Result}
    (hLast : d.lastResult? s = some result) :
    s.partitioning = .perInstrument ∧ result.window = none := by
  unfold lastResult? at hLast
  split at hLast
  · rename_i hPartitioning _
    split at hLast
    · cases hLast
    · cases hLast
      exact ⟨hPartitioning, rfl⟩
  · cases hLast

theorem merge_eq
    (s : Settings)
    (sink : Sink κ)
    (depot : Depot κ)
    (d : Desk) :
    d.merge s sink depot =
      match d.lastResult? s with
      | none => (d.verdict none, depot)
      | some result =>
          (d.verdict (some (depot.keep sink result).1),
            (depot.keep sink result).2) := by
  have hPlanned : (d.fire .merge).planned = d.planned := rfl
  unfold merge lastResult? verdict
  simp only [hPlanned]
  cases Outcome.sinkReason? d.ordered with
  | some reason => cases s.partitioning <;> rfl
  | none =>
      by_cases hNone :
          d.planned ≠ 0 ∧ Outcome.hauls d.ordered = []
      · simp only [if_pos hNone]
        cases s.partitioning <;> rfl
      · simp only [if_neg hNone]
        cases s.partitioning with
        | perWindow => rfl
        | perInstrument =>
            have hWhole :
                (d.fire .merge).wholeResult d.ordered
                  = d.wholeResult d.ordered :=
              rfl
            simp only [hWhole]
            cases (depot.keep sink
              (d.wholeResult d.ordered)).1 <;> rfl

end Verdicts

section Merging

variable {κ : Type} {s : Settings} {sink : Sink κ}
variable {depot : Depot κ} {d : Desk}

theorem close_of_fetching
    (h : d.Fetching) :
    d.close s sink depot = d.merge s sink depot := by
  unfold close
  rw [h.2]
  rfl

/- The verdict on a desk, part by part. -/
theorem verdict_eq
    (h : d.Fetching)
    (answer : Option (Except String Stored)) :
    d.verdict answer =
      { instrument := d.instrument
        state :=
          if (d.verdictFailure? answer).isSome then .failed
          else .persisted
        windowsPlanned := d.planned
        windowsOk := (Outcome.hauls d.ordered).length
        requests :=
          total ((Outcome.hauls d.ordered).map Haul.requests)
        trades :=
          total
            ((Outcome.stored d.ordered
              ++ (d.verdictStored? answer).toList).map Stored.trades)
        stored :=
          Outcome.stored d.ordered ++ (d.verdictStored? answer).toList
        gaps := Outcome.gaps d.instrument.name d.ordered
        failure := d.verdictFailure? answer } := by
  -- A desk that failed, and one that was persisted.
  have hFailed (f : Failure) :
      ((d.fire .merge).failed f).life
        = .ok { state := .failed, rows := Lifecycle.rows } := by
    unfold failed fire
    simp only [h.1]
    rfl
  have hPersisted :
      ((d.fire .merge).fire .persist).life
        = .ok { state := .persisted, rows := Lifecycle.rows } := by
    unfold fire
    simp only [h.1]
    rfl
  have hNoFailure : ((d.fire .merge).fire .persist).failure = none := h.2
  unfold verdict verdictFailure? verdictStored?
  simp only
  cases hReason : Outcome.sinkReason? d.ordered with
  | some reason =>
      simp only [report, hFailed]
      rfl
  | none =>
      cases answer with
      | none =>
          by_cases hNone : d.planned ≠ 0 ∧ Outcome.hauls d.ordered = []
          · have hSame : (d.fire .merge).planned = d.planned := rfl
            simp only [hSame, if_pos hNone, report, hFailed]
            rfl
          · have hSame : (d.fire .merge).planned = d.planned := rfl
            simp only [hSame, if_neg hNone, report, hPersisted, hNoFailure]
            rfl
      | some kept =>
          cases kept with
          | error reason =>
              simp only [report, hFailed]
              rfl
          | ok stored =>
              simp only [report, hPersisted, hNoFailure]
              rfl

/- What success rules out. -/
theorem of_verdict_persisted
    (h : d.Fetching)
    {answer : Option (Except String Stored)}
    (hState : (d.verdict answer).state = .persisted) :
    Outcome.sinkReason? d.ordered = none
      ∧ (answer = none →
        ¬(d.planned ≠ 0 ∧ Outcome.hauls d.ordered = [])) := by
  have hNone : d.verdictFailure? answer = none := by
    rw [verdict_eq h] at hState
    simp only at hState
    split at hState
    · cases hState
    · rename_i hNot
      exact Option.not_isSome_iff_eq_none.mp hNot
  unfold verdictFailure? at hNone
  cases hReason : Outcome.sinkReason? d.ordered with
  | some reason =>
      rw [hReason] at hNone
      cases hNone
  | none =>
      refine ⟨rfl, ?_⟩
      rintro rfl hAll
      simp only [hReason, if_pos hAll] at hNone
      cases hNone

/- A report of success, and what was handed over with it. -/
theorem merge_persisted
    (h : d.Fetching)
    (hState :
      (d.merge s sink depot).1.state = .persisted) :
    (d.merge s sink depot).1.gaps =
        Outcome.gaps d.instrument.name d.ordered
      ∧ (d.merge s sink depot).2.handed =
        depot.handed
          ++ match s.partitioning with
            | .perWindow => []
            | .perInstrument => [d.wholeResult d.ordered] := by
  rw [merge_eq] at hState ⊢
  cases hLast : d.lastResult? s with
  | none =>
      simp only [hLast] at hState ⊢
      rcases of_verdict_persisted h hState with ⟨hReason, hSome⟩
      refine ⟨congrArg Report.gaps (verdict_eq h none), ?_⟩
      cases hPartitioning : s.partitioning with
      | perWindow => exact (List.append_nil _).symm
      | perInstrument =>
          unfold lastResult? at hLast
          simp only [hPartitioning, hReason,
            if_neg (hSome rfl)] at hLast
          cases hLast
  | some result =>
      simp only [hLast] at hState ⊢
      rcases of_verdict_persisted h hState with ⟨hReason, _⟩
      refine ⟨congrArg Report.gaps (verdict_eq h _), ?_⟩
      unfold lastResult? at hLast
      cases hPartitioning : s.partitioning with
      | perWindow =>
          simp only [hPartitioning] at hLast
          cases hLast
      | perInstrument =>
          simp only [hPartitioning, hReason] at hLast
          split at hLast
          · cases hLast
          · rw [← Option.some.inj hLast]
            rfl

end Merging

end Desk

namespace Prospect

variable {σ κ : Type} {o : Office σ κ} {cancels : Prop}
variable {p : Prospect o cancels}

/- The windows of the outcomes of a plan, once in order. -/
theorem Fetched.windows_ordered
    {d : Desk}
    {windows : List Window}
    (h : p.Fetched d windows) :
    d.ordered.map Outcome.window = windows := by
  rcases h.planned.exists_tiles with ⟨range, hTiles⟩
  have hPerm : (d.ordered.map Outcome.window).Perm windows :=
    (d.ordered_perm.map Outcome.window).trans h.share
  let le (a b : Outcome) : Bool := a.window.boundsLe b.window
  have hTrans :
      ∀ a b c, le a b = true → le b c = true → le a c = true :=
    fun _ _ _ => Window.boundsLe_trans
  have hTotal : ∀ a b, (le a b || le b a) = true :=
    fun a b => Window.boundsLe_total a.window b.window
  have hSorted :
      (d.ordered.map Outcome.window).Pairwise fun v w =>
        v.boundsLe w = true := by
    apply List.pairwise_map.mpr
    exact List.pairwise_mergeSort hTrans hTotal d.outcomes
  have hPlan :
      windows.Pairwise fun v w => v.boundsLe w = true := by
    refine hTiles.apart.imp_of_mem ?_
    intro v w hv _ hPrecedes
    have hNonempty := hTiles.nonempty v hv
    have hApart := hPrecedes.2
    unfold Window.Nonempty at hNonempty
    simp only [Window.boundsLe, decide_eq_true_eq]
    omega
  refine List.Perm.eq_of_pairwise ?_ hSorted hPlan hPerm
  intro v w hv hw hvw hwv
  exact
    hTiles.eq_of_bounds_eq (hPerm.mem_iff.mp hv) hw
      (Window.bounds_eq_of_boundsLe hvw hwv)

theorem Fetched.fetching
    {d : Desk}
    {windows : List Window}
    (h : p.Fetched d windows) :
    d.Fetching := by
  unfold Desk.Fetching
  rw [h.desk]
  exact ⟨rfl, rfl⟩

/- Nothing is answered to single windows if all is kept as one. -/
theorem OutcomeOk.kept_eq_none
    {i : Instrument}
    {out : Outcome}
    (h : p.OutcomeOk i out)
    (hWhole : o.settings.partitioning = .perInstrument) :
    out.kept = none := by
  have hKept := h.kept
  rw [Desk.windowResult?_eq_none hWhole] at hKept
  exact hKept

/- Where all is kept as one, no window makes the sink refuse. -/
theorem Fetched.sinkReason?_eq_none
    {d : Desk}
    {windows : List Window}
    (h : p.Fetched d windows)
    (hWhole : o.settings.partitioning = .perInstrument) :
    Outcome.sinkReason? d.ordered = none := by
  apply Outcome.sinkReason?_eq_none.mpr
  intro out hOut reason hRejected
  have hMem := d.ordered_perm.mem_iff.mp hOut
  rw [(h.outcomes out hMem).kept_eq_none hWhole] at hRejected
  cases hRejected

/- A file with a report of success is that of a plan. -/
theorem FileOk.fetched_of_persisted
    {f : File κ}
    (h : p.FileOk f)
    (hState : (f.report o).state = .persisted) :
    ∃ windows, p.Fetched f.desk windows := by
  rcases h.shape with ⟨range, fault, _, _, _, hDesk⟩ | hFetched
  · unfold File.report Desk.close at hState
    have hFailure : f.desk.failure.isSome = true := by
      rw [hDesk]
      rfl
    rw [if_pos hFailure, hDesk] at hState
    cases hState
  · exact hFetched

------------------------------------------------------------
-- What was handed over for an instrument
------------------------------------------------------------

/- The report is about the instrument of the file. -/
theorem instrument_report (o : Office σ κ) (f : File κ) :
    (f.report o).instrument = f.desk.instrument := by
  unfold File.report Desk.close
  split
  · rfl
  · unfold Desk.merge
    simp only
    split
    · rfl
    · split
      · rfl
      · split
        · rfl
        · split <;> rfl

theorem instrument_fileResults
    {o : Office σ κ}
    {f : File κ}
    {result : Result}
    (hMem : result ∈ f.results o) :
    result.instrument = f.desk.instrument := by
  rcases List.mem_append.mp hMem with hDesk | hLast
  · exact (Desk.mem_results hDesk).2.2
  · exact (f.handed_eq o).2 result hLast

/- The results of a name. -/
def resultsFor
    (name : String)
    (results : List Result) : List Result :=
  results.filter fun result => result.instrument.name = name

theorem resultsFor_eq_nil
    {name : String}
    {results : List Result}
    (hOther : ∀ r ∈ results, r.instrument.name ≠ name) :
    resultsFor name results = [] := by
  refine List.filter_eq_nil_iff.mpr ?_
  intro r hr hName
  exact hOther r hr (of_decide_eq_true hName)

/-
  Where names differ, what was handed over under the name of
  a file is what the file says.
-/
theorem RunOk.resultsFor_perm
    {instruments : List Instrument}
    {r : Run σ κ}
    {files : List (File κ)}
    (h : p.RunOk instruments r files)
    (hNames : (instruments.map Instrument.name).Nodup)
    {f : File κ}
    (hFile : f ∈ files) :
    (resultsFor f.desk.instrument.name r.depot.handed).Perm
      (f.results o) := by
  let name := f.desk.instrument.name
  rcases List.append_of_mem hFile with ⟨before, after, hSplit⟩
  have hDistinct := (h.roster.map Instrument.name).nodup_iff.mpr hNames
  rw [List.map_append, List.map_append, List.append_assoc] at hDistinct
  have hRest := (List.nodup_append.mp hDistinct).2.1
  rcases List.nodup_append.mp hRest with ⟨_, hFiles, hApart⟩
  rw [hSplit, List.map_append, List.map_append, List.map_cons,
    List.map_cons] at hFiles
  rcases List.nodup_append.mp hFiles with ⟨_, hAfter, hBefore⟩
  have hDesks :
      ∀ d ∈ r.desks, d.instrument.name ≠ name := by
    intro d hd
    refine
      hApart _ (List.mem_map_of_mem (List.mem_map_of_mem hd)) _ ?_
    exact List.mem_map_of_mem (List.mem_map_of_mem hFile)
  have hOthers (g : File κ) (hg : g ∈ before ∨ g ∈ after) :
      g.desk.instrument.name ≠ name := by
    rcases hg with hg | hg
    · exact
        hBefore _ (List.mem_map_of_mem (List.mem_map_of_mem hg)) _
          List.mem_cons_self
    · intro hSame
      refine (List.nodup_cons.mp hAfter).1 ?_
      change name ∈ _
      rw [← hSame]
      exact List.mem_map_of_mem (List.mem_map_of_mem hg)
  have hNoDesk :
      resultsFor name
        (r.desks.flatMap (Desk.results o.settings)) = [] := by
    apply resultsFor_eq_nil
    intro result hMem
    rcases List.mem_flatMap.mp hMem with ⟨d, hd, hResult⟩
    rw [(Desk.mem_results hResult).2.2]
    exact hDesks d hd
  have hNoFile (gs : List (File κ))
      (hGs : ∀ g ∈ gs, g ∈ before ∨ g ∈ after) :
      resultsFor name (gs.flatMap (File.results o)) = [] := by
    apply resultsFor_eq_nil
    intro result hMem
    rcases List.mem_flatMap.mp hMem with ⟨g, hg, hResult⟩
    rw [instrument_fileResults hResult]
    exact hOthers g (hGs g hg)
  have hOwn :
      resultsFor name (f.results o) = f.results o := by
    refine List.filter_eq_self.mpr ?_
    intro result hMem
    refine decide_eq_true ?_
    rw [instrument_fileResults hMem]
  have hHanded := h.handed.filter fun result =>
    decide (result.instrument.name = name)
  rw [hSplit, List.flatMap_append, List.flatMap_cons,
    List.filter_append, List.filter_append,
    List.filter_append] at hHanded
  change
    (resultsFor name r.depot.handed).Perm
      (resultsFor name _ ++ (resultsFor name _
        ++ (resultsFor name _ ++ resultsFor name _))) at hHanded
  rw [hNoDesk, hNoFile before fun g hg => Or.inl hg,
    hNoFile after fun g hg => Or.inr hg, hOwn,
    List.nil_append, List.nil_append, List.append_nil] at hHanded
  exact hHanded

end Prospect

end TradeTape
