import TradeTape.Proofs.Run.Duties

/-
  How far a desk can be, and what is filed of it.

  Each window of a plan waits, is walked or has an outcome,
  and the results of a desk are those of its outcomes.  What
  may be known of outcomes is what a prospect says.

  Key statements include:
    * `File`
    * `Prospect.Planned`
    * `Prospect.OutcomeOk`
    * `Prospect.DeskOk`
    * `Prospect.FileOk`
-/

namespace TradeTape

------------------------------------------------------------
-- Results of a desk
------------------------------------------------------------

namespace Desk

/- What a desk has handed to the sink, window by window. -/
def results
    (s : Settings)
    (d : Desk) : List Result :=
  d.outcomes.filterMap fun out =>
    windowResult? s d.instrument out.window out.walked

/- What is kept of a window by itself says so. -/
theorem windowResult?_eq_some
    {s : Settings}
    {i : Instrument}
    {w : Window}
    {walked : Except Fault Haul}
    {result : Result}
    (hResult : windowResult? s i w walked = some result) :
    s.partitioning = .perWindow
      ∧ result.window = some w
      ∧ result.instrument = i := by
  unfold windowResult? at hResult
  split at hResult
  · cases hResult
  · split at hResult
    · cases hResult
    · rename_i hPartitioning
      split at hResult
      · cases hResult
      · cases hResult
        exact ⟨hPartitioning, rfl, rfl⟩

theorem mem_results
    {s : Settings}
    {d : Desk}
    {result : Result}
    (hMem : result ∈ d.results s) :
    s.partitioning = .perWindow
      ∧ result.window.isSome = true
      ∧ result.instrument = d.instrument := by
  rcases List.mem_filterMap.mp hMem with ⟨out, _, hResult⟩
  rcases windowResult?_eq_some hResult with
    ⟨hPartitioning, hWindow, hInstrument⟩
  rw [hWindow]
  exact ⟨hPartitioning, rfl, hInstrument⟩

/- Nothing is kept of single windows if all is kept as one. -/
theorem windowResult?_eq_none
    {s : Settings}
    (hWhole : s.partitioning = .perInstrument)
    (i : Instrument)
    (w : Window)
    (walked : Except Fault Haul) :
    windowResult? s i w walked = none := by
  unfold windowResult?
  rw [hWhole]
  cases walked <;> rfl

theorem results_eq_nil
    {s : Settings}
    (hWhole : s.partitioning = .perInstrument)
    (d : Desk) :
    d.results s = [] := by
  apply List.filterMap_eq_nil_iff.mpr
  intro out _
  exact windowResult?_eq_none hWhole d.instrument out.window out.walked

/- Taking a haul hands over what is kept of its window. -/
theorem handed_takeHaul
    {κ : Type}
    (s : Settings)
    (sink : Sink κ)
    (depot : Depot κ)
    (d : Desk)
    (w : Window)
    (walked : Except Fault Haul) :
    (d.takeHaul s sink depot w walked).2.handed =
      depot.handed
        ++ (windowResult? s d.instrument w walked).toList := by
  unfold takeHaul
  cases windowResult? s d.instrument w walked with
  | none => exact (List.append_nil _).symm
  | some result => rfl

/- Closing a desk hands over one result at most. -/
theorem handed_close
    {κ : Type}
    (s : Settings)
    (sink : Sink κ)
    (depot : Depot κ)
    (d : Desk) :
    ∃ last,
      (d.close s sink depot).2.handed = depot.handed ++ last
        ∧ ∀ result ∈ last, result.instrument = d.instrument := by
  have hNothing :
      ∃ last,
        depot.handed = depot.handed ++ last
          ∧ ∀ result ∈ last, result.instrument = d.instrument :=
    ⟨[], (List.append_nil _).symm, by simp⟩
  have hWhole (e : Desk) (hSame : e.instrument = d.instrument) :
      ∃ last,
        depot.handed ++ [e.wholeResult d.ordered]
            = depot.handed ++ last
          ∧ ∀ result ∈ last, result.instrument = d.instrument := by
    refine ⟨_, rfl, ?_⟩
    intro result hResult
    rw [List.mem_singleton.mp hResult]
    exact hSame
  unfold close
  split
  · exact hNothing
  · unfold merge
    simp only
    split
    · exact hNothing
    · split
      · exact hNothing
      · split
        · exact hNothing
        · split <;> exact hWhole (d.fire .merge) rfl

end Desk

/- A desk when it is closed, and the sink at that time. -/
structure File (κ : Type) where
  desk : Desk
  depot : Depot κ

namespace File

variable {σ κ : Type}

/- The report that is written of a file. -/
def report
    (o : Office σ κ)
    (f : File κ) : Report :=
  (f.desk.close o.settings o.sink f.depot).1

/- What is handed to the sink when the desk is closed. -/
def last
    (o : Office σ κ)
    (f : File κ) : List Result :=
  (f.desk.close o.settings o.sink f.depot).2.handed.drop
    f.depot.handed.length

/- All that was handed to the sink for the instrument. -/
def results
    (o : Office σ κ)
    (f : File κ) : List Result :=
  f.desk.results o.settings ++ f.last o

theorem handed_eq
    (o : Office σ κ)
    (f : File κ) :
    (f.desk.close o.settings o.sink f.depot).2.handed =
        f.depot.handed ++ f.last o
      ∧ ∀ result ∈ f.last o,
          result.instrument = f.desk.instrument := by
  unfold last
  rcases Desk.handed_close o.settings o.sink f.depot f.desk with
    ⟨more, hMore, hOwn⟩
  rw [hMore, List.drop_left]
  exact ⟨rfl, hOwn⟩

end File

------------------------------------------------------------
-- Desks
------------------------------------------------------------

namespace Prospect

variable {σ κ : Type} {o : Office σ κ} {cancels : Prop}
variable (p : Prospect o cancels)

/- The windows that a plan may have. -/
def Planned
    (i : Instrument)
    (windows : List Window) : Prop :=
  match i.validRange o.reference, o.settings.pagination with
  | none, _ => windows = []
  | some range, .time =>
      windows = Desk.timePlan o.settings range
  | some range, .sequence =>
      ∃ latest,
        p.Found i.name range.endMs (.ok latest)
          ∧ windows = Desk.seqPlan o.settings latest

/- What a sink may have answered. -/
def KeptOk
    (result : Option Result)
    (kept : Option (Except String Stored)) : Prop :=
  match result with
  | none => kept = none
  | some r => ∃ answer, p.Answered r answer ∧ kept = some answer

/- An outcome of a walk of an instrument. -/
structure OutcomeOk
    (i : Instrument)
    (out : Outcome) : Prop where
  ends : p.Ends i.name out.window out.walked
  kept :
    p.KeptOk
      (Desk.windowResult? o.settings i out.window out.walked)
      out.kept

/- A desk at which planning has begun. -/
def planning (d : Desk) : Desk :=
  (Desk.start d.position d.instrument).fire .plan

/-
  How far a desk can be, with the duties of its jobs.  Of the
  windows of its plan some wait, some are open and some have
  an outcome.
-/
inductive DeskOk
    (d : Desk)
    (duties : List Duty) : Prop where
  | fresh
      (hDesk : d = Desk.start d.position d.instrument)
      (hDuties : duties = [])
  | looking
      (range : TimeWindow)
      (hRange : d.instrument.validRange o.reference = some range)
      (hPagination : o.settings.pagination = .sequence)
      (hDesk : d = planning d)
      (hDuties :
        duties = [.lookup d.instrument.name range.endMs])
  | unplanned
      (range : TimeWindow)
      (fault : Fault)
      (hRange : d.instrument.validRange o.reference = some range)
      (hPagination : o.settings.pagination = .sequence)
      (hFound :
        p.Found d.instrument.name range.endMs (.error fault))
      (hDesk : d = (planning d).withoutPlan fault)
      (hDuties : duties = [])
  | fetching
      (windows opened : List Window)
      (hPlanned : p.Planned d.instrument windows)
      (hDesk :
        d =
          { (planning d).withPlan windows with
            pending := d.pending
            outcomes := d.outcomes })
      (hDuties :
        duties.Perm
          (opened.map fun w => .walk d.instrument.name w))
      (hShare :
        (d.pending ++ opened
          ++ d.outcomes.map Outcome.window).Perm windows)
      (hOutcomes :
        ∀ out ∈ d.outcomes, p.OutcomeOk d.instrument out)

/- What is filed of a desk when all is done there. -/
structure FileOk (f : File κ) : Prop where
  desk : p.DeskOk f.desk []
  touched : ¬f.desk.Untouched
  pending : f.desk.pending = []
  depot : p.Holds f.depot

------------------------------------------------------------
-- Desks that change
------------------------------------------------------------

variable {p}

theorem DeskOk.untouched
    {d : Desk}
    {duties : List Duty}
    (h : p.DeskOk d duties)
    (hUntouched : d.Untouched) :
    d = Desk.start d.position d.instrument ∧ duties = [] := by
  unfold Desk.Untouched at hUntouched
  cases h with
  | fresh hDesk hDuties => exact ⟨hDesk, hDuties⟩
  | looking range hRange hPagination hDesk hDuties =>
      rw [hDesk] at hUntouched
      cases hUntouched
  | unplanned range fault hRange hPagination hFound hDesk hDuties =>
      rw [hDesk] at hUntouched
      cases hUntouched
  | fetching windows opened hPlanned hDesk hDuties hShare hOutcomes =>
      rw [hDesk] at hUntouched
      cases hUntouched

/- Planning at a fresh desk. -/
theorem deskOk_plan
    {d : Desk}
    (hDesk : d = Desk.start d.position d.instrument) :
    match d.plan o.settings o.reference with
    | (d', none) =>
        p.DeskOk d' []
          ∧ d'.position = d.position
          ∧ d'.instrument = d.instrument
          ∧ d'.outcomes = []
    | (d', some endMs) =>
        p.DeskOk d' [.lookup d.instrument.name endMs]
          ∧ d'.position = d.position
          ∧ d'.instrument = d.instrument
          ∧ d'.outcomes = [] := by
  have hFire : d.fire .plan = planning d := by
    unfold planning
    rw [← hDesk]
  have hInstrument : (d.fire .plan).instrument = d.instrument := rfl
  -- A plan that is made at once: all its windows wait.
  have hPlan (windows : List Window)
      (hPlanned : p.Planned d.instrument windows) :
      p.DeskOk ((d.fire .plan).withPlan windows) []
        ∧ ((d.fire .plan).withPlan windows).outcomes = [] := by
    rw [hFire]
    refine ⟨?_, rfl⟩
    exact
      DeskOk.fetching windows [] hPlanned rfl (List.Perm.refl _)
        (by
          change (windows ++ [] ++ []).Perm windows
          rw [List.append_nil, List.append_nil])
        (by
          intro out hOut
          exact absurd hOut List.not_mem_nil)
  unfold Desk.plan
  simp only [hInstrument]
  cases hRange : d.instrument.validRange o.reference with
  | none =>
      have hPlanned : p.Planned d.instrument [] := by
        simp only [Planned, hRange]
      exact ⟨(hPlan [] hPlanned).1, rfl, rfl, (hPlan [] hPlanned).2⟩
  | some range =>
      cases hPagination : o.settings.pagination with
      | time =>
          have hPlanned :
              p.Planned d.instrument
                (Desk.timePlan o.settings range) := by
            simp only [Planned, hRange, hPagination]
          exact
            ⟨(hPlan _ hPlanned).1, rfl, rfl, (hPlan _ hPlanned).2⟩
      | sequence =>
          refine ⟨?_, rfl, rfl, ?_⟩
          · rw [hFire]
            exact
              DeskOk.looking range hRange hPagination rfl rfl
          · simp only [hFire]
            rfl

/- A window of the plan is started. -/
theorem DeskOk.start
    {d : Desk}
    {duties : List Duty}
    {w : Window}
    {rest : List Window}
    (h : p.DeskOk d duties)
    (hPending : d.pending = w :: rest) :
    p.DeskOk { d with pending := rest }
      (duties ++ [.walk d.instrument.name w]) := by
  cases h with
  | fresh hDesk hDuties =>
      rw [hDesk] at hPending
      cases hPending
  | looking range hRange hPagination hDesk hDuties =>
      rw [hDesk] at hPending
      cases hPending
  | unplanned range fault hRange hPagination hFound hDesk hDuties =>
      rw [hDesk] at hPending
      cases hPending
  | fetching windows opened hPlanned hDesk hDuties hShare hOutcomes =>
      refine
        DeskOk.fetching windows (opened ++ [w]) hPlanned ?_ ?_ ?_
          hOutcomes
      · change
          ({ d with pending := rest } : Desk) =
            { (planning d).withPlan windows with
              pending := rest
              outcomes := d.outcomes }
        rw [hDesk]
        rfl
      · rw [List.map_append]
        exact hDuties.append_right _
      · refine List.Perm.trans ?_ hShare
        rw [hPending]
        change
          (rest ++ (opened ++ [w]) ++ d.outcomes.map _).Perm
            (w :: rest ++ opened ++ d.outcomes.map _)
        refine List.Perm.append_right _ ?_
        rw [← List.append_assoc]
        exact List.perm_append_comm

/- The duty of a job that works at a desk. -/
theorem DeskOk.lookup
    {d : Desk}
    {duties rest : List Duty}
    {name : String}
    {endMs : Int}
    (h : p.DeskOk d duties)
    (hDuty : duties.Perm (.lookup name endMs :: rest)) :
    (∃ range,
        d.instrument.validRange o.reference = some range
          ∧ name = d.instrument.name
          ∧ endMs = range.endMs)
      ∧ o.settings.pagination = .sequence
      ∧ d = planning d
      ∧ rest = [] := by
  cases h with
  | fresh hDesk hDuties =>
      rw [hDuties] at hDuty
      cases hDuty.nil_eq
  | unplanned range fault hRange hPagination hFound hDesk hDuties =>
      rw [hDuties] at hDuty
      cases hDuty.nil_eq
  | looking range hRange hPagination hDesk hDuties =>
      rw [hDuties] at hDuty
      have hSame := List.singleton_perm.mp hDuty
      simp only [List.cons.injEq, Duty.lookup.injEq] at hSame
      exact
        ⟨⟨range, hRange, hSame.1.1.symm, hSame.1.2.symm⟩,
          hPagination, hDesk, hSame.2.symm⟩
  | fetching windows opened hPlanned hDesk hDuties hShare hOutcomes =>
      have hMem :
          Duty.lookup name endMs
            ∈ opened.map fun w => .walk d.instrument.name w :=
        hDuties.mem_iff.mp (hDuty.mem_iff.mpr List.mem_cons_self)
      rcases List.mem_map.mp hMem with ⟨w, _, hw⟩
      cases hw

/- A look-up has ended. -/
theorem DeskOk.afterLookup
    {d : Desk}
    {duties rest : List Duty}
    {name : String}
    {endMs : Int}
    {found : Except Fault (Option Int)}
    (h : p.DeskOk d duties)
    (hDuty : duties.Perm (.lookup name endMs :: rest))
    (hFound : p.Found name endMs found) :
    p.DeskOk (d.afterLookup o.settings found) rest
      ∧ (d.afterLookup o.settings found).outcomes = [] := by
  rcases h.lookup hDuty with
    ⟨⟨range, hRange, rfl, rfl⟩, hPagination, hDesk, rfl⟩
  unfold Desk.afterLookup
  cases found with
  | error f =>
      rw [hDesk]
      exact
        ⟨DeskOk.unplanned range f hRange hPagination hFound rfl rfl,
          rfl⟩
  | ok latest =>
      have hPlanned :
          p.Planned d.instrument
            (Desk.seqPlan o.settings latest) := by
        simp only [Planned, hRange, hPagination]
        exact ⟨latest, hFound, rfl⟩
      rw [hDesk]
      refine ⟨?_, rfl⟩
      exact
        DeskOk.fetching (Desk.seqPlan o.settings latest) [] hPlanned
          rfl (List.Perm.refl _)
          (by
            change (Desk.seqPlan o.settings latest ++ [] ++ []).Perm _
            rw [List.append_nil, List.append_nil])
          (by
            intro out hOut
            exact absurd hOut List.not_mem_nil)

/- The walk over a window has ended. -/
theorem DeskOk.takeHaul
    {d : Desk}
    {duties rest : List Duty}
    {name : String}
    {w : Window}
    {walked : Except Fault Haul}
    {depot : Depot κ}
    (h : p.DeskOk d duties)
    (hDuty : duties.Perm (.walk name w :: rest))
    (hEnds : p.Ends name w walked)
    (hDepot : p.Holds depot) :
    let after := d.takeHaul o.settings o.sink depot w walked
    p.DeskOk after.1 rest
      ∧ p.Holds after.2
      ∧ after.1.position = d.position
      ∧ after.1.instrument = d.instrument
      ∧ after.1.results o.settings =
        d.results o.settings
          ++ (Desk.windowResult? o.settings d.instrument w
              walked).toList := by
  -- What the sink answers is added to the outcome.
  have hAfter :
      ∃ kept depot',
        d.takeHaul o.settings o.sink depot w walked =
            ({ d with
                outcomes := d.outcomes ++ [⟨w, walked, kept⟩] },
              depot')
          ∧ p.Holds depot'
          ∧ p.KeptOk
              (Desk.windowResult? o.settings d.instrument w walked)
              kept := by
    unfold Desk.takeHaul
    cases hResult :
        Desk.windowResult? o.settings d.instrument w walked with
    | none => exact ⟨none, depot, rfl, hDepot, rfl⟩
    | some result =>
        rcases p.keeps depot result hDepot with ⟨hHolds, hAnswer⟩
        exact ⟨_, _, rfl, hHolds, _, hAnswer, rfl⟩
  intro after
  rcases hAfter with ⟨kept, depot', hEq, hHolds, hKept⟩
  have hAfter : after = _ := hEq
  rw [hAfter]
  refine ⟨?_, hHolds, rfl, rfl, ?_⟩
  · cases h with
    | fresh hDesk hDuties =>
        rw [hDuties] at hDuty
        cases hDuty.nil_eq
    | unplanned range fault hRange hPagination hFound hDesk hDuties =>
        rw [hDuties] at hDuty
        cases hDuty.nil_eq
    | looking range hRange hPagination hDesk hDuties =>
        rw [hDuties] at hDuty
        have hSame := List.singleton_perm.mp hDuty
        simp at hSame
    | fetching windows opened hPlanned hDesk hDuties hShare
        hOutcomes =>
        have hBoth := hDuties.symm.trans hDuty
        have hMem := hBoth.mem_iff.mpr List.mem_cons_self
        rcases List.mem_map.mp hMem with ⟨v, hv, hSame⟩
        rcases Duty.walk.inj hSame with ⟨rfl, rfl⟩
        have hErase := List.perm_cons_erase hv
        have hRest :
            rest.Perm
              ((opened.erase v).map fun w =>
                .walk d.instrument.name w) :=
          (hBoth.symm.trans (hErase.map _)).cons_inv
        refine
          DeskOk.fetching windows (opened.erase v) hPlanned ?_
            hRest ?_ ?_
        · have hNew (outcomes : List Outcome) :
              ({ d with outcomes := outcomes } : Desk) =
                { (planning d).withPlan windows with
                  pending := d.pending
                  outcomes := outcomes } := by
            rw [hDesk]
            rfl
          exact hNew (d.outcomes ++ [⟨v, walked, kept⟩])
        · refine List.Perm.trans ?_ hShare
          rw [List.map_append, ← List.append_assoc]
          change
            (d.pending ++ opened.erase v ++ d.outcomes.map _
              ++ [v]).Perm _
          refine List.perm_append_comm.trans ?_
          rw [← List.append_assoc, ← List.append_assoc]
          refine List.Perm.append_right _ ?_
          refine List.perm_middle.symm.trans ?_
          exact List.Perm.append_left _ hErase.symm
        · intro out hOut
          rcases List.mem_append.mp hOut with hOld | hNew
          · exact hOutcomes out hOld
          · rw [List.mem_singleton.mp hNew]
            exact { ends := hEnds, kept := hKept }
  · unfold Desk.results
    rw [List.filterMap_append]
    congr 1

end Prospect

end TradeTape
