import TradeTape.Proofs.Run.Completion
import TradeTape.Proofs.Run.Journal

/-
  What the journal of a run tells of each desk.

  A desk is what its deeds have made of it: its plan follows
  from what its look-up has found, and it has an outcome for
  each walk that has ended.  Nothing is told of an instrument
  that waits, and nothing more of one that has a report.

  Key statements include:
    * `Plans`
    * `Desk.Came`
    * `Chronicle`
    * `Chronicle.told`
    * `Chronicle.of_recounted`
    * `Chronicle.of_toEnd`
-/

namespace TradeTape

------------------------------------------------------------
-- Deeds of a position
------------------------------------------------------------

theorem deedsAt_append
    (position : Nat)
    (journal news : List Note) :
    deedsAt position (journal ++ news) =
      deedsAt position journal ++ deedsAt position news := by
  unfold deedsAt
  rw [List.filter_append, List.map_append]

namespace Run

variable {σ κ : Type}

theorem deedsAt_notes
    (r : Run σ κ)
    (position : Nat)
    (deeds : List Deed) :
    deedsAt position (r.notes position deeds) = deeds := by
  unfold deedsAt notes
  rw [List.filter_eq_self.mpr]
  · rw [List.map_map]
    exact List.map_id deeds
  · intro n hn
    rcases List.mem_map.mp hn with ⟨deed, _, rfl⟩
    exact decide_eq_true rfl

theorem deedsAt_notes_of_ne
    (r : Run σ κ)
    {position other : Nat}
    (hOther : other ≠ position)
    (deeds : List Deed) :
    deedsAt other (r.notes position deeds) = [] := by
  unfold deedsAt notes
  rw [List.map_eq_nil_iff, List.filter_eq_nil_iff]
  intro n hn hAt
  rcases List.mem_map.mp hn with ⟨deed, _, rfl⟩
  exact hOther (of_decide_eq_true hAt).symm

theorem deed_notes
    (r : Run σ κ)
    (position : Nat)
    (deeds : List Deed) :
    (r.notes position deeds).map Note.deed = deeds := by
  unfold notes
  rw [List.map_map]
  exact List.map_id deeds

/- Offers are no reports. -/
theorem reports_offers
    (o : Office σ κ)
    (r : Run σ κ)
    (results : List Result) :
    (offers o r results).filterMap Deed.report? = [] := by
  induction results with
  | nil => rfl
  | cons result rest ih => exact ih

/- What was offered is what the offers tell of. -/
theorem results_offers
    (o : Office σ κ)
    (r : Run σ κ)
    (results : List Result) :
    ((offers o r results).filterMap Deed.offer?).map Prod.fst
      = results := by
  induction results with
  | nil => rfl
  | cons result rest ih => exact congrArg (result :: ·) ih

end Run

------------------------------------------------------------
-- Plans
------------------------------------------------------------

/- The plan of an instrument, by what its look-up has found. -/
inductive Plans
    (s : Settings)
    (reference : Option Int)
    (i : Instrument) :
    List (Except Fault (Option Int)) →
      Except Fault (List Window) → Prop where
  | nothing
      (hRange : i.validRange reference = none) :
      Plans s reference i [] (.ok [])
  | instants
      (range : TimeWindow)
      (hRange : i.validRange reference = some range)
      (hPagination : s.pagination = .time) :
      Plans s reference i [] (.ok (Desk.timePlan s range))
  | numbers
      (range : TimeWindow)
      (latest : Option Int)
      (hRange : i.validRange reference = some range)
      (hPagination : s.pagination = .sequence) :
      Plans s reference i [.ok latest]
        (.ok (Desk.seqPlan s latest))
  | unknown
      (range : TimeWindow)
      (fault : Fault)
      (hRange : i.validRange reference = some range)
      (hPagination : s.pagination = .sequence) :
      Plans s reference i [.error fault] (.error fault)

------------------------------------------------------------
-- What has made a desk
------------------------------------------------------------

namespace Outcome

/- What was offered of a window by itself, and its answer. -/
def offer?
    (s : Settings)
    (i : Instrument)
    (out : Outcome) : Option (Result × Except String Stored) :=
  (Desk.windowResult? s i out.window out.walked).bind fun result =>
    out.kept.map fun answer => (result, answer)

/- The deeds of a walk that has ended. -/
def deeds
    (s : Settings)
    (i : Instrument)
    (out : Outcome) : List Deed :=
  .walked out.window out.walked
    :: (out.offer? s i).toList.map fun offer =>
      .offered offer.1 offer.2

end Outcome

namespace Desk

/- The place of a desk, and its instrument. -/
def place (d : Desk) : Nat × Instrument :=
  (d.position, d.instrument)

/-
  The deeds that have made a desk what it is, with the duties
  of its jobs.  Once there is a plan, what waits, is walked or
  has an outcome is in the plan.
-/
inductive Came
    (s : Settings)
    (reference : Option Int)
    (d : Desk)
    (duties : List Duty) : List Deed → Prop where
  | fresh
      (hDesk :
        d = Desk.start d.position d.instrument
          ∨ d = Prospect.planning d)
      (hDuties : ∀ name w, .walk name w ∉ duties) :
      Came s reference d duties []
  | unplanned
      (fault : Fault)
      (hPlan : Plans s reference d.instrument [.error fault] (.error fault))
      (hDesk : d = (Prospect.planning d).withoutPlan fault)
      (hDuties : ∀ name w, .walk name w ∉ duties) :
      Came s reference d duties [.found (.error fault)]
  | fetching
      (windows : List Window)
      (looked : List (Except Fault (Option Int)))
      (hPlan : Plans s reference d.instrument looked (.ok windows))
      (hDesk :
        d =
          { (Prospect.planning d).withPlan windows with
            pending := d.pending
            outcomes := d.outcomes })
      (hPending : ∀ w ∈ d.pending, w ∈ windows)
      (hDuties : ∀ name w, .walk name w ∈ duties → w ∈ windows)
      (hOutcomes : ∀ out ∈ d.outcomes, out.window ∈ windows) :
      Came s reference d duties
        (looked.map .found
          ++ d.outcomes.flatMap (Outcome.deeds s d.instrument))

variable {s : Settings} {reference : Option Int} {d : Desk}
variable {duties : List Duty} {deeds : List Deed}

/- A desk that has its plan, and the windows of it that wait. -/
theorem came_withPlan
    {windows : List Window}
    {looked : List (Except Fault (Option Int))}
    (hPlan : Plans s reference d.instrument looked (.ok windows)) :
    ((Prospect.planning d).withPlan windows).Came s reference []
      (looked.map .found) := by
  have hCame :
      ((Prospect.planning d).withPlan windows).Came s reference []
        (looked.map .found ++ []) :=
    Came.fetching windows looked hPlan rfl (fun _ hw => hw)
      (fun _ _ hDuty => absurd hDuty List.not_mem_nil)
      (fun _ hOut => absurd hOut List.not_mem_nil)
  rw [List.append_nil] at hCame
  exact hCame

/- Planning at a fresh desk comes to no deed yet. -/
theorem came_plan
    (hDesk : d = Desk.start d.position d.instrument) :
    match d.plan s reference with
    | (d', none) =>
        d'.place = d.place ∧ d'.Came s reference [] []
    | (d', some endMs) =>
        d'.place = d.place
          ∧ d'.Came s reference [.lookup d.instrument.name endMs]
            [] := by
  have hFire : d.fire .plan = Prospect.planning d := by
    unfold Prospect.planning
    rw [← hDesk]
  have hInstrument : (Prospect.planning d).instrument = d.instrument :=
    rfl
  unfold plan
  simp only [hFire, hInstrument]
  cases hRange : d.instrument.validRange reference with
  | none =>
      exact ⟨rfl, came_withPlan (Plans.nothing hRange)⟩
  | some range =>
      cases hPagination : s.pagination with
      | time =>
          have hPlan := Plans.instants range hRange hPagination
          exact ⟨rfl, came_withPlan hPlan⟩
      | sequence =>
          refine ⟨rfl, Came.fresh (Or.inr rfl) ?_⟩
          intro name w hDuty
          cases List.mem_singleton.mp hDuty

namespace Came

/- Nothing has come to pass before there is a plan. -/
theorem eq_nil
    (h : d.Came s reference duties deeds)
    (hDesk :
      d = Desk.start d.position d.instrument
        ∨ d = Prospect.planning d) :
    deeds = [] := by
  -- In every other case the life of the desk has gone on.
  have hLife : d.life ≠ .ok ⟨.fetching, Lifecycle.rows⟩
      ∧ d.life ≠ .ok ⟨.failed, Lifecycle.rows⟩ := by
    rcases hDesk with hDesk | hDesk <;> rw [hDesk] <;>
      refine ⟨?_, ?_⟩ <;> intro hSame <;>
      cases congrArg Lifecycle.state hSame
  cases h with
  | fresh _ _ => rfl
  | unplanned fault _ hUnplanned _ =>
      refine absurd ?_ hLife.2
      rw [hUnplanned]
      rfl
  | fetching windows looked _ hPlanned _ _ _ =>
      refine absurd ?_ hLife.1
      rw [hPlanned]
      rfl

/- A window of the plan is started. -/
theorem start
    {w : Window}
    {rest : List Window}
    (h : d.Came s reference duties deeds)
    (hPending : d.pending = w :: rest)
    (name : String) :
    ({ d with pending := rest } : Desk).Came s reference
      (duties ++ [.walk name w]) deeds := by
  cases h with
  | fresh hDesk _ =>
      rcases hDesk with hDesk | hDesk <;> rw [hDesk] at hPending <;>
        cases hPending
  | unplanned fault _ hDesk _ =>
      rw [hDesk] at hPending
      cases hPending
  | fetching windows looked hPlan hDesk hWaits hDuties hOutcomes =>
      rw [hPending] at hWaits
      refine
        Came.fetching (d := { d with pending := rest }) windows looked
          hPlan ?_ ?_ ?_ hOutcomes
      · change
          ({ d with pending := rest } : Desk) =
            { (Prospect.planning d).withPlan windows with
              pending := rest
              outcomes := d.outcomes }
        rw [hDesk]
        rfl
      · intro v hv
        exact hWaits v (List.mem_cons_of_mem w hv)
      · intro name' v hDuty
        rcases List.mem_append.mp hDuty with hOld | hNew
        · exact hDuties name' v hOld
        · cases List.mem_singleton.mp hNew
          exact hWaits w List.mem_cons_self

/- A look-up has ended. -/
theorem afterLookup
    {range : TimeWindow}
    (h : d.Came s reference duties deeds)
    (hDesk : d = Prospect.planning d)
    (hRange : d.instrument.validRange reference = some range)
    (hPagination : s.pagination = .sequence)
    (found : Except Fault (Option Int)) :
    (d.afterLookup s found).Came s reference []
      (deeds ++ [.found found]) := by
  rw [h.eq_nil (Or.inr hDesk), List.nil_append]
  cases found with
  | ok latest =>
      have hPlan :=
        Plans.numbers (s := s) range latest hRange hPagination
      have hCame := came_withPlan hPlan
      rw [← hDesk] at hCame
      exact hCame
  | error fault =>
      have hPlan :=
        Plans.unknown (s := s) range fault hRange hPagination
      have hNew : d.withoutPlan fault
          = (Prospect.planning (d.withoutPlan fault)).withoutPlan
            fault := by
        rw [hDesk]
        rfl
      exact
        Came.unplanned (d := d.withoutPlan fault) fault hPlan hNew
          (fun _ _ hDuty => absurd hDuty List.not_mem_nil)

/- The walk over a window has ended. -/
theorem takeHaul
    {κ : Type}
    {name : String}
    {w : Window}
    {rest : List Duty}
    (h : d.Came s reference duties deeds)
    (hDuty : duties.Perm (.walk name w :: rest))
    (sink : Sink κ)
    (depot : Depot κ)
    (walked : Except Fault Haul) :
    (d.takeHaul s sink depot w walked).1.Came s reference rest
      (deeds
        ++ .walked w walked
          :: (windowResult? s d.instrument w walked).toList.map
            fun result =>
              .offered result (depot.keep sink result).1) := by
  have hOwn : .walk name w ∈ duties :=
    hDuty.mem_iff.mpr List.mem_cons_self
  cases h with
  | fresh _ hNone => exact absurd hOwn (hNone name w)
  | unplanned _ _ _ hNone => exact absurd hOwn (hNone name w)
  | fetching windows looked hPlan hDesk hWaits hDuties hOutcomes =>
      -- What is added to the journal is told of by the outcome.
      have hAfter :
          ∃ out : Outcome,
            out.window = w
              ∧ (d.takeHaul s sink depot w walked).1 =
                { d with outcomes := d.outcomes ++ [out] }
              ∧ out.deeds s d.instrument =
                .walked w walked
                  :: (windowResult? s d.instrument w
                      walked).toList.map fun result =>
                    .offered result (depot.keep sink result).1 := by
        unfold Desk.takeHaul Outcome.deeds Outcome.offer?
        cases hResult : windowResult? s d.instrument w walked with
        | none =>
            refine ⟨⟨w, walked, none⟩, rfl, rfl, ?_⟩
            simp only [hResult]
            rfl
        | some result =>
            refine
              ⟨⟨w, walked, some (depot.keep sink result).1⟩, rfl,
                rfl, ?_⟩
            simp only [hResult]
            rfl
      rcases hAfter with ⟨out, hWindow, hEq, hDeeds⟩
      rw [hEq, ← hDeeds, List.append_assoc]
      have hNew : ({ d with outcomes := d.outcomes ++ [out] } : Desk) =
          { (Prospect.planning d).withPlan windows with
            pending := d.pending
            outcomes := d.outcomes ++ [out] } := by
        rw [hDesk]
        rfl
      have hCame :
          Came s reference { d with outcomes := d.outcomes ++ [out] }
            rest
            (looked.map .found
              ++ (d.outcomes ++ [out]).flatMap
                (Outcome.deeds s d.instrument)) := by
        refine Came.fetching windows looked hPlan hNew hWaits ?_ ?_
        · intro name' v hv
          exact
            hDuties name' v
              (hDuty.mem_iff.mpr (List.mem_cons_of_mem _ hv))
        · intro other hOther
          rcases List.mem_append.mp hOther with hOld | hLast
          · exact hOutcomes other hOld
          · rw [List.mem_singleton.mp hLast, hWindow]
            exact hDuties name w hOwn
      rw [List.flatMap_append, List.flatMap_singleton] at hCame
      exact hCame

end Came

end Desk

------------------------------------------------------------
-- Chronicles
------------------------------------------------------------

/- The deeds of a desk up to its report. -/
def File.Recorded
    {σ κ : Type}
    (o : Office σ κ)
    (f : File κ)
    (all : List Deed) : Prop :=
  ∃ deeds,
    f.desk.Came o.settings o.reference [] deeds
      ∧ all =
        deeds
          ++ (f.last o).map (fun result =>
            .offered result (f.depot.keep o.sink result).1)
          ++ [.closed (f.report o)]

/-
  A run with its journal.  Each instrument of the list has a
  place of its own, where it waits, is at a desk or is filed,
  and the journal tells of each place what it should.
-/
structure Chronicle
    {σ κ : Type}
    (o : Office σ κ)
    (instruments : List Instrument)
    (r : Run σ κ)
    (files : List (File κ))
    (journal : List Note) : Prop where
  run : (Prospect.anything o).RunOk instruments r files
  places :
    (r.queue ++ r.desks.map Desk.place
      ++ files.map fun f => f.desk.place).Perm
      ((List.range instruments.length).zip instruments)
  waiting :
    ∀ place ∈ r.queue, deedsAt place.1 journal = []
  desks :
    ∀ d ∈ r.desks,
      d.Came o.settings o.reference
        (Crew.duties r.crew.jobs d.position)
        (deedsAt d.position journal)
  filed :
    ∀ f ∈ files,
      f.Recorded o (deedsAt f.desk.position journal)
  reports :
    (journal.map Note.deed).filterMap Deed.report? = r.reports
  handed :
    ((journal.map Note.deed).filterMap Deed.offer?).map Prod.fst
      = r.depot.handed

namespace Chronicle

variable {σ κ : Type} {o : Office σ κ}
variable {instruments : List Instrument}
variable {r r' : Run σ κ} {files : List (File κ)}
variable {journal : List Note}

theorem of_start
    (hCeiling : 0 < o.settings.maxInFlight)
    (venue : σ)
    (kept : κ)
    (cancelAt : Option Nat)
    (instruments : List Instrument) :
    Chronicle o instruments
      (Run.start o venue kept cancelAt instruments) [] [] :=
  { run :=
      (Prospect.anything o).runOk_start hCeiling venue kept cancelAt
        (fun _ => trivial) trivial instruments
    places := by
      simp only [Run.start, List.map_nil, List.append_nil]
      exact List.Perm.refl _
    waiting := fun _ _ => rfl
    desks := fun _ hDesk => absurd hDesk List.not_mem_nil
    filed := fun _ hFile => absurd hFile List.not_mem_nil
    reports := rfl
    handed := rfl }

/- No two places of a run are the same. -/
theorem nodup_positions
    (h : Chronicle o instruments r files journal) :
    ((r.queue ++ r.desks.map Desk.place
      ++ files.map fun f => f.desk.place).map Prod.fst).Nodup := by
  apply (h.places.map Prod.fst).nodup_iff.mpr
  rw [List.map_fst_zip (by simp)]
  exact List.nodup_range

/- Nobody else has the place of a desk. -/
theorem position_ne
    (h : Chronicle o instruments r files journal)
    {d : Desk}
    (hDesk : d ∈ r.desks) :
    (∀ place ∈ r.queue, place.1 ≠ d.position)
      ∧ ∀ f ∈ files, f.desk.position ≠ d.position := by
  have hNodup := h.nodup_positions
  rw [List.map_append, List.map_append, List.append_assoc,
    List.nodup_append] at hNodup
  rcases hNodup with ⟨_, hRest, hQueue⟩
  rcases List.nodup_append.mp hRest with ⟨_, _, hFiles⟩
  have hPosition :
      d.position ∈ (r.desks.map Desk.place).map Prod.fst :=
    List.mem_map_of_mem (List.mem_map_of_mem hDesk)
  constructor
  · intro place hPlace
    exact
      hQueue _ (List.mem_map_of_mem hPlace) _
        (List.mem_append_left _ hPosition)
  · intro f hFile hSame
    have hAt :
        f.desk.position
          ∈ (files.map fun f => f.desk.place).map Prod.fst :=
      List.mem_map_of_mem
        (List.mem_map_of_mem (f := fun f => f.desk.place) hFile)
    exact hFiles _ hPosition _ hAt hSame.symm

/- What is told of one place is told of no other. -/
theorem deedsAt_append_notes
    {position other : Nat}
    (hOther : other ≠ position)
    (deeds : List Deed) :
    deedsAt other (journal ++ r.notes position deeds)
      = deedsAt other journal := by
  rw [deedsAt_append, Run.deedsAt_notes_of_ne r hOther,
    List.append_nil]

theorem withFocus
    (h : Chronicle o instruments r files journal)
    (f : Option Nat) :
    Chronicle o instruments { r with focus := f } files journal :=
  { h with run := h.run.withFocus f }

------------------------------------------------------------
-- Moves
------------------------------------------------------------

/- A run in which nothing but the crew has changed. -/
theorem withCrew
    (h : Chronicle o instruments r files journal)
    {c : Crew (World σ) Errand Find}
    (hRun :
      (Prospect.anything o).RunOk instruments
        { r with crew := c } files)
    (hDuties :
      ∀ position,
        Crew.duties c.jobs position
          = Crew.duties r.crew.jobs position) :
    Chronicle o instruments { r with crew := c } files journal :=
  { h with
    run := hRun
    desks := by
      intro d hDesk
      rw [hDuties]
      exact h.desks d hDesk }

theorem opens
    (h : Chronicle o instruments r files journal)
    {position : Nat}
    {i : Instrument}
    {rest : List (Nat × Instrument)}
    (hQueue : r.queue = (position, i) :: rest) :
    Chronicle o instruments
      (Run.openDesk { r with queue := rest } position i) files
      journal := by
  have hDesks :
      (Run.openDesk { r with queue := rest } position i).desks
        = r.desks ++ [Desk.start position i] := rfl
  have hRun := h.run.opens hQueue
  have hNobody :
      Crew.duties r.crew.jobs position = [] := by
    have hOk :=
      hRun.desks (Desk.start position i)
        (List.mem_append_right _ List.mem_cons_self)
    exact (hOk.untouched rfl).2
  refine
    { h with
      run := hRun
      places := ?_
      waiting := ?_
      desks := ?_ }
  · have hPlaces := h.places
    rw [hQueue] at hPlaces
    refine List.Perm.trans ?_ hPlaces
    rw [hDesks, List.map_append]
    change
      (rest ++ (r.desks.map Desk.place ++ [(position, i)])
        ++ files.map _).Perm
        ((position, i) :: rest ++ r.desks.map Desk.place
          ++ files.map _)
    apply List.Perm.append_right
    rw [← List.append_assoc]
    exact List.perm_append_comm
  · intro place hPlace
    apply h.waiting
    rw [hQueue]
    exact List.mem_cons_of_mem _ hPlace
  · intro d hDesk
    rw [hDesks, List.mem_append, List.mem_singleton] at hDesk
    rcases hDesk with hOld | rfl
    · exact h.desks d hOld
    · have hSilent := h.waiting (position, i) (by rw [hQueue]; simp)
      change
        (Desk.start position i).Came o.settings o.reference
          (Crew.duties r.crew.jobs position)
          (deedsAt position journal)
      rw [hSilent, hNobody]
      exact
        Desk.Came.fresh (Or.inl rfl)
          (fun _ _ => List.not_mem_nil)

/- A desk has changed, and what came to pass is told of it. -/
theorem changes
    (h : Chronicle o instruments r files journal)
    {d d' : Desk}
    (hDesk : d ∈ r.desks)
    (hWork : Run.DeskMove o r d r')
    (hRun : (Prospect.anything o).RunOk instruments r' files)
    (hQueue : r'.queue = r.queue)
    (hDesks : r'.desks = (r.putDesk d').desks)
    (hPlace : d'.place = d.place)
    {deeds : List Deed}
    (hCame :
      d'.Came o.settings o.reference
        (Crew.duties r'.crew.jobs d.position)
        (deedsAt d.position journal ++ deeds))
    (hReports :
      r'.reports = r.reports ++ deeds.filterMap Deed.report?)
    (hHanded :
      r'.depot.handed =
        r.depot.handed
          ++ (deeds.filterMap Deed.offer?).map Prod.fst) :
    Chronicle o instruments r' files
      (journal ++ r.notes d.position deeds) := by
  have hPosition : d'.position = d.position :=
    congrArg Prod.fst hPlace
  rcases h.position_ne hDesk with ⟨hWaits, hFiles⟩
  refine
    { run := hRun
      places := ?_
      waiting := ?_
      desks := ?_
      filed := ?_
      reports := ?_
      handed := ?_ }
  · rcases List.append_of_mem hDesk with ⟨before, after, hSplit⟩
    have hNew :=
      Prospect.desks_putDesk hSplit h.run.distinct hPosition
    have hSame :
        r'.desks.map Desk.place = r.desks.map Desk.place := by
      rw [hDesks, hNew, hSplit, List.map_append, List.map_append,
        List.map_cons, List.map_cons, hPlace]
    rw [hQueue, hSame]
    exact h.places
  · intro place hWaiting
    rw [hQueue] at hWaiting
    rw [deedsAt_append_notes (hWaits place hWaiting)]
    exact h.waiting place hWaiting
  · intro e he
    by_cases hAt : e.position = d.position
    · have hIs : e = d' := by
        rw [hDesks] at he
        rcases List.mem_map.mp he with ⟨x, _, hEq⟩
        split at hEq
        · exact hEq.symm
        · rename_i hNot
          rw [hEq, hPosition] at hNot
          exact absurd hAt hNot
      rw [hIs, hPosition, deedsAt_append, Run.deedsAt_notes]
      exact hCame
    · rcases (h.run.frame hWork).2 e he hAt with ⟨hOld, hDuties⟩
      rw [deedsAt_append_notes hAt, hDuties]
      exact h.desks e hOld
  · intro f hFile
    rw [deedsAt_append_notes (hFiles f hFile)]
    exact h.filed f hFile
  · rw [List.map_append, List.filterMap_append, Run.deed_notes,
      h.reports]
    exact hReports.symm
  · rw [List.map_append, List.filterMap_append, List.map_append,
      Run.deed_notes, h.handed]
    exact hHanded.symm

theorem plans
    (h : Chronicle o instruments r files journal)
    {d : Desk}
    (hDesk : d ∈ r.desks)
    (hUntouched : d.Untouched) :
    Chronicle o instruments (Run.planDesk o r d) files journal := by
  rcases (h.run.desks d hDesk).untouched hUntouched with
    ⟨hStart, hDuties⟩
  have hRun := h.run.plans hDesk hUntouched
  have hWork := Run.DeskMove.plans (o := o) (r := r) hUntouched
  have hSilent := (h.desks d hDesk).eq_nil (Or.inl hStart)
  have hPlan := @Desk.came_plan o.settings o.reference d hStart
  unfold Run.planDesk at hRun hWork ⊢
  rcases hMade : d.plan o.settings o.reference with ⟨d', ask⟩
  rw [hMade] at hPlan
  simp only [hMade] at hRun hWork ⊢
  cases ask with
  | none =>
      rcases hPlan with ⟨hPlace, hCame⟩
      have hNews :
          d'.Came o.settings o.reference
            (Crew.duties (r.putDesk d').crew.jobs d.position)
            (deedsAt d.position journal ++ []) := by
        change
          d'.Came o.settings o.reference
            (Crew.duties r.crew.jobs d.position) _
        rw [hDuties, hSilent]
        exact hCame
      have hAfter :=
        h.changes hDesk hWork hRun rfl rfl hPlace hNews
          (List.append_nil _).symm (List.append_nil _).symm
      rw [← List.append_nil journal]
      exact hAfter
  | some endMs =>
      rcases hPlan with ⟨hPlace, hCame⟩
      have hPosition : d'.position = d.position :=
        congrArg Prod.fst hPlace
      have hName : d'.instrument.name = d.instrument.name :=
        congrArg (fun place => Instrument.name place.2) hPlace
      let task : Errand := .lookup d'.instrument.name endMs
      have hHired :
          Crew.duties (r.crew.hire d'.position task none 0).jobs
              d.position
            = [.lookup d.instrument.name endMs] := by
        refine (Crew.duties_append _ d.position).trans ?_
        rw [hDuties, Crew.duties_singleton]
        change
          [] ++ (if d'.position = d.position then [task.duty] else [])
            = _
        rw [if_pos hPosition, List.nil_append, ← hName]
        rfl
      have hNews :
          d'.Came o.settings o.reference
            (Crew.duties (r.crew.hire d'.position task none 0).jobs
              d.position)
            (deedsAt d.position journal ++ []) := by
        rw [hHired, hSilent]
        exact hCame
      have hAfter :=
        h.changes hDesk hWork hRun rfl rfl hPlace hNews
          (List.append_nil _).symm (List.append_nil _).symm
      rw [← List.append_nil journal]
      exact hAfter

theorem starts
    (h : Chronicle o instruments r files journal)
    {d : Desk}
    {w : Window}
    {rest : List Window}
    (hDesk : d ∈ r.desks)
    (hPending : d.pending = w :: rest) :
    Chronicle o instruments (Run.startWalk o r d w rest) files
      journal := by
  have hRun := h.run.starts hDesk hPending
  have hWork :=
    Run.DeskMove.starts (o := o) (r := r) (d := d) w rest hPending
  have hHired :
      Crew.duties (Run.startWalk o r d w rest).crew.jobs d.position
        = Crew.duties r.crew.jobs d.position
          ++ [.walk d.instrument.name w] := by
    refine (Crew.duties_append _ d.position).trans ?_
    rw [Crew.duties_singleton]
    exact congrArg (_ ++ ·) (if_pos rfl)
  have hCame := (h.desks d hDesk).start hPending d.instrument.name
  rw [← hHired, ← List.append_nil (deedsAt d.position journal)]
    at hCame
  have hAfter :=
    h.changes hDesk hWork hRun rfl rfl rfl hCame
      (List.append_nil _).symm (List.append_nil _).symm
  rw [← List.append_nil journal]
  exact hAfter

theorem serves
    (h : Chronicle o instruments r files journal)
    {j : Job Errand Find}
    (hJob : j ∈ r.crew.jobs)
    (hWoken : j.number ∈ r.crew.woken) :
    Chronicle o instruments (Run.serve o r j) files
      (journal ++ Run.serveDeeds o r j) := by
  have hWork {d : Desk} (hGroup : j.group = d.position) :=
    Run.DeskMove.serves (o := o) (d := d) j hJob hWoken hGroup
  unfold Run.serve at hWork ⊢
  unfold Run.serveDeeds
  rcases hServe :
    r.crew.serve (Errand.visit o.venue) j with ⟨c, ending⟩
  rw [hServe] at hWork
  cases ending with
  | none =>
      rw [List.append_nil]
      exact
        h.withCrew (h.run.served_on hJob hWoken hServe)
          (h.run.duties_served_on hJob hServe)
  | some e =>
      have hRun := h.run.served_end hJob hWoken hServe
      rcases h.run.brought hJob hServe with
        ⟨d, hDesk, hAt, hBrought⟩
      have hMove := hWork hAt.symm
      have hOk := h.run.desks d hDesk
      have hOwn := h.desks d hDesk
      have hFound : r.deskAt? d.position = some d :=
        Prospect.deskAt?_eq_some hDesk h.run.distinct
      unfold Run.findDeeds
      simp only [hFound, ← hAt] at hRun hMove ⊢
      generalize
        Run.takeFind o { r with crew := c } j (findOf j e) = r'
        at hBrought hRun hMove ⊢
      generalize findOf j e = f at hBrought ⊢
      cases hBrought with
      | latest name endMs found hTask hDuty _ =>
          rcases hOk.lookup hDuty with
            ⟨⟨range, hRange, _, _⟩, hPagination, hPlanning, hRest⟩
          have hCame :=
            hOwn.afterLookup hPlanning hRange hPagination found
          rw [← hRest] at hCame
          have hPlace :
              (d.afterLookup o.settings found).place = d.place := by
            cases found <;> rfl
          exact
            h.changes hDesk hMove hRun rfl rfl hPlace hCame
              (List.append_nil _).symm (List.append_nil _).symm
      | haul w walked hTask hDuty _ =>
          have hCame := hOwn.takeHaul hDuty o.sink r.depot walked
          rw [hTask]
          have hHanded :=
            Desk.handed_takeHaul o.settings o.sink r.depot d w.whole
              walked
          refine
            h.changes hDesk hMove hRun rfl rfl rfl hCame ?_ ?_
          · refine (List.append_nil _).symm.trans ?_
            exact
              congrArg (r.reports ++ ·)
                (Run.reports_offers o r _).symm
          · exact
              hHanded.trans
                (congrArg (r.depot.handed ++ ·)
                  (Run.results_offers o r _).symm)

theorem closes
    (h : Chronicle o instruments r files journal)
    {d : Desk}
    (hDesk : d ∈ r.desks)
    (hTouched : ¬d.Untouched)
    (hPending : d.pending = [])
    (hNone : r.crew.ofGroup d.position = []) :
    Chronicle o instruments (Run.closeDesk o r d)
      (files ++ [{ desk := d, depot := r.depot }])
      (journal ++ r.notes d.position (Run.closeDeeds o r d)) := by
  let file : File κ := { desk := d, depot := r.depot }
  have hRun := h.run.closes hDesk hTouched hPending hNone
  have hDuties := Crew.ofGroup_eq_nil_iff.mp hNone
  rcases h.position_ne hDesk with ⟨hWaits, hFiles⟩
  rcases List.append_of_mem hDesk with ⟨before, after, hSplit⟩
  have hDistinct := h.run.distinct
  rw [hSplit] at hDistinct
  have hLeft :
      (Run.closeDesk o r d).desks = before ++ after := by
    change (r.desks.filter fun e => e.position ≠ d.position) = _
    rw [hSplit, Prospect.desks_without hDistinct]
  refine
    { run := hRun
      places := ?_
      waiting := ?_
      desks := ?_
      filed := ?_
      reports := ?_
      handed := ?_ }
  · refine List.Perm.trans ?_ h.places
    rw [hLeft, hSplit]
    change
      (r.queue ++ (before ++ after).map Desk.place
        ++ (files ++ [file]).map fun f => f.desk.place).Perm _
    simp only [List.map_append, List.map_cons, List.map_nil,
      List.append_assoc]
    apply List.Perm.append_left
    apply List.Perm.append_left
    rw [← List.append_assoc]
    exact List.perm_append_singleton _ _
  · intro place hPlace
    rw [deedsAt_append_notes (hWaits place hPlace)]
    exact h.waiting place hPlace
  · intro e he
    have hOld : e ∈ r.desks ∧ e.position ≠ d.position := by
      rcases List.mem_filter.mp he with ⟨hMem, hOther⟩
      exact ⟨hMem, of_decide_eq_true hOther⟩
    rw [deedsAt_append_notes hOld.2]
    exact h.desks e hOld.1
  · intro f hFile
    rcases List.mem_append.mp hFile with hOld | hNew
    · rw [deedsAt_append_notes (hFiles f hOld)]
      exact h.filed f hOld
    · rw [List.mem_singleton.mp hNew]
      have hCame := h.desks d hDesk
      rw [hDuties] at hCame
      refine ⟨deedsAt d.position journal, hCame, ?_⟩
      rw [deedsAt_append, Run.deedsAt_notes, List.append_assoc]
      rfl
  · rw [List.map_append, List.filterMap_append, Run.deed_notes,
      h.reports]
    unfold Run.closeDeeds
    rw [List.filterMap_append, Run.reports_offers]
    rfl
  · rw [List.map_append, List.filterMap_append, List.map_append,
      Run.deed_notes, h.handed]
    unfold Run.closeDeeds
    rw [List.filterMap_append, List.map_append, Run.results_offers]
    exact
      (congrArg (r.depot.handed ++ ·) (List.append_nil _)).trans
        (file.handed_eq o).1.symm

/- Whatever happens next, the journal goes on to tell of it. -/
theorem told
    {news : List Note}
    (h : Chronicle o instruments r files journal)
    (hTold : Run.Told o r news r') :
    ∃ files',
      Chronicle o instruments r' files' (journal ++ news) := by
  cases hTold with
  | opens position i rest hQueue =>
      rw [List.append_nil]
      exact ⟨files, h.opens hQueue⟩
  | waits t hNext =>
      have hJobs : (r.crew.advanceTo t).jobs = r.crew.jobs := by
        rcases Crew.advanceTo_eq r.crew t with ⟨woken, hEq, _⟩
        rw [hEq]
      rw [List.append_nil]
      exact
        ⟨files,
          h.withCrew (h.run.waits t) fun position => by rw [hJobs]⟩
  | works d news r' hDesk hWork =>
      cases hWork with
      | plans hUntouched =>
          rw [List.append_nil]
          exact ⟨files, h.plans hDesk hUntouched⟩
      | starts w rest hPending =>
          rw [List.append_nil]
          exact ⟨files, h.starts hDesk hPending⟩
      | serves j hJob hWoken hGroup =>
          exact ⟨files, h.serves hJob hWoken⟩
      | closes hTouched hPending hJobs =>
          exact ⟨_, h.closes hDesk hTouched hPending hJobs⟩

/- A journal tells of a run in every state it can come to. -/
theorem of_recounted
    (hCeiling : 0 < o.settings.maxInFlight)
    {venue : σ}
    {kept : κ}
    {cancelAt : Option Nat}
    {instruments : List Instrument}
    (hRecounted :
      Run.Recounted o
        (Run.start o venue kept cancelAt instruments) journal r) :
    ∃ files, Chronicle o instruments r files journal := by
  induction hRecounted with
  | stays =>
      exact
        ⟨[], of_start hCeiling venue kept cancelAt instruments⟩
  | turns f _ ih =>
      rcases ih with ⟨files, h⟩
      exact ⟨files, h.withFocus f⟩
  | moves _ hTold ih =>
      rcases ih with ⟨files, h⟩
      exact h.told hTold

/- When a run is done, each place of its list is filed. -/
theorem places_of_done
    (h : Chronicle o instruments r files journal)
    (hDone : r.Done) :
    (files.map fun f => f.desk.place).Perm
      ((List.range instruments.length).zip instruments) := by
  have hPlaces := h.places
  rw [hDone.1, hDone.2] at hPlaces
  exact hPlaces

/- When a run is done, there is a report for each place. -/
theorem length_reports_of_done
    (h : Chronicle o instruments r files journal)
    (hDone : r.Done) :
    r.reports.length = instruments.length := by
  have hReports : r.reports = files.map (File.report o) :=
    h.run.reports
  have hLength := (h.places_of_done hDone).length_eq
  rw [List.length_map, List.length_zip, List.length_range,
    Nat.min_self] at hLength
  rw [hReports, List.length_map, hLength]

/-
  The journal of a whole run tells of each instrument of its
  list up to its report.
-/
theorem of_toEnd
    (hValid : o.settings.Valid)
    (venue : σ)
    (kept : κ)
    (cancelAt : Option Nat)
    (instruments : List Instrument) :
    let r := Run.start o venue kept cancelAt instruments
    ∃ files,
      Chronicle o instruments (Run.toEnd o r) files
          (Run.journal o r)
        ∧ (files.map fun f => f.desk.place).Perm
          ((List.range instruments.length).zip instruments) := by
  intro r
  rcases of_recounted hValid.limits.1 (Run.recounted_journal o r) with
    ⟨files, h⟩
  exact
    ⟨files, h,
      h.places_of_done
        (Run.ends_toEnd hValid venue kept cancelAt instruments).2⟩

end Chronicle

end TradeTape
