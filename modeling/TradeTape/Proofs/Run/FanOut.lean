import TradeTape.Proofs.Crew.Flight
import TradeTape.Proofs.Run.Chronicle

/-
  How many calls of a run are in flight.

  No more desks are open, and no more windows of each are in
  work, than the settings say.  Each job makes one call at a
  time, so calls stay within the product of both, for which
  there are permits: a call never waits for one.  Whoever
  makes a call was admitted for it, and nobody else was.

  Key statements include:
    * `Crew.length_jobs_le`
    * `Run.Bounded`
    * `Prospect.RunOk.bounded_step`
    * `Prospect.RunOk.bounded_advance`
    * `Run.WithinBudget`
    * `Run.advance_fan_out`
-/

namespace TradeTape

------------------------------------------------------------
-- Counting jobs
------------------------------------------------------------

namespace Crew

variable {σ : Type}

theorem length_duties
    (c : Crew σ Errand Find)
    (position : Nat) :
    (duties c.jobs position).length
      = (c.ofGroup position).length :=
  List.length_map _

/- There are no more jobs than the desks can have in all. -/
theorem length_jobs_le
    {jobs : List (Job Errand Find)}
    {positions : List Nat}
    {most : Nat}
    (hPlaces : ∀ j ∈ jobs, j.group ∈ positions)
    (hEach :
      ∀ position,
        (jobs.filter fun j => j.group = position).length ≤ most) :
    jobs.length ≤ positions.length * most := by
  induction positions generalizing jobs with
  | nil =>
      have hNone : jobs = [] := by
        refine List.eq_nil_iff_forall_not_mem.mpr ?_
        intro j hj
        exact absurd (hPlaces j hj) List.not_mem_nil
      rw [hNone]
      exact Nat.zero_le _
  | cons position rest ih =>
      let others :=
        jobs.filter fun j => !decide (j.group = position)
      have hSplit :=
        List.length_eq_length_filter_add
          (l := jobs) fun j => decide (j.group = position)
      have hOwn := hEach position
      have hOthers : others.length ≤ rest.length * most := by
        apply ih
        · intro j hj
          rcases List.mem_filter.mp hj with ⟨hMem, hNe⟩
          rcases List.mem_cons.mp (hPlaces j hMem) with hIs | hRest
          · simp [hIs] at hNe
          · exact hRest
        · intro p
          refine Nat.le_trans ?_ (hEach p)
          exact (List.filter_sublist.filter _).length_le
      rw [List.length_cons, Nat.succ_mul]
      simp only [others] at hOthers
      omega

end Crew

------------------------------------------------------------
-- Bounds that hold of every run
------------------------------------------------------------

namespace Run

variable {σ κ : Type} {o : Office σ κ}

/-
  A run that keeps to the bounds of its settings, and whose
  gate has admitted each call that was made.
-/
structure Bounded
    (o : Office σ κ)
    (r : Run σ κ) : Prop where
  desks : r.desks.length ≤ o.settings.maxInstruments
  jobs :
    ∀ position,
      (Crew.duties r.crew.jobs position).length
        ≤ o.settings.maxWindows
  ceiling : r.crew.gate.ceiling = o.settings.maxInFlight
  admitted : r.crew.gate.admitted = r.crew.world.calls.length

theorem bounded_start
    (o : Office σ κ)
    (venue : σ)
    (kept : κ)
    (cancelAt : Option Nat)
    (instruments : List Instrument) :
    Bounded o (start o venue kept cancelAt instruments) :=
  { desks := Nat.zero_le _
    jobs := fun _ => Nat.zero_le _
    ceiling := rfl
    admitted := rfl }

theorem startable?_room
    {r : Run σ κ}
    {d : Desk}
    {next : Window × List Window}
    (hStart : startable? o r d = some next) :
    (Crew.duties r.crew.jobs d.position).length
      < o.settings.maxWindows := by
  rw [Crew.length_duties]
  unfold startable? at hStart
  split at hStart
  · cases hStart
  · split at hStart
    · assumption
    · cases hStart

theorem openable?_room
    {r : Run σ κ}
    {next : (Nat × Instrument) × List (Nat × Instrument)}
    (hOpen : openable? o r = some next) :
    r.desks.length < o.settings.maxInstruments := by
  unfold openable? at hOpen
  split at hOpen
  · cases hOpen
  · split at hOpen
    · assumption
    · cases hOpen

theorem length_desks_putDesk
    (r : Run σ κ)
    (d : Desk) :
    (r.putDesk d).desks.length = r.desks.length :=
  List.length_map _

theorem length_desks_takeFind
    (r : Run σ κ)
    (j : Job Errand Find)
    (f : Find) :
    (takeFind o r j f).desks.length = r.desks.length := by
  unfold takeFind
  split
  · exact r.length_desks_putDesk _
  · exact r.length_desks_putDesk _
  · rfl

namespace Bounded

variable {r : Run σ κ}

theorem withFocus
    (h : Bounded o r)
    (f : Option Nat) :
    Bounded o { r with focus := f } :=
  { h with }

/- A desk that has changed, and a job that is hired for it. -/
theorem hires
    (h : Bounded o r)
    (d : Desk)
    {position : Nat}
    (hRoom :
      (Crew.duties r.crew.jobs position).length
        < o.settings.maxWindows)
    (task : Errand)
    (patience : Option Nat) :
    Bounded o
      { r.putDesk d with
        crew := r.crew.hire position task patience 0 } := by
  refine
    { desks := Nat.le_trans (Nat.le_of_eq (r.length_desks_putDesk d)) h.desks
      jobs := ?_
      ceiling := h.ceiling
      admitted := h.admitted }
  intro p
  have hDuties :
      Crew.duties (r.crew.hire position task patience 0).jobs p
        = Crew.duties r.crew.jobs p
          ++ if position = p then [task.duty] else [] := by
    refine (Crew.duties_append _ p).trans ?_
    rw [Crew.duties_singleton]
  change
    (Crew.duties (r.crew.hire position task patience 0).jobs
      p).length ≤ _
  rw [hDuties, List.length_append]
  have hJobs := h.jobs p
  by_cases hOwn : position = p
  · rw [hOwn] at hRoom
    rw [if_pos hOwn]
    exact hRoom
  · rw [if_neg hOwn]
    exact hJobs

end Bounded

end Run

namespace Prospect

namespace RunOk

variable {σ κ : Type} {o : Office σ κ} {cancels : Prop}
variable {p : Prospect o cancels} {instruments : List Instrument}
variable {r r' : Run σ κ} {files : List (File κ)}

/- Nobody is added to a desk when a job is served. -/
theorem length_duties_serve_le
    (h : p.RunOk instruments r files)
    {j : Job Errand Find}
    (hMem : j ∈ r.crew.jobs)
    (position : Nat) :
    (Crew.duties
        (r.crew.serve (Errand.visit o.venue) j).1.jobs
          position).length
      ≤ (Crew.duties r.crew.jobs position).length := by
  by_cases hOther : position ≠ j.group
  · rw [h.duties_serve hMem hOther]
  · have hOwn := Decidable.not_not.mp hOther
    rcases hServe :
      r.crew.serve (Errand.visit o.venue) j with ⟨c, ending⟩
    cases ending with
    | none => rw [h.duties_served_on hMem hServe position]
    | some e =>
        rcases h.brought hMem hServe with ⟨d, _, hAt, hBrought⟩
        rw [hOwn, ← hAt]
        generalize
          Run.takeFind o { r with crew := c } j (findOf j e) = r'
            at hBrought
        generalize findOf j e = f at hBrought
        cases hBrought with
        | latest _ _ _ _ hDuty _ =>
            rw [hDuty.length_eq]
            exact Nat.le_succ _
        | haul _ _ _ hDuty _ =>
            rw [hDuty.length_eq]
            exact Nat.le_succ _

theorem bounded_serve
    (h : p.RunOk instruments r files)
    (hBounded : Run.Bounded o r)
    {j : Job Errand Find}
    (hMem : j ∈ r.crew.jobs) :
    Run.Bounded o (Run.serve o r j) := by
  have hServed := Crew.served (Errand.visit o.venue) r.crew j
  have hJobs := h.length_duties_serve_le hMem
  unfold Run.serve
  rcases hServe :
    r.crew.serve (Errand.visit o.venue) j with ⟨c, ending⟩
  rw [hServe] at hServed hJobs
  rcases Crew.served_gate h.crew hServed with ⟨hCeiling, hCounts⟩
  have hAdmitted : c.gate.admitted = c.world.calls.length := by
    have hSoFar := hBounded.admitted
    rcases hCounts with ⟨hMore, hWorld⟩ | ⟨hSame, hWorld⟩
    · rcases
        Errand.calls_visit o.venue r.crew.now r.crew.world j.task with
        ⟨call, hCalls⟩
      rw [hMore, hWorld, hCalls, List.length_cons, hSoFar]
    · rw [hSame, hWorld, hSoFar]
  have hNext : Run.Bounded o { r with crew := c } :=
    { desks := hBounded.desks
      jobs := fun position =>
        Nat.le_trans (hJobs position) (hBounded.jobs position)
      ceiling := hCeiling.trans hBounded.ceiling
      admitted := hAdmitted }
  cases ending with
  | none => exact hNext
  | some e =>
      have hCrew :=
        (Run.takeFind_frame (o := o) (r := { r with crew := c }) j
          (findOf j e)).2.1
      have hDesks :=
        Run.length_desks_takeFind (o := o) { r with crew := c } j
          (findOf j e)
      exact
        { desks := Nat.le_trans (Nat.le_of_eq hDesks) hNext.desks
          jobs := by
            simp only [hCrew]
            exact hNext.jobs
          ceiling := by
            simp only [hCrew]
            exact hNext.ceiling
          admitted := by
            simp only [hCrew]
            exact hNext.admitted }

theorem bounded_deskStep
    (h : p.RunOk instruments r files)
    (hBounded : Run.Bounded o r)
    (hWindows : 0 < o.settings.maxWindows)
    {d : Desk}
    (hDesk : d ∈ r.desks)
    (hStep : Run.deskStep? o r d = some r') :
    Run.Bounded o r' := by
  rcases Run.deskStep?_cases hStep with
    ⟨hUntouched, rfl⟩
      | ⟨_, ⟨w, rest, hStart, rfl⟩
        | ⟨_, ⟨j, hFirst, rfl⟩ | ⟨_, _, _, rfl⟩⟩⟩
  · have hNobody :=
      ((h.desks d hDesk).untouched hUntouched).2
    have hPosition := Run.position_plan o.settings o.reference d
    unfold Run.planDesk
    rcases hPlan : d.plan o.settings o.reference with ⟨d', ask⟩
    rw [hPlan] at hPosition
    cases ask with
    | none =>
        exact
          { hBounded with
            desks :=
              Nat.le_trans (Nat.le_of_eq (r.length_desks_putDesk d'))
                hBounded.desks }
    | some endMs =>
        apply hBounded.hires
        rw [hPosition, hNobody]
        exact hWindows
  · exact hBounded.hires _ (Run.startable?_room hStart) _ _
  · exact
      h.bounded_serve hBounded (Run.awake_of_firstWokenOf? hFirst).1
  · exact
      { hBounded with
        desks :=
          Nat.le_trans (List.length_filter_le _ _) hBounded.desks }

/- Each step keeps a run within its bounds. -/
theorem bounded_step
    (h : p.RunOk instruments r files)
    (hBounded : Run.Bounded o r)
    (hWindows : 0 < o.settings.maxWindows)
    (hStep : Run.step? o r = some r') :
    Run.Bounded o r' := by
  unfold Run.step? at hStep
  rcases Option.or_eq_some_iff.mp hStep with hHere | ⟨_, hTurn⟩
  · rcases Option.bind_eq_some_iff.mp hHere with ⟨d, hAt, hStep⟩
    rcases Option.bind_eq_some_iff.mp hAt with ⟨_, _, hAt⟩
    exact
      h.bounded_deskStep hBounded hWindows
        (Run.mem_of_deskAt? hAt).1 hStep
  · unfold Run.turn? at hTurn
    cases hOpen : Run.openable? o r with
    | some next =>
        have hRoom := Run.openable?_room hOpen
        simp only [hOpen, Option.some.injEq] at hTurn
        rw [← hTurn]
        refine { hBounded with desks := ?_ }
        change (r.desks ++ [_]).length ≤ _
        rw [List.length_append]
        exact hRoom
    | none =>
        cases hNext : r.nextDesk? with
        | some d =>
            simp only [hOpen, hNext] at hTurn
            exact
              (h.withFocus (some d.position)).bounded_deskStep
                (hBounded.withFocus _) hWindows
                (Run.mem_of_nextDesk? hNext) hTurn
        | none =>
            simp only [hOpen, hNext, Option.map_eq_some_iff] at hTurn
            rcases hTurn with ⟨t, _, rfl⟩
            rcases Crew.advanceTo_eq r.crew t with ⟨woken, hCrew, _⟩
            rw [hCrew]
            exact { hBounded with }

/- So does any number of steps. -/
theorem bounded_advance
    (h : p.RunOk instruments r files)
    (hBounded : Run.Bounded o r)
    (hWindows : 0 < o.settings.maxWindows)
    (n : Nat) :
    (∃ files', p.RunOk instruments (Run.advance o n r) files')
      ∧ Run.Bounded o (Run.advance o n r) := by
  induction n generalizing r files with
  | zero => exact ⟨⟨files, h⟩, hBounded⟩
  | succ n ih =>
      unfold Run.advance
      cases hNext : Run.step? o r with
      | none => exact ⟨⟨files, h⟩, hBounded⟩
      | some r' =>
          rcases Run.move_of_step? hNext with ⟨f, hMove⟩
          rcases (h.withFocus f).move hMove with ⟨files', hRun⟩
          exact ih hRun (h.bounded_step hBounded hWindows hNext)

/- The jobs of one desk are no more than its windows at once. -/
theorem length_group_le
    (hBounded : Run.Bounded o r)
    (position : Nat) :
    (r.crew.jobs.filter fun j => j.group = position).length
      ≤ o.settings.maxWindows := by
  have hDuties := Crew.length_duties r.crew position
  have hJobs := hBounded.jobs position
  rw [hDuties] at hJobs
  exact hJobs

/- There are no more jobs than windows at all desks at once. -/
theorem length_jobs_le
    (h : p.RunOk instruments r files)
    (hBounded : Run.Bounded o r) :
    r.crew.jobs.length
      ≤ o.settings.maxInstruments * o.settings.maxWindows := by
  have hPlaces :
      ∀ j ∈ r.crew.jobs, j.group ∈ r.desks.map Desk.position := by
    intro j hj
    rcases h.groups j hj with ⟨d, hd, hAt⟩
    exact hAt ▸ List.mem_map_of_mem hd
  have hAll := Crew.length_jobs_le hPlaces (length_group_le hBounded)
  rw [List.length_map] at hAll
  exact hAll.trans (Nat.mul_le_mul_right _ hBounded.desks)

end RunOk

end Prospect

------------------------------------------------------------
-- Calls within the budget
------------------------------------------------------------

/- A product of limits that was not cut short fits the budget. -/
theorem Settings.Valid.fanOut_le
    {s : Settings}
    (h : s.Valid)
    (hBelow : s.maxInFlight < Word.uint64Max) :
    s.maxInstruments * s.maxWindows ≤ s.maxInFlight := by
  unfold Valid problem? at h
  split_ifs at h
  rename_i hBudget
  unfold Word.mulSat at hBudget
  omega

namespace Run

variable {σ κ : Type} {o : Office σ κ}

/-
  A run whose calls in flight are within its limits, and wait
  for no permit.  Who is in flight is in a call, and who was
  admitted has called the venue.
-/
structure WithinBudget
    (o : Office σ κ)
    (r : Run σ κ) : Prop where
  total :
    r.crew.onCall.length
      ≤ o.settings.maxInstruments * o.settings.maxWindows
  each :
    ∀ position,
      (r.crew.onCall.filter fun j => j.group = position).length
        ≤ o.settings.maxWindows
  granted : ∀ n, r.crew.gate.phase? n ≠ some .waiting
  inFlight : r.crew.gate.inFlight = r.crew.onCall.length
  admitted : r.crew.gate.admitted = r.calls.length

theorem withinBudget_of_bounded
    {cancels : Prop}
    {p : Prospect o cancels}
    {instruments : List Instrument}
    {r : Run σ κ}
    {files : List (File κ)}
    (hFits :
      o.settings.maxInstruments * o.settings.maxWindows
        ≤ o.settings.maxInFlight)
    (h : p.RunOk instruments r files)
    (hBounded : Bounded o r) :
    WithinBudget o r := by
  have hJobs := h.length_jobs_le hBounded
  have hRoom : r.crew.jobs.length ≤ r.crew.gate.ceiling := by
    rw [hBounded.ceiling]
    exact hJobs.trans hFits
  refine
    { total := (List.length_filter_le _ _).trans hJobs
      each := ?_
      granted := h.crew.phase?_ne_waiting hRoom
      inFlight := h.crew.inFlight_eq
      admitted := ?_ }
  · intro position
    refine Nat.le_trans ?_
      (Prospect.RunOk.length_group_le hBounded position)
    exact (List.filter_sublist.filter _).length_le
  · unfold calls
    rw [List.length_reverse]
    exact hBounded.admitted

/-
  At no time does a call wait for a permit, whatever the venue
  answers and however late, and whenever the run is canceled.
  At the end nobody is in flight.
-/
theorem advance_fan_out
    (hValid : o.settings.Valid)
    (hBelow : o.settings.maxInFlight < Word.uint64Max)
    (venue : σ)
    (kept : κ)
    (cancelAt : Option Nat)
    (instruments : List Instrument) :
    let first := start o venue kept cancelAt instruments
    let last := toEnd o first
    (∀ n, WithinBudget o (advance o n first))
      ∧ WithinBudget o last
      ∧ last.Done
      ∧ last.crew.gate.inFlight = 0 := by
  intro first last
  rcases hValid.limits with ⟨hCeiling, _, hWindows⟩
  have hAllowed : cancelAt ≠ none → True := fun _ => trivial
  have hAdvance (n : Nat) :=
    ((Prospect.anything o).runOk_start hCeiling venue kept cancelAt
      hAllowed trivial instruments).bounded_advance
      (bounded_start o venue kept cancelAt instruments) hWindows n
  have hWithin (n : Nat) : WithinBudget o (advance o n first) := by
    rcases hAdvance n with ⟨⟨files, hRun⟩, hBounded⟩
    exact
      withinBudget_of_bounded (hValid.fanOut_le hBelow) hRun hBounded
  rcases exists_advance_eq_toEnd o first with ⟨n, hLast, _⟩
  have hEnd : WithinBudget o last := by
    change WithinBudget o (toEnd o first)
    rw [hLast]
    exact hWithin n
  have hDone : last.Done :=
    (ends_toEnd hValid venue kept cancelAt instruments).2
  refine ⟨hWithin, hEnd, hDone, ?_⟩
  -- Without desks there are no jobs, and so no calls.
  rcases hAdvance n with ⟨⟨files, hRun⟩, _⟩
  rw [← hLast] at hRun
  have hJobs : last.crew.jobs = [] := by
    refine List.eq_nil_iff_forall_not_mem.mpr ?_
    intro j hj
    rcases hRun.groups j hj with ⟨d, hd, _⟩
    rw [hDone.2] at hd
    exact List.not_mem_nil hd
  rw [hEnd.inFlight]
  unfold Crew.onCall
  rw [hJobs]
  rfl

/- Four calls at once, each given less time than some take. -/
def hurriedOffice : Office Nat Shelf :=
  let venue : TapeVenue :=
    { tapes :=
        [("BTC",
            [Trade.synthetic "BTC" 1 5, Trade.synthetic "BTC" 2 12]),
          ("ETH", [Trade.synthetic "ETH" 1 3])]
      failingInstruments := []
      failingRanges := []
      latency := Latency.make? 4 2 }
  let settings : Settings :=
    { Settings.standard with
      chunkMs := some 10
      maxInFlight := 4
      maxInstruments := 2
      maxWindows := 2
      taskTimeoutMs := some 5 }
  venue.office settings none Shelf.sink

/- A run over seven windows, which is canceled on its way. -/
def hurriedRun : Run Nat Shelf :=
  start hurriedOffice 0 (Shelf.make none) (some 8)
    [⟨"BTC", .future, 0, 30⟩, ⟨"ETH", .future, 0, 19⟩,
      ⟨"BTC", .future, 0, 9⟩]

/- All permits are out at once, and each call is admitted. -/
theorem advance_fan_out_of_deadlines :
    (advance hurriedOffice 19 hurriedRun).crew.gate.inFlight = 4
      ∧ (toEnd hurriedOffice hurriedRun).crew.gate.admitted = 7
      ∧ (toEnd hurriedOffice hurriedRun).crew.gate.inFlight = 0 := by
  have hFull :
      (advance hurriedOffice 19 hurriedRun).crew.onCall.length
        = 4 := by
    cbv
  have hCalls :
      (toEnd hurriedOffice hurriedRun).calls.length = 7 := by
    cbv
  unfold hurriedRun at hFull hCalls ⊢
  rcases
    @advance_fan_out Nat Shelf hurriedOffice (by decide) (by decide) 0
      (Shelf.make none) (some 8)
      [⟨"BTC", .future, 0, 30⟩, ⟨"ETH", .future, 0, 19⟩,
        ⟨"BTC", .future, 0, 9⟩] with
    ⟨hWithin, hLast, _, hNobody⟩
  exact
    ⟨(hWithin 19).inFlight.trans hFull,
      hLast.admitted.trans hCalls, hNobody⟩

end Run
end TradeTape
