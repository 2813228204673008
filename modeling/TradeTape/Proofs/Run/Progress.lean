import TradeTape.Proofs.Run.Soundness

/-
  A run that cannot go on is done.

  A run turns away from a desk only when it has nothing to do
  there, and then somebody works for that desk, or nothing
  has begun there.  So no desk is forgotten, and when nobody
  is left who will be woken, no desk and no instrument is
  left either.

  Key statements include:
    * `Run.Done`
    * `Run.Attended`
    * `Prospect.RunOk.attended`
    * `Prospect.RunOk.done`
-/

namespace TradeTape

------------------------------------------------------------
-- Settings that have passed the checks
------------------------------------------------------------

/- All that a run is allowed at once is at least one. -/
theorem Settings.Valid.limits
    {s : Settings}
    (h : s.Valid) :
    0 < s.maxInFlight
      ∧ 0 < s.maxInstruments
      ∧ 0 < s.maxWindows := by
  unfold Valid problem? at h
  split_ifs at h
  omega

namespace Run

variable {σ κ : Type} {o : Office σ κ}

------------------------------------------------------------
-- Desks that are not forgotten
------------------------------------------------------------

/- Every instrument has been worked off. -/
def Done (r : Run σ κ) : Prop :=
  r.queue = [] ∧ r.desks = []

/- Somebody works for a desk, or nothing has begun there. -/
def Manned
    (r : Run σ κ)
    (d : Desk) : Prop :=
  d.Untouched ∨ Crew.duties r.crew.jobs d.position ≠ []

/- Only the desk that is attended to may lie idle. -/
def Attended (r : Run σ κ) : Prop :=
  ∀ d ∈ r.desks, r.focus ≠ some d.position → r.Manned d

theorem attended_start
    (o : Office σ κ)
    (venue : σ)
    (kept : κ)
    (cancelAt : Option Nat)
    (instruments : List Instrument) :
    (start o venue kept cancelAt instruments).Attended := by
  intro d hDesk
  exact absurd hDesk List.not_mem_nil

/- Where nothing can be done for the moment, somebody works. -/
theorem manned_of_deskStep?
    (hWindows : 0 < o.settings.maxWindows)
    {r : Run σ κ}
    {d : Desk}
    (hIdle : deskStep? o r d = none) :
    r.Manned d := by
  refine Or.inr ?_
  intro hNone
  have hNobody := Crew.ofGroup_eq_nil_iff.mpr hNone
  unfold deskStep? at hIdle
  by_cases hUntouched : d.Untouched
  · rw [if_pos hUntouched] at hIdle
    cases hIdle
  · rw [if_neg hUntouched] at hIdle
    cases hStart : startable? o r d with
    | some next =>
        simp only [hStart] at hIdle
        cases hIdle
    | none =>
        have hPending : d.pending = [] := by
          unfold startable? at hStart
          rw [hNobody] at hStart
          split at hStart
          · assumption
          · rw [List.length_nil, if_pos hWindows] at hStart
            cases hStart
        cases hFirst : r.crew.firstWokenOf? d.position with
        | some j =>
            simp only [hStart, hFirst] at hIdle
            cases hIdle
        | none =>
            simp only [hStart, hFirst, hPending, hNobody] at hIdle
            cases hIdle

/- What is done at a desk leaves other desks as they were. -/
theorem mem_of_mem_putDesk
    {r : Run σ κ}
    {d e : Desk}
    (hMem : e ∈ (r.putDesk d).desks)
    (hOther : e.position ≠ d.position) :
    e ∈ r.desks := by
  rcases List.mem_map.mp hMem with ⟨x, hx, hEq⟩
  split at hEq
  · rw [← hEq] at hOther
    exact absurd rfl hOther
  · exact hEq ▸ hx

theorem position_plan
    (s : Settings)
    (reference : Option Int)
    (d : Desk) :
    (d.plan s reference).1.position = d.position := by
  unfold Desk.plan
  simp only
  split <;> rfl

theorem position_afterLookup
    (s : Settings)
    (d : Desk)
    (found : Except Fault (Option Int)) :
    (d.afterLookup s found).position = d.position := by
  cases found <;> rfl

theorem position_takeHaul
    (s : Settings)
    (sink : Sink κ)
    (depot : Depot κ)
    (d : Desk)
    (w : Window)
    (walked : Except Fault Haul) :
    (d.takeHaul s sink depot w walked).1.position
      = d.position := by
  rfl

theorem takeFind_frame
    {r : Run σ κ}
    (j : Job Errand Find)
    (f : Find) :
    (takeFind o r j f).focus = r.focus
      ∧ (takeFind o r j f).crew = r.crew
      ∧ ∀ e ∈ (takeFind o r j f).desks,
          e.position ≠ j.group → e ∈ r.desks := by
  unfold takeFind
  split
  · rename_i d found hDesk
    refine ⟨rfl, rfl, ?_⟩
    intro e he hOther
    rw [← (mem_of_deskAt? hDesk).2,
      ← position_afterLookup o.settings d found] at hOther
    exact mem_of_mem_putDesk he hOther
  · rename_i d walk walked hDesk _
    refine ⟨rfl, rfl, ?_⟩
    intro e he hOther
    rw [← (mem_of_deskAt? hDesk).2,
      ← position_takeHaul o.settings o.sink r.depot d walk.whole
        walked] at hOther
    exact mem_of_mem_putDesk he hOther
  · exact ⟨rfl, rfl, fun e he _ => he⟩

end Run

namespace Prospect

variable {σ κ : Type} {o : Office σ κ} {cancels : Prop}
variable {p : Prospect o cancels}

namespace RunOk

variable {instruments : List Instrument}
variable {r r' : Run σ κ} {files : List (File κ)}

/- A job that is served works for its own desk only. -/
theorem duties_serve
    (h : p.RunOk instruments r files)
    {j : Job Errand Find}
    (hMem : j ∈ r.crew.jobs)
    {position : Nat}
    (hOther : position ≠ j.group) :
    Crew.duties
        (r.crew.serve (Errand.visit o.venue) j).1.jobs position
      = Crew.duties r.crew.jobs position := by
  rcases hServe :
    r.crew.serve (Errand.visit o.venue) j with ⟨c, ending⟩
  cases ending with
  | none => exact h.duties_served_on hMem hServe position
  | some e => exact h.duties_served_end hMem hServe hOther

/- Work at a desk does not touch other desks. -/
theorem frame
    (h : p.RunOk instruments r files)
    {d : Desk}
    (hWork : Run.DeskMove o r d r') :
    r'.focus = r.focus
      ∧ ∀ e ∈ r'.desks,
          e.position ≠ d.position →
            e ∈ r.desks
              ∧ Crew.duties r'.crew.jobs e.position
                = Crew.duties r.crew.jobs e.position := by
  -- Somebody who is hired for one desk works for no other.
  have hHire (position : Nat) (task : Errand)
      (patience : Option Nat)
      (hOther : position ≠ d.position) :
      Crew.duties
          (r.crew.hire d.position task patience 0).jobs position
        = Crew.duties r.crew.jobs position := by
    refine (Crew.duties_append _ position).trans ?_
    rw [Crew.duties_singleton, if_neg (Ne.symm hOther),
      List.append_nil]
  cases hWork with
  | plans hUntouched =>
      have hPosition :=
        Run.position_plan o.settings o.reference d
      unfold Run.planDesk
      rcases hPlan : d.plan o.settings o.reference with ⟨d', ask⟩
      rw [hPlan] at hPosition
      cases ask with
      | none =>
          refine ⟨rfl, ?_⟩
          intro e he hOther
          rw [← hPosition] at hOther
          exact ⟨Run.mem_of_mem_putDesk he hOther, rfl⟩
      | some endMs =>
          refine ⟨rfl, ?_⟩
          intro e he hOther
          have hDuties :=
            hHire e.position (.lookup d'.instrument.name endMs) none
              hOther
          rw [← hPosition] at hOther hDuties
          exact ⟨Run.mem_of_mem_putDesk he hOther, hDuties⟩
  | starts w rest hPending =>
      refine ⟨rfl, ?_⟩
      intro e he hOther
      exact
        ⟨Run.mem_of_mem_putDesk he hOther,
          hHire e.position _ _ hOther⟩
  | closes hTouched hPending hJobs =>
      refine ⟨rfl, ?_⟩
      intro e he _
      exact ⟨List.mem_of_mem_filter he, rfl⟩
  | serves j hJob hWoken hGroup =>
      have hDuties (position : Nat)
          (hOther : position ≠ d.position) :
          Crew.duties
              (r.crew.serve (Errand.visit o.venue) j).1.jobs position
            = Crew.duties r.crew.jobs position :=
        h.duties_serve hJob (hGroup ▸ hOther)
      unfold Run.serve
      rcases hServe :
        r.crew.serve (Errand.visit o.venue) j with ⟨c, ending⟩
      rw [hServe] at hDuties
      cases ending with
      | none =>
          exact
            ⟨rfl, fun e he hOther => ⟨he, hDuties e.position hOther⟩⟩
      | some e =>
          rcases
            Run.takeFind_frame (o := o) (r := { r with crew := c }) j
              (findOf j e) with
            ⟨hFocus, hCrew, hDesks⟩
          refine ⟨hFocus, ?_⟩
          intro x hx hOther
          simp only [hCrew]
          exact
            ⟨hDesks x hx (hGroup ▸ hOther),
              hDuties x.position hOther⟩

/- While a desk is attended to, the others wait. -/
theorem attended_work
    (h : p.RunOk instruments r files)
    (hAttended : r.Attended)
    {d : Desk}
    (hFocus : r.focus = some d.position)
    (hWork : Run.DeskMove o r d r') :
    r'.Attended := by
  rcases h.frame hWork with ⟨hSame, hFrame⟩
  intro e he hOther
  rw [hSame, hFocus] at hOther
  have hNe : e.position ≠ d.position := by
    intro hEq
    exact hOther (congrArg some hEq.symm)
  rcases hFrame e he hNe with ⟨hMem, hDuties⟩
  have hManned := hAttended e hMem (by rw [hFocus]; exact hOther)
  unfold Run.Manned at hManned ⊢
  rw [hDuties]
  exact hManned

/- A run turns away only when every desk can wait. -/
theorem manned_of_idle
    (h : p.RunOk instruments r files)
    (hWindows : 0 < o.settings.maxWindows)
    (hAttended : r.Attended)
    (hIdle :
      (r.focus.bind r.deskAt?).bind (Run.deskStep? o r) = none)
    {d : Desk}
    (hDesk : d ∈ r.desks) :
    r.Manned d := by
  by_cases hFocus : r.focus = some d.position
  · rw [hFocus, Option.bind_some,
      deskAt?_eq_some hDesk h.distinct, Option.bind_some] at hIdle
    exact Run.manned_of_deskStep? hWindows hIdle
  · exact hAttended d hDesk hFocus

theorem attended
    (h : p.RunOk instruments r files)
    (hWindows : 0 < o.settings.maxWindows)
    (hAttended : r.Attended)
    (hStep : Run.step? o r = some r') :
    r'.Attended := by
  unfold Run.step? at hStep
  rcases Option.or_eq_some_iff.mp hStep with
    hHere | ⟨hIdle, hTurn⟩
  · rcases Option.bind_eq_some_iff.mp hHere with
      ⟨d, hDesk, hStep⟩
    rcases Option.bind_eq_some_iff.mp hDesk with
      ⟨position, hFocus, hDesk⟩
    rw [← (Run.mem_of_deskAt? hDesk).2] at hFocus
    exact
      h.attended_work hAttended hFocus
        (Run.deskMove_of_deskStep? hStep)
  · have hManned {d : Desk} (hDesk : d ∈ r.desks) :=
      h.manned_of_idle hWindows hAttended hIdle hDesk
    unfold Run.turn? at hTurn
    cases hOpen : Run.openable? o r with
    | some next =>
        simp only [hOpen, Option.some.injEq] at hTurn
        rw [← hTurn]
        intro e he _
        rcases List.mem_append.mp he with hOld | hNew
        · exact hManned hOld
        · rw [List.mem_singleton.mp hNew]
          exact Or.inl rfl
    | none =>
        cases hNext : r.nextDesk? with
        | some d =>
            simp only [hOpen, hNext] at hTurn
            refine
              (h.withFocus (some d.position)).attended_work ?_
                (d := d) rfl (Run.deskMove_of_deskStep? hTurn)
            intro e he _
            exact hManned he
        | none =>
            simp only [hOpen, hNext, Option.map_eq_some_iff] at hTurn
            rcases hTurn with ⟨t, _, hEq⟩
            rw [← hEq]
            intro e he _
            have hOld := hManned he
            unfold Run.Manned at hOld ⊢
            rcases Crew.advanceTo_eq r.crew t with ⟨woken, hCrew, _⟩
            simp only [hCrew]
            exact hOld

------------------------------------------------------------
-- Runs that cannot go on
------------------------------------------------------------

/- At the desk that comes next there is something to do. -/
theorem deskStep?_ne_none
    {d : Desk}
    (hNext : r.nextDesk? = some d) :
    Run.deskStep? o r d ≠ none := by
  intro hStuck
  unfold Run.deskStep? at hStuck
  by_cases hUntouched : d.Untouched
  · rw [if_pos hUntouched] at hStuck
    cases hStuck
  · rw [if_neg hUntouched] at hStuck
    unfold Run.nextDesk? at hNext
    cases hFirst : r.crew.firstWoken? with
    | none =>
        simp only [hFirst] at hNext
        have hIs := List.find?_some hNext
        exact hUntouched (of_decide_eq_true hIs)
    | some j =>
        simp only [hFirst] at hNext
        have hGroup := (Run.mem_of_deskAt? hNext).2
        cases hOwn : r.crew.firstWokenOf? d.position with
        | some i =>
            simp only [hOwn] at hStuck
            split at hStuck
            · cases hStuck
            · cases hStuck
            · rename_i hNone
              cases hNone
        | none =>
            unfold Crew.firstWoken? at hFirst
            rcases List.exists_of_findSome?_eq_some hFirst with
              ⟨n, hn, hJob⟩
            unfold Crew.firstWokenOf? at hOwn
            have hNot := List.findSome?_eq_none_iff.mp hOwn n hn
            rw [hJob, hGroup] at hNot
            simp at hNot

/- Where no desk comes next, nobody is awake or untouched. -/
theorem asleep_of_nextDesk?
    (h : p.RunOk instruments r files)
    (hNext : r.nextDesk? = none) :
    (∀ j ∈ r.crew.jobs, j.number ∉ r.crew.woken)
      ∧ ∀ d ∈ r.desks, ¬d.Untouched := by
  unfold Run.nextDesk? at hNext
  cases hFirst : r.crew.firstWoken? with
  | some j =>
      simp only [hFirst] at hNext
      have hMem : j ∈ r.crew.jobs := by
        unfold Crew.firstWoken? at hFirst
        rcases List.exists_of_findSome?_eq_some hFirst with
          ⟨n, _, hJob⟩
        exact (Crew.mem_of_job? hJob).1
      rcases h.groups j hMem with ⟨d, hDesk, hAt⟩
      rw [← hAt, deskAt?_eq_some hDesk h.distinct] at hNext
      cases hNext
  | none =>
      simp only [hFirst] at hNext
      refine ⟨?_, ?_⟩
      · intro j hj hWoken
        unfold Crew.firstWoken? at hFirst
        have hNone := List.findSome?_eq_none_iff.mp hFirst _ hWoken
        exact Crew.job?_eq_none.mp hNone j hj rfl
      · intro d hDesk hUntouched
        have hNot := List.find?_eq_none.mp hNext d hDesk
        exact hNot (decide_eq_true hUntouched)

/- Where somebody is awake there is something to do. -/
theorem asleep_of_stuck
    (h : p.RunOk instruments r files)
    (hStuck : Run.turn? o r = none) :
    (∀ j ∈ r.crew.jobs, j.number ∉ r.crew.woken)
      ∧ (∀ d ∈ r.desks, ¬d.Untouched)
      ∧ r.crew.nextInstant? = none := by
  unfold Run.turn? at hStuck
  cases hOpen : Run.openable? o r with
  | some next =>
      simp only [hOpen] at hStuck
      cases hStuck
  | none =>
      cases hNext : r.nextDesk? with
      | some d =>
          simp only [hOpen, hNext] at hStuck
          exact absurd hStuck (deskStep?_ne_none hNext)
      | none =>
          simp only [hOpen, hNext, Option.map_eq_none_iff] at hStuck
          rcases h.asleep_of_nextDesk? hNext with
            ⟨hAsleep, hTouched⟩
          exact ⟨hAsleep, hTouched, hStuck⟩

/- A run that cannot go on has worked off all instruments. -/
theorem done
    (h : p.RunOk instruments r files)
    (hValid : o.settings.Valid)
    (hAttended : r.Attended)
    (hStuck : Run.step? o r = none) :
    r.Done := by
  rcases hValid.limits with ⟨_, hInstruments, hWindows⟩
  unfold Run.step? at hStuck
  rcases Option.or_eq_none_iff.mp hStuck with ⟨hIdle, hTurn⟩
  rcases h.asleep_of_stuck hTurn with
    ⟨hAsleep, hTouched, hNever⟩
  have hJobs := h.crew.jobs_eq_nil hAsleep hNever
  have hDesks : r.desks = [] := by
    refine List.eq_nil_iff_forall_not_mem.mpr ?_
    intro d hDesk
    rcases h.manned_of_idle hWindows hAttended hIdle hDesk with
      hUntouched | hDuties
    · exact hTouched d hDesk hUntouched
    · rw [hJobs] at hDuties
      exact hDuties rfl
  refine ⟨?_, hDesks⟩
  -- There is room for another desk, so nobody waits for one.
  cases hQueue : r.queue with
  | nil => rfl
  | cons next rest =>
      unfold Run.turn? Run.openable? at hTurn
      rw [hQueue, hDesks] at hTurn
      simp only [List.length_nil, if_pos hInstruments] at hTurn
      cases hTurn

end RunOk

end Prospect

end TradeTape
