import TradeTape.Proofs.Crew.Flight
import TradeTape.Proofs.Run.Completion

/-
  The calls of a run, told by its duties.

  Where each duty under a name is done with one call, the
  calls under the name are those of the duties that jobs are
  in a call for, or that desks and files have done with.  So
  at the end of a run its files tell what was called for.

  Key statements include:
    * `Duty.call`
    * `Desk.settled`
    * `Prospect.OneCall`
    * `Prospect.Ledger`
    * `Prospect.Ledger.move`
    * `Prospect.calls_of_done`
-/

namespace TradeTape

------------------------------------------------------------
-- Calls under a name
------------------------------------------------------------

/- The name that a call is about. -/
def Call.instrument : Call → String
  | .page q => q.instrument
  | .latest instrument _ => instrument

/- The calls of a log that are about a name. -/
def callsFor
    (name : String)
    (log : List (Nat × Call)) : List Call :=
  (log.map Prod.snd).filter fun call => call.instrument = name

theorem callsFor_cons
    (name : String)
    (now : Nat)
    (call : Call)
    (log : List (Nat × Call)) :
    callsFor name ((now, call) :: log)
      = (if call.instrument = name then [call] else [])
        ++ callsFor name log := by
  unfold callsFor
  rw [List.map_cons, List.filter_cons]
  by_cases hName : call.instrument = name <;> simp [hName]

namespace Duty

/- The name that a duty is about. -/
def instrument : Duty → String
  | .lookup instrument _ => instrument
  | .walk instrument _ => instrument

/- The call that a duty begins with. -/
def call (s : Settings) : Duty → Call
  | .lookup instrument endMs => .latest instrument endMs
  | .walk instrument w =>
      .page
        (Walk.start (WalkRules.ofSettings s) instrument w).query

theorem instrument_call
    (s : Settings)
    (duty : Duty) :
    (duty.call s).instrument = duty.instrument := by
  cases duty <;> rfl

end Duty

/- A task calls about the name that its duty is about. -/
theorem Errand.exists_call
    {σ : Type}
    (v : Venue σ)
    (now : Nat)
    (s : World σ)
    (task : Errand) :
    ∃ call,
      (Errand.visit v now s task).2.calls = (now, call) :: s.calls
        ∧ call.instrument = task.duty.instrument := by
  cases task <;> exact ⟨_, rfl, rfl⟩

------------------------------------------------------------
-- Duties that were called for
------------------------------------------------------------

/- What a job is in a call for, under a name. -/
def Job.asked
    (name : String)
    (j : Job Errand Find) : List Duty :=
  if j.OnCall ∧ j.task.duty.instrument = name then
    [j.task.duty]
  else []

theorem Job.asked_of_not_onCall
    {j : Job Errand Find}
    (hIdle : ¬j.OnCall)
    (name : String) :
    j.asked name = [] :=
  if_neg fun h => hIdle h.1

theorem Job.asked_of_ne
    {j : Job Errand Find}
    {name : String}
    (hOther : j.task.duty.instrument ≠ name) :
    j.asked name = [] :=
  if_neg fun h => hOther h.2

theorem Job.asked_of_onCall
    {j : Job Errand Find}
    (hOnCall : j.OnCall)
    (name : String) :
    j.asked name
      = if j.task.duty.instrument = name then [j.task.duty]
        else [] := by
  unfold asked
  simp [hOnCall]

namespace Desk

/- The look-up that a desk has done with. -/
def settledLookup
    {σ κ : Type}
    (o : Office σ κ)
    (d : Desk) : List Duty :=
  match d.instrument.validRange o.reference,
    o.settings.pagination with
  | some range, .sequence =>
      if d.life.state = .discovered ∨ d.life.state = .planning then
        []
      else
        [.lookup d.instrument.name range.endMs]
  | _, _ => []

/- The duties that a desk has done with. -/
def settled
    {σ κ : Type}
    (o : Office σ κ)
    (d : Desk) : List Duty :=
  d.settledLookup o
    ++ d.outcomes.map fun out =>
      .walk d.instrument.name out.window

/- The same, where the desk is that of a name. -/
def settledFor
    {σ κ : Type}
    (o : Office σ κ)
    (name : String)
    (d : Desk) : List Duty :=
  if d.instrument.name = name then d.settled o else []

section Settled

variable {σ κ : Type} {o : Office σ κ} {name : String}
variable {d : Desk}

theorem settledFor_eq
    (hName : d.instrument.name = name) :
    d.settledFor o name = d.settled o :=
  if_pos hName

theorem settledFor_of_ne
    (hOther : d.instrument.name ≠ name) :
    d.settledFor o name = [] :=
  if_neg hOther

/- A desk that is done with what a job was in a call for. -/
theorem settledFor_of_onCall
    {d' : Desk}
    {j : Job Errand Find}
    (hOnCall : j.OnCall)
    (hOwn : d.instrument.name = j.task.duty.instrument)
    (hSame : d'.instrument = d.instrument)
    (hSettled : d'.settled o = d.settled o ++ [j.task.duty])
    (name : String) :
    d'.settledFor o name = d.settledFor o name ++ j.asked name := by
  unfold settledFor
  rw [Job.asked_of_onCall hOnCall, ← hOwn, hSame, hSettled]
  split <;> rfl

theorem settledLookup_of_none
    (hRange : d.instrument.validRange o.reference = none) :
    d.settledLookup o = [] := by
  unfold settledLookup
  rw [hRange]

theorem settledLookup_of_time
    (hPagination : o.settings.pagination = .time) :
    d.settledLookup o = [] := by
  unfold settledLookup
  rw [hPagination]
  cases d.instrument.validRange o.reference <;> rfl

theorem settledLookup_of_planning
    (hState :
      d.life.state = .discovered ∨ d.life.state = .planning) :
    d.settledLookup o = [] := by
  unfold settledLookup
  split
  · exact if_pos hState
  · rfl

theorem settledLookup_eq
    {range : TimeWindow}
    (hRange : d.instrument.validRange o.reference = some range)
    (hPagination : o.settings.pagination = .sequence)
    (hState :
      ¬(d.life.state = .discovered ∨ d.life.state = .planning)) :
    d.settledLookup o = [.lookup d.instrument.name range.endMs] := by
  unfold settledLookup
  rw [hRange, hPagination]
  exact if_neg hState

theorem settled_eq_nil
    (hLookup : d.settledLookup o = [])
    (hOutcomes : d.outcomes = []) :
    d.settled o = [] := by
  unfold settled
  rw [hLookup, hOutcomes]
  rfl

/- Nothing is done with at a desk that has just been opened. -/
theorem settled_start
    (position : Nat)
    (i : Instrument) :
    (Desk.start position i).settled o = [] :=
  settled_eq_nil (settledLookup_of_planning (Or.inl rfl)) rfl

/- Nothing is done with by making a plan. -/
theorem settled_plan
    (position : Nat)
    (i : Instrument) :
    ((Desk.start position i).plan o.settings o.reference).1.settled o
      = [] := by
  unfold plan
  simp only
  split
  · rename_i hRange
    exact settled_eq_nil (settledLookup_of_none hRange) rfl
  · rename_i hPagination
    exact settled_eq_nil (settledLookup_of_time hPagination) rfl
  · exact settled_eq_nil (settledLookup_of_planning (Or.inr rfl)) rfl

end Settled

end Desk

namespace Prospect

variable {σ κ : Type} {o : Office σ κ} {cancels : Prop}
variable {p : Prospect o cancels}

/- A look-up that has ended is done with. -/
theorem DeskOk.settled_afterLookup
    {d : Desk}
    {duties rest : List Duty}
    {name : String}
    {endMs : Int}
    (h : p.DeskOk d duties)
    (hDuty : duties.Perm (.lookup name endMs :: rest))
    (found : Except Fault (Option Int)) :
    d.instrument.name = name
      ∧ d.settled o = []
      ∧ (d.afterLookup o.settings found).settled o
        = [.lookup name endMs] := by
  rcases h.lookup hDuty with
    ⟨⟨range, hRange, rfl, rfl⟩, hPagination, hDesk, _⟩
  refine ⟨rfl, ?_, ?_⟩
  · have hState : d.life.state = .planning := by
      rw [hDesk]
      rfl
    refine
      Desk.settled_eq_nil
        (Desk.settledLookup_of_planning (Or.inr hState)) ?_
    rw [hDesk]
    rfl
  · have hSame :
        (d.afterLookup o.settings found).instrument = d.instrument := by
      cases found <;> rfl
    have hNone :
        (d.afterLookup o.settings found).outcomes = [] := by
      rw [hDesk]
      cases found <;> rfl
    have hState :
        (d.afterLookup o.settings found).life.state = .fetching
          ∨ (d.afterLookup o.settings found).life.state
            = .failed := by
      rw [hDesk]
      cases found with
      | ok latest => exact Or.inl rfl
      | error f => exact Or.inr rfl
    unfold Desk.settled
    rw [Desk.settledLookup_eq (hSame ▸ hRange) hPagination, hNone,
      hSame]
    · rfl
    · rcases hState with hState | hState <;> rw [hState] <;> simp

/- The duty to walk over a window is that of a plan. -/
theorem DeskOk.walk
    {d : Desk}
    {duties : List Duty}
    {name : String}
    {w : Window}
    (h : p.DeskOk d duties)
    (hDuty : .walk name w ∈ duties) :
    d.instrument.name = name
      ∧ ∃ windows, p.Planned d.instrument windows ∧ w ∈ windows := by
  cases h with
  | fresh hDesk hDuties =>
      rw [hDuties] at hDuty
      cases hDuty
  | unplanned range fault hRange hPagination hFound hDesk hDuties =>
      rw [hDuties] at hDuty
      cases hDuty
  | looking range hRange hPagination hDesk hDuties =>
      rw [hDuties] at hDuty
      cases List.mem_singleton.mp hDuty
  | fetching windows opened hPlanned hDesk hDuties hShare hOutcomes =>
      rcases List.mem_map.mp (hDuties.mem_iff.mp hDuty) with
        ⟨v, hv, hSame⟩
      rcases Duty.walk.inj hSame with ⟨rfl, rfl⟩
      refine ⟨rfl, windows, hPlanned, hShare.mem_iff.mp ?_⟩
      exact List.mem_append_left _ (List.mem_append_right _ hv)

/- A walk that has ended is done with. -/
theorem settled_takeHaul
    (d : Desk)
    (depot : Depot κ)
    (w : Window)
    (walked : Except Fault Haul) :
    (d.takeHaul o.settings o.sink depot w walked).1.settled o
      = d.settled o ++ [.walk d.instrument.name w] := by
  have hAfter :
      ∃ kept,
        (d.takeHaul o.settings o.sink depot w walked).1
          = { d with
              outcomes := d.outcomes ++ [⟨w, walked, kept⟩] } := by
    unfold Desk.takeHaul
    cases Desk.windowResult? o.settings d.instrument w walked <;>
      exact ⟨_, rfl⟩
  rcases hAfter with ⟨kept, hEq⟩
  rw [hEq]
  unfold Desk.settled
  rw [List.map_append, ← List.append_assoc]
  rfl

------------------------------------------------------------
-- Names that need one call for each duty
------------------------------------------------------------

/-
  The walks that are planned under a name make one call each,
  and nobody gives them up.
-/
structure OneCall
    (p : Prospect o cancels)
    (name : String) : Prop where
  uncanceled : ¬cancels
  patient : o.settings.taskTimeoutMs = none
  first :
    ∀ i windows,
      i.name = name →
      p.Planned i windows →
      ∀ w ∈ windows, ∀ u,
        p.OnWay u →
        u.instrument = name →
        u.whole = w →
          u = Walk.start (WalkRules.ofSettings o.settings) name w
  ends :
    ∀ i windows,
      i.name = name →
      p.Planned i windows →
      ∀ w ∈ windows, ∀ s,
        let u := Walk.start (WalkRules.ofSettings o.settings) name w
        ∃ r, u.answer (o.venue.page s u.query).1.result = .ends r

section Calls

variable {name : String} {instruments : List Instrument}
variable {r r' : Run σ κ} {files files' : List (File κ)}

/- A job under such a name makes the call of its duty, its only. -/
theorem RunOk.one_call
    (h : p.RunOk instruments r files)
    (hOne : p.OneCall name)
    {j : Job Errand Find}
    (hMem : j ∈ r.crew.jobs)
    (hName : j.task.duty.instrument = name)
    (now : Nat)
    (s : World σ) :
    (∃ f, (Errand.visit o.venue now s j.task).1.next = .inr f)
      ∧ (Errand.visit o.venue now s j.task).2.calls
        = (now, j.task.duty.call o.settings) :: s.calls := by
  cases hTask : j.task with
  | lookup instrument endMs => exact ⟨⟨_, rfl⟩, rfl⟩
  | walk u =>
      rcases h.groups j hMem with ⟨d, hDesk, hAt⟩
      have hDuty :
          Duty.walk u.instrument u.whole
            ∈ Crew.duties r.crew.jobs d.position := by
        refine List.mem_map.mpr ⟨j, ?_, by rw [hTask]; rfl⟩
        exact List.mem_filter.mpr ⟨hMem, decide_eq_true hAt.symm⟩
      have hOnWay : p.OnWay u := by
        have hOk := (h.jobs j hMem).task
        rw [hTask] at hOk
        exact hOk.1
      rw [hTask] at hName
      rcases (h.desks d hDesk).walk hDuty with
        ⟨hOwn, windows, hPlanned, hw⟩
      have hDeskName : d.instrument.name = name := hOwn.trans hName
      have hFirst :=
        hOne.first d.instrument windows hDeskName hPlanned u.whole hw
          u hOnWay hName rfl
      rcases
        hOne.ends d.instrument windows hDeskName hPlanned u.whole hw
          s.venue with
        ⟨result, hEnds⟩
      rw [← hFirst] at hEnds
      refine ⟨⟨.haul result, ?_⟩, ?_⟩
      · change
          Errand.afterPage u (o.venue.page s.venue u.query).1.result
            = _
        unfold Errand.afterPage
        rw [hEnds]
      · change
          (now, Call.page u.query) :: s.calls
            = (now, Call.page
                (Walk.start (WalkRules.ofSettings o.settings)
                  u.instrument u.whole).query) :: s.calls
        have hOwnName : u.instrument = name := hName
        rw [hOwnName, ← hFirst]

/- The calls under a name, after a job has made one. -/
theorem RunOk.callsFor_visit
    (h : p.RunOk instruments r files)
    (hOne : p.OneCall name)
    {j : Job Errand Find}
    (hMem : j ∈ r.crew.jobs)
    (now : Nat)
    (s : World σ) :
    let made :=
      if j.task.duty.instrument = name then [j.task.duty] else []
    callsFor name (Errand.visit o.venue now s j.task).2.calls
      = made.map (Duty.call o.settings)
        ++ callsFor name s.calls := by
  by_cases hName : j.task.duty.instrument = name
  · have hCall := (h.one_call hOne hMem hName now s).2
    rw [hCall, callsFor_cons, Duty.instrument_call, if_pos hName,
      if_pos hName]
    rfl
  · rcases Errand.exists_call o.venue now s j.task with
      ⟨call, hCall, hInstrument⟩
    rw [hCall, callsFor_cons, hInstrument, if_neg hName,
      if_neg hName]
    rfl

------------------------------------------------------------
-- The ledger
------------------------------------------------------------

/-
  The duties under a name that were called for: those of jobs
  in a call, and those that desks and files have done with.
-/
def calledFor
    (o : Office σ κ)
    (name : String)
    (r : Run σ κ)
    (files : List (File κ)) : List Duty :=
  r.crew.jobs.flatMap (Job.asked name)
    ++ r.desks.flatMap (Desk.settledFor o name)
    ++ files.flatMap fun f => f.desk.settledFor o name

/-
  The calls under a name are those of the duties that were
  called for, and no job under it is in a call that leads to
  another one.
-/
structure Ledger
    (o : Office σ κ)
    (name : String)
    (r : Run σ κ)
    (files : List (File κ)) : Prop where
  calls :
    (callsFor name r.crew.world.calls).Perm
      ((calledFor o name r files).map (Duty.call o.settings))
  single :
    ∀ j ∈ r.crew.jobs,
      j.task.duty.instrument = name →
      ∀ next due,
        j.stage = .calling next due → ∃ f, next = .inr f

theorem ledger_start
    (venue : σ)
    (kept : κ)
    (cancelAt : Option Nat) :
    Ledger o name (Run.start o venue kept cancelAt instruments)
      [] :=
  { calls := List.Perm.refl []
    single := by simp [Run.start, Crew.make] }

namespace Ledger

/- Calls that are made, and the duties that they are made for. -/
theorem after
    (h : Ledger o name r files)
    (made : List Duty)
    (hCalls :
      callsFor name r'.crew.world.calls
        = made.map (Duty.call o.settings)
          ++ callsFor name r.crew.world.calls)
    (hCalled :
      (calledFor o name r' files').Perm
        (made ++ calledFor o name r files))
    (hSingle :
      ∀ j ∈ r'.crew.jobs,
        j.task.duty.instrument = name →
        ∀ next due,
          j.stage = .calling next due → ∃ f, next = .inr f) :
    Ledger o name r' files' :=
  { calls := by
      rw [hCalls]
      refine (h.calls.append_left _).trans ?_
      rw [← List.map_append]
      exact (hCalled.map _).symm
    single := hSingle }

/- A run in which the jobs and one desk have changed. -/
theorem changes
    (h : Ledger o name r files)
    {before after : List Desk}
    {d d' : Desk}
    (hDesks : r.desks = before ++ d :: after)
    (hNew : r'.desks = before ++ d' :: after)
    (hCalls : r'.crew.world.calls = r.crew.world.calls)
    (hCalled :
      (r'.crew.jobs.flatMap (Job.asked name)
          ++ d'.settledFor o name).Perm
        (r.crew.jobs.flatMap (Job.asked name)
          ++ d.settledFor o name))
    (hSingle :
      ∀ j ∈ r'.crew.jobs,
        j.task.duty.instrument = name →
        ∀ next due,
          j.stage = .calling next due → ∃ f, next = .inr f) :
    Ledger o name r' files := by
  refine h.after [] (by rw [hCalls]; rfl) ?_ hSingle
  apply List.perm_iff_count.mpr
  intro duty
  have hCount := List.perm_iff_count.mp hCalled duty
  simp only [calledFor, hDesks, hNew, List.flatMap_append,
    List.flatMap_cons, List.count_append,
    List.nil_append] at hCount ⊢
  omega

/- A run in which a desk has changed and a job is hired. -/
theorem hires
    (h : Ledger o name r files)
    {before after : List Desk}
    {d d' : Desk}
    (hDesks : r.desks = before ++ d :: after)
    (hNew : r'.desks = before ++ d' :: after)
    {group : Nat}
    {task : Errand}
    {patience : Option Nat}
    (hCrew : r'.crew = r.crew.hire group task patience 0)
    (hSettled : d'.settledFor o name = d.settledFor o name) :
    Ledger o name r' files := by
  let new := r.crew.recruit group task patience 0
  have hJobs : r'.crew.jobs = r.crew.jobs ++ [new] := by
    rw [hCrew]
    rfl
  have hIdle : ¬new.OnCall := fun hOnCall => hOnCall
  have hNothing := Job.asked_of_not_onCall hIdle name
  refine h.changes hDesks hNew (by rw [hCrew]; rfl) ?_ ?_
  · rw [hJobs, List.flatMap_append, List.flatMap_singleton,
      hNothing, List.append_nil, hSettled]
  · rw [hJobs]
    intro j hj
    rcases List.mem_append.mp hj with hOld | hNewJob
    · exact h.single j hOld
    · rw [List.mem_singleton.mp hNewJob]
      intro _ next due hCalling
      cases hCalling

------------------------------------------------------------
-- Moves
------------------------------------------------------------

theorem opens
    (h : Ledger o name r files)
    (position : Nat)
    (i : Instrument)
    (rest : List (Nat × Instrument)) :
    Ledger o name
      (Run.openDesk { r with queue := rest } position i) files := by
  have hNothing :
      (Desk.start position i).settledFor o name = [] := by
    unfold Desk.settledFor
    rw [Desk.settled_start]
    exact ite_self _
  refine h.after [] rfl ?_ h.single
  unfold calledFor
  change
    (_ ++ (r.desks ++ [Desk.start position i]).flatMap _ ++ _).Perm _
  rw [List.flatMap_append, List.flatMap_singleton, hNothing,
    List.append_nil]
  exact List.Perm.refl _

theorem plans
    (h : Ledger o name r files)
    (hRun : p.RunOk instruments r files)
    {d : Desk}
    (hDesk : d ∈ r.desks)
    (hUntouched : d.Untouched) :
    Ledger o name (Run.planDesk o r d) files := by
  rcases List.append_of_mem hDesk with ⟨before, after, hSplit⟩
  have hStart := ((hRun.desks d hDesk).untouched hUntouched).1
  have hOld : d.settled o = [] := by
    rw [hStart]
    exact Desk.settled_start _ _
  have hNew : (d.plan o.settings o.reference).1.settled o = [] := by
    rw [hStart]
    exact Desk.settled_plan _ _
  have hSettled :
      (d.plan o.settings o.reference).1.settledFor o name
        = d.settledFor o name := by
    unfold Desk.settledFor
    rw [hOld, hNew, ite_self, ite_self]
  have hPosition := Run.position_plan o.settings o.reference d
  have hDesks :=
    desks_putDesk hSplit hRun.distinct hPosition
  unfold Run.planDesk
  rcases hPlan : d.plan o.settings o.reference with ⟨d', ask⟩
  rw [hPlan] at hSettled hDesks
  cases ask with
  | none =>
      refine h.changes hSplit hDesks rfl ?_ h.single
      rw [hSettled]
      exact List.Perm.refl _
  | some endMs => exact h.hires hSplit hDesks rfl hSettled

theorem starts
    (h : Ledger o name r files)
    (hRun : p.RunOk instruments r files)
    {d : Desk}
    (hDesk : d ∈ r.desks)
    (w : Window)
    (rest : List Window) :
    Ledger o name (Run.startWalk o r d w rest) files := by
  rcases List.append_of_mem hDesk with ⟨before, after, hSplit⟩
  have hDesks :=
    desks_putDesk hSplit hRun.distinct
      (rfl : ({ d with pending := rest } : Desk).position
        = d.position)
  exact h.hires hSplit hDesks rfl rfl

theorem waits
    (h : Ledger o name r files)
    (t : Nat) :
    Ledger o name { r with crew := r.crew.advanceTo t } files := by
  rcases Crew.advanceTo_eq r.crew t with ⟨woken, hEq, _⟩
  rw [hEq]
  exact h.after [] rfl (List.Perm.refl _) h.single

theorem closes
    (h : Ledger o name r files)
    (hRun : p.RunOk instruments r files)
    {d : Desk}
    (hDesk : d ∈ r.desks) :
    Ledger o name (Run.closeDesk o r d)
      (files ++ [{ desk := d, depot := r.depot }]) := by
  rcases List.append_of_mem hDesk with ⟨before, after, hSplit⟩
  have hDistinct := hRun.distinct
  rw [hSplit] at hDistinct
  have hLeft :
      (Run.closeDesk o r d).desks = before ++ after := by
    change (r.desks.filter fun e => e.position ≠ d.position) = _
    rw [hSplit, desks_without hDistinct]
  refine h.after [] rfl ?_ h.single
  apply List.perm_iff_count.mpr
  intro duty
  simp only [calledFor, hLeft, hSplit, List.flatMap_append,
    List.flatMap_cons, List.flatMap_nil, List.count_append,
    List.nil_append, List.append_nil]
  change List.count duty (r.crew.jobs.flatMap _) + _ + _ = _
  omega

/-
  What a job that is served and does not end has come to, and
  the call that it has made, if it was to make one.
-/
theorem served_none
    (h : Ledger o name r files)
    (hRun : p.RunOk instruments r files)
    (hOne : p.OneCall name)
    {j : Job Errand Find}
    (hMem : j ∈ r.crew.jobs)
    {c : Crew (World σ) Errand Find}
    (hServed :
      Crew.Served (Errand.visit o.venue) r.crew j (c, none)) :
    ∃ (job : Job Errand Find) (made : List Duty),
      job.number = j.number
        ∧ c.jobs = Crew.updated r.crew.jobs job
        ∧ callsFor name c.world.calls
          = made.map (Duty.call o.settings)
            ++ callsFor name r.crew.world.calls
        ∧ job.asked name = made ++ j.asked name
        ∧ (job.task.duty.instrument = name →
            ∀ next due,
              job.stage = .calling next due →
                ∃ f, next = .inr f) := by
  cases hServed with
  | rests ms hStage =>
      let job : Job Errand Find := { j with stage := .ready }
      have hIdle : ¬j.OnCall := by
        simp [Job.OnCall, hStage]
      have hStill : ¬job.OnCall := fun hOnCall => hOnCall
      refine ⟨job, [], rfl, rfl, rfl, ?_, ?_⟩
      · rw [Job.asked_of_not_onCall hIdle,
          Job.asked_of_not_onCall hStill]
        rfl
      · intro _ next due hCalling
        cases hCalling
  | asks hStage =>
      let job : Job Errand Find := { j with stage := .queued }
      have hIdle : ¬j.OnCall := by
        simp [Job.OnCall, hStage]
      have hStill : ¬job.OnCall := fun hOnCall => hOnCall
      refine ⟨job, [], rfl, rfl, rfl, ?_, ?_⟩
      · rw [Job.asked_of_not_onCall hIdle,
          Job.asked_of_not_onCall hStill]
        rfl
      · intro _ next due hCalling
        cases hCalling
  | begins hStage hGranted =>
      have hIdle : ¬j.OnCall := by
        simp [Job.OnCall, hStage]
      rw [Crew.begin_eq]
      let job := r.crew.inCall (Errand.visit o.venue) j
      have hOnCall : job.OnCall := trivial
      refine
        ⟨job, _, rfl, rfl,
          hRun.callsFor_visit hOne hMem r.crew.now r.crew.world, ?_,
          ?_⟩
      · rw [Job.asked_of_not_onCall hIdle, List.append_nil]
        exact Job.asked_of_onCall hOnCall name
      · intro hName next due hCalling
        cases hCalling
        exact
          (hRun.one_call hOne hMem hName r.crew.now r.crew.world).1
  | sleeps hHeldUp hLimit =>
      rw [Crew.sleep_eq]
      exact
        ⟨{ j with deadline := r.crew.limit j }, [], rfl, rfl, rfl,
          rfl, h.single j hMem⟩
  | again task due hStage hDue =>
      -- Under the name, no call leads to another one.
      have hOther : j.task.duty.instrument ≠ name := by
        intro hName
        rcases h.single j hMem hName _ _ hStage with ⟨f, hNext⟩
        cases hNext
      let job : Job Errand Find :=
        { j with task := task, stage := .ready }
      have hStill : ¬job.OnCall := fun hOnCall => hOnCall
      refine
        ⟨job, [], rfl,
          congrArg (Crew.updated · _) (Crew.jobs_setGate r.crew _),
          ?_, ?_, ?_⟩
      · exact
          congrArg (fun w : World σ => callsFor name w.calls)
            (Crew.world_setGate r.crew _)
      · rw [Job.asked_of_ne hOther,
          Job.asked_of_not_onCall hStill]
        rfl
      · intro _ next due hCalling
        cases hCalling

/- A job that is served and does not end. -/
theorem served_on
    (h : Ledger o name r files)
    (hRun : p.RunOk instruments r files)
    (hOne : p.OneCall name)
    {j : Job Errand Find}
    (hMem : j ∈ r.crew.jobs)
    {c : Crew (World σ) Errand Find}
    (hServe :
      r.crew.serve (Errand.visit o.venue) j = (c, none)) :
    Ledger o name { r with crew := c } files := by
  have hServed := Crew.served (Errand.visit o.venue) r.crew j
  rw [hServe] at hServed
  rcases h.served_none hRun hOne hMem hServed with
    ⟨job, made, hNumber, hJobs, hCalls, hAsked, hSingle⟩
  rcases Crew.exists_split hRun.crew.distinct hMem with
    ⟨before, after, hSplit, _, hUpdated⟩
  have hNew := hJobs.trans (hUpdated job hNumber)
  refine h.after made hCalls ?_ ?_
  · apply List.perm_iff_count.mpr
    intro duty
    simp only [calledFor, hNew, hSplit, List.flatMap_append,
      List.flatMap_cons, hAsked, List.count_append]
    omega
  · intro i hi
    rw [hJobs, Crew.mem_updated hMem hNumber] at hi
    rcases hi with rfl | ⟨hi, _⟩
    · exact hSingle
    · exact h.single i hi

end Ledger

/- Where nobody gives up, a job ends with its call. -/
theorem RunOk.done_of_served
    (h : p.RunOk instruments r files)
    (hOne : p.OneCall name)
    {j : Job Errand Find}
    (hMem : j ∈ r.crew.jobs)
    {c : Crew (World σ) Errand Find}
    {e : Ending Find}
    (hServed :
      Crew.Served (Errand.visit o.venue) r.crew j (c, some e)) :
    j.OnCall
      ∧ c.jobs = Crew.without r.crew.jobs j.number
      ∧ c.world = r.crew.world := by
  cases hServed with
  | canceled hCanceled =>
      exfalso
      apply hOne.uncanceled
      apply h.cancel
      intro hNone
      unfold Crew.Canceled at hCanceled
      rw [hNone] at hCanceled
      exact hCanceled
  | refused hStage hRefused =>
      exact (h.crew.gate.settled _ _ hRefused).elim
  | overdue hHeldUp hLimit =>
      exfalso
      have hPatience : j.patience = none := by
        rw [(h.jobs j hMem).patience]
        cases j.task with
        | lookup _ _ => rfl
        | walk _ => exact hOne.patient
      have hNoDeadline : j.deadline = none := by
        by_contra hSome
        exact (h.crew.jobs j hMem).deadline hSome hPatience
      unfold Crew.limit at hLimit
      rw [hNoDeadline, hPatience] at hLimit
      exact hLimit
  | done f due hStage hDue =>
      refine
        ⟨?_, Crew.jobs_dismiss r.crew _, Crew.world_dismiss r.crew _⟩
      simp [Job.OnCall, hStage]

namespace Ledger

/- A job that ends, and the desk that is done with its duty. -/
theorem served_end
    (h : Ledger o name r files)
    (hRun : p.RunOk instruments r files)
    (hOne : p.OneCall name)
    {j : Job Errand Find}
    (hMem : j ∈ r.crew.jobs)
    {c : Crew (World σ) Errand Find}
    {e : Ending Find}
    (hServe :
      r.crew.serve (Errand.visit o.venue) j = (c, some e)) :
    Ledger o name
      (Run.takeFind o { r with crew := c } j (findOf j e))
      files := by
  have hServed := Crew.served (Errand.visit o.venue) r.crew j
  rw [hServe] at hServed
  rcases hRun.done_of_served hOne hMem hServed with
    ⟨hOnCall, hJobs, hWorld⟩
  rcases hRun.brought hMem hServe with ⟨d, hDesk, hAt, hBrought⟩
  rcases Crew.exists_split hRun.crew.distinct hMem with
    ⟨early, late, hSplitJobs, hWithout, _⟩
  rcases List.append_of_mem hDesk with ⟨before, after, hSplit⟩
  have hNew := hJobs.trans hWithout
  have hStill : ∀ i ∈ c.jobs, i ∈ r.crew.jobs := by
    intro i hi
    rw [hJobs] at hi
    exact (Crew.mem_without.mp hi).1
  have hDone {r' : Run σ κ} {d' : Desk}
      (hDesks : r'.desks = before ++ d' :: after)
      (hCrew : r'.crew = c)
      (hSettled :
        d'.settledFor o name
          = d.settledFor o name ++ j.asked name) :
      Ledger o name r' files := by
    refine h.changes hSplit hDesks (by rw [hCrew, hWorld]) ?_ ?_
    · rw [hCrew, hNew, hSplitJobs, hSettled]
      apply List.perm_iff_count.mpr
      intro duty
      simp only [List.flatMap_append, List.flatMap_cons,
        List.count_append]
      omega
    · rw [hCrew]
      exact fun i hi => h.single i (hStill i hi)
  generalize
    Run.takeFind o { r with crew := c } j (findOf j e) = r'
    at hBrought ⊢
  generalize findOf j e = f at hBrought
  cases hBrought with
  | latest instrument endMs found hTask hDuty hFound =>
      have hPosition := Run.position_afterLookup o.settings d found
      rcases (hRun.desks d hDesk).settled_afterLookup hDuty found with
        ⟨hOwn, hOld, hSettled⟩
      have hSame :
          (d.afterLookup o.settings found).instrument
            = d.instrument := by
        cases found <;> rfl
      refine
        hDone
          (desks_putDesk (r := { r with crew := c }) hSplit
            hRun.distinct hPosition) rfl ?_
      refine Desk.settledFor_of_onCall hOnCall ?_ hSame ?_ name
      · rw [hTask]
        exact hOwn
      · rw [hOld, hSettled, hTask]
        rfl
  | haul u walked hTask hDuty hEnds =>
      have hPosition :=
        Run.position_takeHaul o.settings o.sink r.depot d u.whole
          walked
      have hWalk := hDuty.mem_iff.mpr List.mem_cons_self
      rcases (hRun.desks d hDesk).walk hWalk with ⟨hOwn, _⟩
      have hSame :
          (d.takeHaul o.settings o.sink r.depot u.whole
            walked).1.instrument = d.instrument :=
        rfl
      refine
        hDone
          (desks_putDesk (r := { r with crew := c }) hSplit
            hRun.distinct hPosition) rfl ?_
      refine Desk.settledFor_of_onCall hOnCall ?_ hSame ?_ name
      · rw [hTask]
        exact hOwn
      · rw [settled_takeHaul, hTask, hOwn]
        rfl

/- Whatever happens next, the ledger is kept. -/
theorem move
    (h : Ledger o name r files)
    (hRun : p.RunOk instruments r files)
    (hOne : p.OneCall name)
    (hMove : Run.Move o r r') :
    ∃ files',
      p.RunOk instruments r' files' ∧ Ledger o name r' files' := by
  cases hMove with
  | opens position i rest hQueue =>
      exact ⟨files, hRun.opens hQueue, h.opens position i rest⟩
  | waits t hNext => exact ⟨files, hRun.waits t, h.waits t⟩
  | works d r' hDesk hWork =>
      cases hWork with
      | plans hUntouched =>
          exact
            ⟨files, hRun.plans hDesk hUntouched,
              h.plans hRun hDesk hUntouched⟩
      | starts w rest hPending =>
          exact
            ⟨files, hRun.starts hDesk hPending,
              h.starts hRun hDesk w rest⟩
      | closes hTouched hPending hJobs =>
          exact
            ⟨_, hRun.closes hDesk hTouched hPending hJobs,
              h.closes hRun hDesk⟩
      | serves j hJob hWoken hGroup =>
          refine ⟨files, ?_⟩
          unfold Run.serve
          rcases hServe :
            r.crew.serve (Errand.visit o.venue) j with ⟨c, ending⟩
          cases ending with
          | none =>
              exact
                ⟨hRun.served_on hJob hWoken hServe,
                  h.served_on hRun hOne hJob hServe⟩
          | some e =>
              exact
                ⟨hRun.served_end hJob hWoken hServe,
                  h.served_end hRun hOne hJob hServe⟩

end Ledger

/- The ledger is kept from the start of a run on. -/
theorem exists_ledger
    (hOne : p.OneCall name)
    (hCeiling : 0 < o.settings.maxInFlight)
    {venue : σ}
    {kept : κ}
    (hDepot : p.Holds { kept := kept, handed := [] })
    (hReached :
      Run.Reaches o (Run.start o venue kept none instruments) r) :
    ∃ files,
      p.RunOk instruments r files ∧ Ledger o name r files := by
  induction hReached with
  | stays =>
      refine
        ⟨[], p.runOk_start hCeiling venue kept none ?_ hDepot
          instruments, ledger_start venue kept none⟩
      exact fun hSome => absurd rfl hSome
  | turns f _ ih =>
      rcases ih with ⟨files, hRun, hLedger⟩
      refine ⟨files, hRun.withFocus f, ?_⟩
      exact hLedger.after [] rfl (List.Perm.refl _) hLedger.single
  | moves _ hMove ih =>
      rcases ih with ⟨files, hRun, hLedger⟩
      exact hLedger.move hRun hOne hMove

/- At the end of a run its files tell what was called for. -/
theorem calls_of_done
    (hRun : p.RunOk instruments r files)
    (hLedger : Ledger o name r files)
    (hDone : r.Done) :
    (callsFor name r.calls).Perm
      (files.flatMap fun f =>
        (f.desk.settledFor o name).map (Duty.call o.settings)) := by
  have hJobs : r.crew.jobs = [] := by
    refine List.eq_nil_iff_forall_not_mem.mpr ?_
    intro j hj
    rcases hRun.groups j hj with ⟨d, hd, _⟩
    rw [hDone.2] at hd
    exact List.not_mem_nil hd
  have hCalls := hLedger.calls
  unfold calledFor at hCalls
  rw [hJobs, hDone.2, List.flatMap_nil, List.flatMap_nil,
    List.nil_append, List.nil_append, List.map_flatMap] at hCalls
  refine List.Perm.trans ?_ hCalls
  unfold Run.calls callsFor
  rw [List.map_reverse, List.filter_reverse]
  exact List.reverse_perm _

end Calls

end Prospect

end TradeTape
