import TradeTape.Proofs.Run.Desks

/-
  What holds of a run in every state.

  Each instrument waits, has a desk or has a report, and each
  job works for a desk.  What was handed to the sink came from
  the desks, or from the files: what was at a desk when it was
  closed.

  Key statements include:
    * `Prospect.RunOk`
    * `Prospect.RunOk.move`
    * `Prospect.runOk_of_reaches`
-/

namespace TradeTape

namespace Prospect

variable {σ κ : Type} {o : Office σ κ} {cancels : Prop}
variable (p : Prospect o cancels)

------------------------------------------------------------
-- Runs
------------------------------------------------------------

/-
  A run that keeps to a prospect, with the files of the desks
  that are closed.
-/
structure RunOk
    (instruments : List Instrument)
    (r : Run σ κ)
    (files : List (File κ)) : Prop where
  crew : r.crew.Sound
  cancel : r.crew.cancelAt ≠ none → cancels
  jobs : ∀ j ∈ r.crew.jobs, p.JobOk j
  groups :
    ∀ j ∈ r.crew.jobs, ∃ d ∈ r.desks, d.position = j.group
  positions :
    (r.queue.map Prod.fst ++ r.desks.map Desk.position).Nodup
  desks :
    ∀ d ∈ r.desks,
      p.DeskOk d (Crew.duties r.crew.jobs d.position)
  depot : p.Holds r.depot
  filed : ∀ f ∈ files, p.FileOk f
  reports : r.reports = files.map (File.report o)
  roster :
    (r.queue.map Prod.snd ++ r.desks.map Desk.instrument
      ++ files.map fun f => f.desk.instrument).Perm instruments
  handed :
    r.depot.handed.Perm
      (r.desks.flatMap (Desk.results o.settings)
        ++ files.flatMap (File.results o))

/- A run before its first step keeps to a prospect. -/
theorem runOk_start
    (hCeiling : 0 < o.settings.maxInFlight)
    (venue : σ)
    (kept : κ)
    (cancelAt : Option Nat)
    (hCancel : cancelAt ≠ none → cancels)
    (hDepot : p.Holds { kept := kept, handed := [] })
    (instruments : List Instrument) :
    p.RunOk instruments
      (Run.start o venue kept cancelAt instruments) [] :=
  { crew := Crew.sound_make hCeiling o.timer cancelAt _
    cancel := by
      intro hSome
      apply hCancel
      intro hNone
      exact hSome (by rw [hNone]; rfl)
    jobs := by simp [Run.start, Crew.make]
    groups := by simp [Run.start, Crew.make]
    positions := by
      simp only [Run.start, List.map_nil, List.append_nil]
      rw [List.map_fst_zip (by simp)]
      exact List.nodup_range
    desks := by simp [Run.start]
    depot := hDepot
    filed := by simp
    reports := rfl
    roster := by
      simp only [Run.start, List.map_nil, List.append_nil]
      rw [List.map_snd_zip (by simp)]
    handed := List.Perm.refl [] }

variable {p}

------------------------------------------------------------
-- Lists of desks
------------------------------------------------------------

/- Around a desk there is none with its position. -/
theorem positions_ne_of_split
    {before after : List Desk}
    {d : Desk}
    (hDistinct :
      ((before ++ d :: after).map Desk.position).Nodup) :
    (∀ e ∈ before, e.position ≠ d.position)
      ∧ ∀ e ∈ after, e.position ≠ d.position := by
  rw [List.map_append, List.map_cons,
    List.nodup_append] at hDistinct
  rcases hDistinct with ⟨_, hRest, hApart⟩
  refine ⟨?_, ?_⟩
  · intro e he
    exact
      hApart e.position (List.mem_map_of_mem he) d.position
        List.mem_cons_self
  · intro e he hSame
    exact
      (List.nodup_cons.mp hRest).1
        (hSame ▸ List.mem_map_of_mem he)

theorem desks_putDesk
    {r : Run σ κ}
    {before after : List Desk}
    {d d' : Desk}
    (hDesks : r.desks = before ++ d :: after)
    (hDistinct : (r.desks.map Desk.position).Nodup)
    (hPosition : d'.position = d.position) :
    (r.putDesk d').desks = before ++ d' :: after := by
  rw [hDesks] at hDistinct
  rcases positions_ne_of_split hDistinct with ⟨hBefore, hAfter⟩
  have hKeep (desks : List Desk)
      (hOther : ∀ e ∈ desks, e.position ≠ d.position) :
      (desks.map fun e =>
        if e.position = d'.position then d' else e) = desks := by
    refine (List.map_congr_left ?_).trans (List.map_id desks)
    intro e he
    rw [hPosition]
    exact if_neg (hOther e he)
  change (r.desks.map fun e =>
    if e.position = d'.position then d' else e) = _
  rw [hDesks, List.map_append, List.map_cons, hKeep before hBefore,
    hKeep after hAfter, if_pos hPosition.symm]

theorem desks_without
    {before after : List Desk}
    {d : Desk}
    (hDistinct :
      ((before ++ d :: after).map Desk.position).Nodup) :
    ((before ++ d :: after).filter fun e =>
        e.position ≠ d.position) = before ++ after := by
  rcases positions_ne_of_split hDistinct with ⟨hBefore, hAfter⟩
  rw [List.filter_append, List.filter_cons,
    List.filter_eq_self.mpr fun e he => decide_eq_true (hBefore e he),
    List.filter_eq_self.mpr fun e he => decide_eq_true (hAfter e he)]
  simp

theorem deskAt?_eq_some
    {r : Run σ κ}
    {d : Desk}
    (hDesk : d ∈ r.desks)
    (hDistinct : (r.desks.map Desk.position).Nodup) :
    r.deskAt? d.position = some d := by
  unfold Run.deskAt?
  rw [List.find?_eq_some_iff_append]
  rcases List.append_of_mem hDesk with ⟨before, after, hSplit⟩
  refine ⟨by simp, before, after, hSplit, ?_⟩
  intro e he
  rw [hSplit] at hDistinct
  simpa using (positions_ne_of_split hDistinct).1 e he

namespace RunOk

variable {instruments : List Instrument}
variable {r r' : Run σ κ} {files : List (File κ)}

theorem distinct
    (h : p.RunOk instruments r files) :
    (r.desks.map Desk.position).Nodup :=
  (List.nodup_append.mp h.positions).2.1

/-
  A run in which the crew and one desk have changed, and what
  that desk has handed over since.
-/
theorem updated
    (h : p.RunOk instruments r files)
    {before after : List Desk}
    {d d' : Desk}
    (hDesks : r.desks = before ++ d :: after)
    (hNew : r'.desks = before ++ d' :: after)
    (hPosition : d'.position = d.position)
    (hInstrument : d'.instrument = d.instrument)
    (hQueue : r'.queue = r.queue)
    (hReports : r'.reports = r.reports)
    (hCrew : r'.crew.Sound)
    (hCancel : r'.crew.cancelAt = r.crew.cancelAt)
    (hJobs : ∀ j ∈ r'.crew.jobs, p.JobOk j)
    (hGroups :
      ∀ j ∈ r'.crew.jobs,
        j.group = d.position ∨ ∃ i ∈ r.crew.jobs, i.group = j.group)
    (hDuties :
      ∀ position, position ≠ d.position →
        Crew.duties r'.crew.jobs position
          = Crew.duties r.crew.jobs position)
    (hDesk : p.DeskOk d' (Crew.duties r'.crew.jobs d.position))
    (hDepot : p.Holds r'.depot)
    {more : List Result}
    (hResults :
      d'.results o.settings = d.results o.settings ++ more)
    (hHanded : r'.depot.handed = r.depot.handed ++ more) :
    p.RunOk instruments r' files := by
  have hDistinct := h.distinct
  rw [hDesks] at hDistinct
  rcases positions_ne_of_split hDistinct with ⟨hBefore, hAfter⟩
  have hSamePositions :
      r'.desks.map Desk.position = r.desks.map Desk.position := by
    rw [hNew, hDesks, List.map_append, List.map_append,
      List.map_cons, List.map_cons, hPosition]
  have hSameInstruments :
      r'.desks.map Desk.instrument
        = r.desks.map Desk.instrument := by
    rw [hNew, hDesks, List.map_append, List.map_append,
      List.map_cons, List.map_cons, hInstrument]
  refine
    { crew := hCrew
      cancel := by
        rw [hCancel]
        exact h.cancel
      jobs := hJobs
      groups := ?_
      positions := by
        rw [hQueue, hSamePositions]
        exact h.positions
      desks := ?_
      depot := hDepot
      filed := h.filed
      reports := hReports.trans h.reports
      roster := by
        rw [hQueue, hSameInstruments]
        exact h.roster
      handed := ?_ }
  · intro j hj
    have hSome : ∃ e ∈ r.desks, e.position = j.group := by
      rcases hGroups j hj with hOwn | ⟨i, hi, hGroup⟩
      · exact ⟨d, by rw [hDesks]; simp, hOwn.symm⟩
      · rcases h.groups i hi with ⟨e, he, hAt⟩
        exact ⟨e, he, hAt.trans hGroup⟩
    have hMem : j.group ∈ r'.desks.map Desk.position := by
      rw [hSamePositions]
      rcases hSome with ⟨e, he, hAt⟩
      exact hAt ▸ List.mem_map_of_mem he
    exact List.mem_map.mp hMem
  · -- Another desk has the duties that it had.
    have hOther (e : Desk) (hOld : e ∈ r.desks)
        (hNe : e.position ≠ d.position) :
        p.DeskOk e (Crew.duties r'.crew.jobs e.position) := by
      rw [hDuties e.position hNe]
      exact h.desks e hOld
    rw [hDesks, List.forall_mem_append,
      List.forall_mem_cons] at hOther
    rcases hOther with ⟨hFirst, _, hLast⟩
    rw [hNew, List.forall_mem_append, List.forall_mem_cons,
      hPosition]
    exact
      ⟨fun e he => hFirst e he (hBefore e he), hDesk,
        fun e he => hLast e he (hAfter e he)⟩
  · have hOld := h.handed
    rw [hDesks, List.flatMap_append, List.flatMap_cons] at hOld
    rw [hNew, List.flatMap_append, List.flatMap_cons, hResults,
      hHanded]
    refine (hOld.append_right more).trans ?_
    simp only [List.append_assoc]
    refine List.Perm.append_left _ ?_
    refine List.Perm.append_left _ ?_
    rw [← List.append_assoc]
    exact List.perm_append_comm

/- A run in which the crew alone has changed. -/
theorem withCrew
    (h : p.RunOk instruments r files)
    {c : Crew (World σ) Errand Find}
    (hCrew : c.Sound)
    (hCancel : c.cancelAt = r.crew.cancelAt)
    (hJobs : ∀ j ∈ c.jobs, p.JobOk j)
    (hGroups :
      ∀ j ∈ c.jobs, ∃ i ∈ r.crew.jobs, i.group = j.group)
    (hDuties :
      ∀ position,
        Crew.duties c.jobs position
          = Crew.duties r.crew.jobs position) :
    p.RunOk instruments { r with crew := c } files :=
  { h with
    crew := hCrew
    cancel := by
      rw [hCancel]
      exact h.cancel
    jobs := hJobs
    groups := by
      intro j hj
      rcases hGroups j hj with ⟨i, hi, hGroup⟩
      rcases h.groups i hi with ⟨d, hd, hAt⟩
      exact ⟨d, hd, hAt.trans hGroup⟩
    desks := by
      intro d hd
      rw [hDuties]
      exact h.desks d hd }

end RunOk

------------------------------------------------------------
-- Moves
------------------------------------------------------------

namespace RunOk

variable {instruments : List Instrument}
variable {r : Run σ κ} {files : List (File κ)}

theorem withFocus
    (h : p.RunOk instruments r files)
    (f : Option Nat) :
    p.RunOk instruments { r with focus := f } files :=
  { h with }

theorem opens
    (h : p.RunOk instruments r files)
    {position : Nat}
    {i : Instrument}
    {rest : List (Nat × Instrument)}
    (hQueue : r.queue = (position, i) :: rest) :
    p.RunOk instruments
      (Run.openDesk { r with queue := rest } position i) files := by
  have hPositions := h.positions
  rw [hQueue, List.map_cons, List.cons_append,
    List.nodup_cons] at hPositions
  have hNobody : ∀ j ∈ r.crew.jobs, j.group ≠ position := by
    intro j hj hGroup
    rcases h.groups j hj with ⟨d, hd, hAt⟩
    refine hPositions.1 (List.mem_append_right _ ?_)
    rw [← hGroup, ← hAt]
    exact List.mem_map_of_mem hd
  let fresh := Desk.start position i
  have hDesks :
      (Run.openDesk { r with queue := rest } position i).desks
        = r.desks ++ [fresh] := rfl
  refine
    { h with
      groups := ?_
      positions := ?_
      desks := ?_
      roster := ?_
      handed := ?_ }
  · intro j hj
    rcases h.groups j hj with ⟨d, hd, hAt⟩
    exact ⟨d, List.mem_append_left _ hd, hAt⟩
  · rw [hDesks, List.map_append, ← List.append_assoc]
    change
      (rest.map Prod.fst ++ r.desks.map Desk.position
        ++ [position]).Nodup
    refine List.perm_append_comm.nodup_iff.mpr ?_
    exact List.nodup_cons.mpr hPositions
  · intro d hd
    rw [hDesks, List.mem_append, List.mem_singleton] at hd
    rcases hd with hOld | rfl
    · exact h.desks d hOld
    · exact DeskOk.fresh rfl (Crew.duties_eq_nil hNobody)
  · have hRoster := h.roster
    rw [hQueue, List.map_cons] at hRoster
    refine List.Perm.trans ?_ hRoster
    rw [hDesks, List.map_append]
    change
      (rest.map Prod.snd ++ (r.desks.map Desk.instrument ++ [i])
        ++ files.map _).Perm
        (i :: rest.map Prod.snd ++ r.desks.map Desk.instrument
          ++ files.map _)
    refine List.Perm.append_right _ ?_
    rw [← List.append_assoc]
    exact List.perm_append_comm
  · have hNothing : fresh.results o.settings = [] := rfl
    rw [hDesks, List.flatMap_append, List.flatMap_singleton,
      hNothing, List.append_nil]
    exact h.handed

/- A job that is hired for a desk. -/
theorem jobOk_recruit
    {c : Crew (World σ) Errand Find}
    (group : Nat)
    {task : Errand}
    (hTask : p.TaskOk task)
    {patience : Option Nat}
    (hPatience : patience = patienceFor o.settings task) :
    p.JobOk (c.recruit group task patience 0) :=
  { task := hTask
    patience := hPatience
    next := by
      intro next due hCalling
      cases hCalling }

/- A run in which a desk has changed and a job is hired. -/
theorem hires
    (h : p.RunOk instruments r files)
    {d d' : Desk}
    (hDesk : d ∈ r.desks)
    (hPosition : d'.position = d.position)
    (hInstrument : d'.instrument = d.instrument)
    {task : Errand}
    (hTask : p.TaskOk task)
    {patience : Option Nat}
    (hPatience : patience = patienceFor o.settings task)
    (hNew :
      p.DeskOk d'
        (Crew.duties r.crew.jobs d.position ++ [task.duty]))
    (hResults :
      d'.results o.settings = d.results o.settings) :
    p.RunOk instruments
      { r.putDesk d' with
        crew := r.crew.hire d.position task patience 0 } files := by
  rcases List.append_of_mem hDesk with ⟨before, after, hSplit⟩
  let new := r.crew.recruit d.position task patience 0
  have hDuties (position : Nat) :
      Crew.duties (r.crew.jobs ++ [new]) position
        = Crew.duties r.crew.jobs position
          ++ if d.position = position then [task.duty] else [] := by
    rw [Crew.duties_append, Crew.duties_singleton]
    rfl
  refine
    h.updated hSplit (desks_putDesk hSplit h.distinct hPosition)
      hPosition hInstrument rfl rfl (h.crew.hire _ _ _ _) rfl ?_ ?_
      ?_ ?_ h.depot (hResults.trans (List.append_nil _).symm)
      (List.append_nil _).symm
  · intro j hj
    rcases List.mem_append.mp hj with hOld | hNewJob
    · exact h.jobs j hOld
    · rw [List.mem_singleton.mp hNewJob]
      exact jobOk_recruit d.position hTask hPatience
  · intro j hj
    rcases List.mem_append.mp hj with hOld | hNewJob
    · exact Or.inr ⟨j, hOld, rfl⟩
    · rw [List.mem_singleton.mp hNewJob]
      exact Or.inl rfl
  · intro position hOther
    refine (hDuties position).trans ?_
    rw [if_neg (Ne.symm hOther), List.append_nil]
  · have hOwn := hDuties d.position
    rw [if_pos rfl] at hOwn
    change p.DeskOk d' (Crew.duties (r.crew.jobs ++ [new]) d.position)
    rw [hOwn]
    exact hNew

theorem plans
    (h : p.RunOk instruments r files)
    {d : Desk}
    (hDesk : d ∈ r.desks)
    (hUntouched : d.Untouched) :
    p.RunOk instruments (Run.planDesk o r d) files := by
  rcases (h.desks d hDesk).untouched hUntouched with
    ⟨hStart, hDuties⟩
  have hPlan := deskOk_plan (p := p) hStart
  have hNothing : d.results o.settings = [] := by
    unfold Desk.results
    rw [hStart]
    rfl
  unfold Run.planDesk
  rcases hResult : d.plan o.settings o.reference with ⟨d', ask⟩
  rw [hResult] at hPlan
  cases ask with
  | none =>
      rcases hPlan with
        ⟨hNew, hPosition, hInstrument, hOutcomes⟩
      rcases List.append_of_mem hDesk with ⟨before, after, hSplit⟩
      have hResults :
          d'.results o.settings
            = d.results o.settings ++ [] := by
        rw [hNothing]
        unfold Desk.results
        rw [hOutcomes]
        rfl
      refine
        h.updated hSplit (desks_putDesk hSplit h.distinct hPosition)
          hPosition hInstrument rfl rfl h.crew rfl h.jobs
          (fun j hj => Or.inr ⟨j, hj, rfl⟩) (fun _ _ => rfl) ?_
          h.depot hResults (List.append_nil _).symm
      change p.DeskOk d' (Crew.duties r.crew.jobs d.position)
      rw [hDuties]
      exact hNew
  | some endMs =>
      rcases hPlan with
        ⟨hNew, hPosition, hInstrument, hOutcomes⟩
      have hResults :
          d'.results o.settings = d.results o.settings := by
        rw [hNothing]
        unfold Desk.results
        rw [hOutcomes]
        rfl
      let task : Errand := .lookup d'.instrument.name endMs
      have hTask : p.TaskOk task := trivial
      have hPatience : none = patienceFor o.settings task := rfl
      have hHires :=
        h.hires hDesk hPosition hInstrument hTask hPatience
          (by
            change
              p.DeskOk d'
                (Crew.duties r.crew.jobs d.position
                  ++ [.lookup d'.instrument.name endMs])
            rw [hDuties, hInstrument]
            exact hNew)
          hResults
      rw [← hPosition] at hHires
      exact hHires

theorem starts
    (h : p.RunOk instruments r files)
    {d : Desk}
    {w : Window}
    {rest : List Window}
    (hDesk : d ∈ r.desks)
    (hPending : d.pending = w :: rest) :
    p.RunOk instruments (Run.startWalk o r d w rest) files := by
  let walk :=
    Walk.start (WalkRules.ofSettings o.settings) d.instrument.name w
  have hTask : p.TaskOk (.walk walk) := by
    refine ⟨p.starts d.instrument.name w, rfl, ?_⟩
    change 0 < max o.settings.maxPages 1
    omega
  exact
    h.hires hDesk (rfl : ({ d with pending := rest } : Desk).position
      = d.position) rfl hTask rfl
      ((h.desks d hDesk).start hPending) rfl

theorem waits
    (h : p.RunOk instruments r files)
    (t : Nat) :
    p.RunOk instruments { r with crew := r.crew.advanceTo t }
      files := by
  rcases Crew.advanceTo_eq r.crew t with ⟨woken, hEq, _⟩
  have hJobs : (r.crew.advanceTo t).jobs = r.crew.jobs := by
    rw [hEq]
  refine
    h.withCrew (h.crew.advanceTo t) (by rw [hEq]) ?_ ?_ ?_
  · rw [hJobs]
    exact h.jobs
  · rw [hJobs]
    exact fun j hj => ⟨j, hj, rfl⟩
  · intro position
    rw [hJobs]

/- What holds of a depot holds after a desk is closed. -/
theorem holds_close
    {depot : Depot κ}
    (hDepot : p.Holds depot)
    (d : Desk) :
    p.Holds (d.close o.settings o.sink depot).2 := by
  unfold Desk.close
  split
  · exact hDepot
  · unfold Desk.merge
    simp only
    split
    · exact hDepot
    · split
      · exact hDepot
      · split
        · exact hDepot
        · split <;> exact (p.keeps depot _ hDepot).1

theorem closes
    (h : p.RunOk instruments r files)
    {d : Desk}
    (hDesk : d ∈ r.desks)
    (hTouched : ¬d.Untouched)
    (hPending : d.pending = [])
    (hNone : r.crew.ofGroup d.position = []) :
    p.RunOk instruments (Run.closeDesk o r d)
      (files ++ [{ desk := d, depot := r.depot }]) := by
  rw [Crew.ofGroup_eq_nil_iff] at hNone
  let file : File κ := { desk := d, depot := r.depot }
  have hFile : p.FileOk file :=
    { desk := by
        have hOk := h.desks d hDesk
        rw [hNone] at hOk
        exact hOk
      touched := hTouched
      pending := hPending
      depot := h.depot }
  rcases List.append_of_mem hDesk with ⟨before, after, hSplit⟩
  have hDistinct := h.distinct
  rw [hSplit] at hDistinct
  have hLeft :
      (Run.closeDesk o r d).desks = before ++ after := by
    change (r.desks.filter fun e => e.position ≠ d.position) = _
    rw [hSplit, desks_without hDistinct]
  have hSub : List.Sublist (before ++ after) r.desks := by
    rw [hSplit]
    exact
      List.Sublist.append (List.Sublist.refl _)
        (List.sublist_cons_self d after)
  have hHanded :
      (Run.closeDesk o r d).depot.handed
        = r.depot.handed ++ file.last o :=
    (file.handed_eq o).1
  have hDepot : p.Holds (Run.closeDesk o r d).depot :=
    holds_close h.depot d
  refine
    { crew := h.crew
      cancel := h.cancel
      jobs := h.jobs
      groups := ?_
      positions := ?_
      desks := ?_
      depot := hDepot
      filed := ?_
      reports := ?_
      roster := ?_
      handed := ?_ }
  · intro j hj
    rcases h.groups j hj with ⟨e, he, hAt⟩
    refine ⟨e, ?_, hAt⟩
    refine List.mem_filter.mpr ⟨he, decide_eq_true ?_⟩
    intro hSame
    have hDuty :
        j.task.duty ∈ Crew.duties r.crew.jobs d.position :=
      List.mem_map_of_mem
        (List.mem_filter.mpr
          ⟨hj, decide_eq_true (hAt.symm.trans hSame)⟩)
    rw [hNone] at hDuty
    exact List.not_mem_nil hDuty
  · rw [hLeft]
    exact
      h.positions.sublist
        (List.Sublist.append (List.Sublist.refl _)
          (hSub.map Desk.position))
  · intro e he
    rw [hLeft] at he
    exact h.desks e (hSub.mem he)
  · intro f hf
    rcases List.mem_append.mp hf with hOld | hNew
    · exact h.filed f hOld
    · rw [List.mem_singleton.mp hNew]
      exact hFile
  · rw [List.map_append, ← h.reports]
    rfl
  · refine List.Perm.trans ?_ h.roster
    rw [hLeft, hSplit]
    change
      (r.queue.map Prod.snd
        ++ (before ++ after).map Desk.instrument
        ++ (files ++ [file]).map _).Perm _
    simp only [List.map_append, List.map_cons, List.map_nil,
      List.append_assoc]
    refine List.Perm.append_left _ ?_
    refine List.Perm.append_left _ ?_
    rw [← List.append_assoc]
    exact List.perm_append_singleton _ _
  · have hOld := h.handed
    rw [hSplit] at hOld
    rw [hLeft, hHanded]
    refine (hOld.append_right _).trans ?_
    simp only [List.flatMap_append, List.flatMap_cons,
      List.flatMap_nil, List.append_nil, List.append_assoc,
      File.results]
    refine List.Perm.append_left _ ?_
    change
      (file.desk.results o.settings
        ++ (after.flatMap _ ++ (files.flatMap _ ++ file.last o))).Perm
        _
    refine List.perm_append_comm.trans ?_
    simp only [List.append_assoc]
    refine List.Perm.append_left _ ?_
    refine List.Perm.append_left _ ?_
    exact List.perm_append_comm

/- A job that is served and does not end keeps its duty. -/
theorem duties_served_on
    (h : p.RunOk instruments r files)
    {j : Job Errand Find}
    (hMem : j ∈ r.crew.jobs)
    {c : Crew (World σ) Errand Find}
    (hServe :
      r.crew.serve (Errand.visit o.venue) j = (c, none))
    (position : Nat) :
    Crew.duties c.jobs position
      = Crew.duties r.crew.jobs position := by
  have hServed := Crew.served (Errand.visit o.venue) r.crew j
  rw [hServe] at hServed
  rcases served_none (h.jobs j hMem) hServed with
    ⟨job, hNumber, hGroup, hTask, hJobs, _, _⟩
  rw [hJobs]
  exact
    Crew.duties_updated h.crew.distinct hMem hNumber hGroup
      (duty_eq_of_served hTask) position

/- A job that ends had a duty at its own desk only. -/
theorem duties_served_end
    (h : p.RunOk instruments r files)
    {j : Job Errand Find}
    (hMem : j ∈ r.crew.jobs)
    {c : Crew (World σ) Errand Find}
    {e : Ending Find}
    (hServe :
      r.crew.serve (Errand.visit o.venue) j = (c, some e))
    {position : Nat}
    (hOther : position ≠ j.group) :
    Crew.duties c.jobs position
      = Crew.duties r.crew.jobs position := by
  have hServed := Crew.served (Errand.visit o.venue) r.crew j
  rw [hServe] at hServed
  rcases served_some h.crew h.cancel hMem (h.jobs j hMem) hServed with
    ⟨hJobs, _, _⟩
  have hRest :=
    Crew.duties_without h.crew.distinct hMem position
  rw [if_neg (Ne.symm hOther), ← hJobs] at hRest
  exact hRest

/- A job that is served and does not end. -/
theorem served_on
    (h : p.RunOk instruments r files)
    {j : Job Errand Find}
    (hMem : j ∈ r.crew.jobs)
    (hWoken : j.number ∈ r.crew.woken)
    {c : Crew (World σ) Errand Find}
    (hServe :
      r.crew.serve (Errand.visit o.venue) j = (c, none)) :
    p.RunOk instruments { r with crew := c } files := by
  have hDuties := h.duties_served_on hMem hServe
  have hServed := Crew.served (Errand.visit o.venue) r.crew j
  have hSound := h.crew.serve (Errand.visit o.venue) hMem hWoken
  rw [hServe] at hServed hSound
  rcases served_none (h.jobs j hMem) hServed with
    ⟨job, hNumber, hGroup, _, hJobs, hCancel, hOk⟩
  refine h.withCrew hSound hCancel ?_ ?_ hDuties
  · intro i hi
    rw [hJobs, Crew.mem_updated hMem hNumber] at hi
    rcases hi with rfl | ⟨hi, _⟩
    · exact hOk
    · exact h.jobs i hi
  · intro i hi
    rw [hJobs, Crew.mem_updated hMem hNumber] at hi
    rcases hi with rfl | ⟨hi, _⟩
    · exact ⟨j, hMem, hGroup.symm⟩
    · exact ⟨i, hi, rfl⟩

/-
  What a job that ends brings to its desk: the number that it
  has looked up, or the haul of its walk.
-/
inductive Brought
    (p : Prospect o cancels)
    (r : Run σ κ)
    (c : Crew (World σ) Errand Find)
    (d : Desk)
    (task : Errand) : Find → Run σ κ → Prop where
  | latest
      (name : String)
      (endMs : Int)
      (found : Except Fault (Option Int))
      (hTask : task = .lookup name endMs)
      (hDuty :
        (Crew.duties r.crew.jobs d.position).Perm
          (.lookup name endMs :: Crew.duties c.jobs d.position))
      (hFound : p.Found name endMs found) :
      Brought p r c d task (.latest found)
        (Run.putDesk { r with crew := c }
          (d.afterLookup o.settings found))
  | haul
      (w : Walk)
      (walked : Except Fault Haul)
      (hTask : task = .walk w)
      (hDuty :
        (Crew.duties r.crew.jobs d.position).Perm
          (.walk w.instrument w.whole
            :: Crew.duties c.jobs d.position))
      (hEnds : p.Ends w.instrument w.whole walked) :
      Brought p r c d task (.haul walked)
        { Run.putDesk { r with crew := c }
            (d.takeHaul o.settings o.sink r.depot w.whole walked).1 with
          depot :=
            (d.takeHaul o.settings o.sink r.depot w.whole walked).2 }

/- A job that ends brings something to the desk of its group. -/
theorem brought
    (h : p.RunOk instruments r files)
    {j : Job Errand Find}
    (hMem : j ∈ r.crew.jobs)
    {c : Crew (World σ) Errand Find}
    {e : Ending Find}
    (hServe :
      r.crew.serve (Errand.visit o.venue) j = (c, some e)) :
    ∃ d ∈ r.desks,
      d.position = j.group
        ∧ Brought p r c d j.task (findOf j e)
          (Run.takeFind o { r with crew := c } j (findOf j e)) := by
  have hServed := Crew.served (Errand.visit o.venue) r.crew j
  rw [hServe] at hServed
  rcases served_some h.crew h.cancel hMem (h.jobs j hMem) hServed with
    ⟨hJobs, _, hFind⟩
  rcases h.groups j hMem with ⟨d, hDesk, hAt⟩
  have hFound :
      Run.deskAt? { r with crew := c } j.group = some d := by
    rw [← hAt]
    exact deskAt?_eq_some hDesk h.distinct
  have hOwn :=
    Crew.duties_without h.crew.distinct hMem d.position
  rw [if_pos hAt.symm, ← hJobs] at hOwn
  refine ⟨d, hDesk, hAt, ?_⟩
  generalize findOf j e = f at hFind
  unfold Run.takeFind
  rw [hFound]
  cases hTask : j.task with
  | lookup name endMs =>
      rw [hTask] at hFind hOwn
      cases f with
      | haul walked => exact hFind.elim
      | latest found =>
          exact Brought.latest name endMs found rfl hOwn hFind
  | walk w =>
      rw [hTask] at hFind hOwn
      cases f with
      | latest found => exact hFind.elim
      | haul walked =>
          exact Brought.haul w walked rfl hOwn hFind

/- A job that ends, and what it brings to its desk. -/
theorem served_end
    (h : p.RunOk instruments r files)
    {j : Job Errand Find}
    (hMem : j ∈ r.crew.jobs)
    (hWoken : j.number ∈ r.crew.woken)
    {c : Crew (World σ) Errand Find}
    {e : Ending Find}
    (hServe :
      r.crew.serve (Errand.visit o.venue) j = (c, some e)) :
    p.RunOk instruments
      (Run.takeFind o { r with crew := c } j (findOf j e))
      files := by
  have hServed := Crew.served (Errand.visit o.venue) r.crew j
  have hSound := h.crew.serve (Errand.visit o.venue) hMem hWoken
  rcases h.brought hMem hServe with ⟨d, hDesk, hAt, hBrought⟩
  rw [hServe] at hServed hSound
  rcases served_some h.crew h.cancel hMem (h.jobs j hMem) hServed with
    ⟨hJobs, hCancel, _⟩
  have hElse :
      ∀ position, position ≠ d.position →
        Crew.duties c.jobs position
          = Crew.duties r.crew.jobs position := by
    intro position hOther
    exact h.duties_served_end hMem hServe (hAt ▸ hOther)
  have hStill : ∀ i ∈ c.jobs, i ∈ r.crew.jobs := by
    intro i hi
    rw [hJobs] at hi
    exact (Crew.mem_without.mp hi).1
  have hOk := h.desks d hDesk
  rcases List.append_of_mem hDesk with ⟨before, after, hSplit⟩
  generalize
    Run.takeFind o { r with crew := c } j (findOf j e) = r'
    at hBrought ⊢
  generalize findOf j e = f at hBrought
  cases hBrought with
  | latest name endMs found _ hDuty hFound =>
      rcases hOk.afterLookup hDuty hFound with ⟨hNew, hOutcomes⟩
      rcases hOk.lookup hDuty with ⟨_, _, hPlanning, _⟩
      have hSame :
          (d.afterLookup o.settings found).position = d.position
            ∧ (d.afterLookup o.settings found).instrument
              = d.instrument := by
        cases found <;> exact ⟨rfl, rfl⟩
      have hResults :
          (d.afterLookup o.settings found).results o.settings
            = d.results o.settings ++ [] := by
        unfold Desk.results
        rw [hOutcomes, hPlanning]
        rfl
      exact
        h.updated hSplit
          (desks_putDesk hSplit h.distinct hSame.1) hSame.1
          hSame.2 rfl rfl hSound hCancel
          (fun i hi => h.jobs i (hStill i hi))
          (fun i hi => Or.inr ⟨i, hStill i hi, rfl⟩) hElse hNew
          h.depot hResults (List.append_nil _).symm
  | haul w walked _ hDuty hEnds =>
      have hTakes := hOk.takeHaul hDuty hEnds h.depot
      have hHanded :=
        Desk.handed_takeHaul o.settings o.sink r.depot d w.whole
          walked
      simp only at hTakes
      rcases hTakes with
        ⟨hNew, hHolds, hPosition, hInstrument, hResults⟩
      exact
        h.updated hSplit
          (desks_putDesk hSplit h.distinct hPosition) hPosition
          hInstrument rfl rfl hSound hCancel
          (fun i hi => h.jobs i (hStill i hi))
          (fun i hi => Or.inr ⟨i, hStill i hi, rfl⟩) hElse hNew
          hHolds hResults hHanded

/- Whatever happens next, a run keeps to its prospect. -/
theorem move
    {r' : Run σ κ}
    (h : p.RunOk instruments r files)
    (hMove : Run.Move o r r') :
    ∃ files', p.RunOk instruments r' files' := by
  cases hMove with
  | opens position i rest hQueue => exact ⟨files, h.opens hQueue⟩
  | waits t hNext => exact ⟨files, h.waits t⟩
  | works d r' hDesk hWork =>
      cases hWork with
      | plans hUntouched => exact ⟨files, h.plans hDesk hUntouched⟩
      | starts w rest hPending =>
          exact ⟨files, h.starts hDesk hPending⟩
      | closes hTouched hPending hJobs =>
          exact ⟨_, h.closes hDesk hTouched hPending hJobs⟩
      | serves j hJob hWoken hGroup =>
          refine ⟨files, ?_⟩
          unfold Run.serve
          rcases hServe :
            r.crew.serve (Errand.visit o.venue) j with ⟨c, ending⟩
          cases ending with
          | none => exact h.served_on hJob hWoken hServe
          | some e => exact h.served_end hJob hWoken hServe

end RunOk

/-
  A run keeps to the prospects of its venue and its sink from
  its start on, whatever the order of its moves.
-/
theorem runOk_of_reaches
    (p : Prospect o cancels)
    (hCeiling : 0 < o.settings.maxInFlight)
    {venue : σ}
    {kept : κ}
    {cancelAt : Option Nat}
    (hCancel : cancelAt ≠ none → cancels)
    (hDepot : p.Holds { kept := kept, handed := [] })
    {instruments : List Instrument}
    {r : Run σ κ}
    (hReached :
      Run.Reaches o (Run.start o venue kept cancelAt instruments)
        r) :
    ∃ files, p.RunOk instruments r files := by
  induction hReached with
  | stays =>
      exact
        ⟨[],
          p.runOk_start hCeiling venue kept cancelAt hCancel hDepot
            instruments⟩
  | turns f _ ih =>
      rcases ih with ⟨files, h⟩
      exact ⟨files, h.withFocus f⟩
  | moves _ hMove ih =>
      rcases ih with ⟨files, h⟩
      exact h.move hMove

end Prospect

end TradeTape
