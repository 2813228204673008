import Mathlib.Algebra.Order.BigOperators.Group.List
import Mathlib.Algebra.Order.Ring.Nat
import TradeTape.Proofs.Crew.Soundness

/-
  Every move of a crew uses up some of what is left to do.

  A job that is served has less left to do than before, one
  that is left alone has no more, and when time moves on to
  the next instant some job is woken for the last time by an
  alarm or by the cancellation.

  Key statements include:
    * `Crew.toils`
    * `Crew.toils_serve`
    * `Crew.toils_advanceTo`
    * `Crew.toils_hire`
-/

namespace TradeTape

namespace Crew

variable {σ τ ω : Type} {calls : τ → Nat}

/- A bound on the moves that are left for all jobs. -/
def toils
    (calls : τ → Nat)
    (c : Crew σ τ ω) : Nat :=
  (c.jobs.map (c.toil calls)).sum

------------------------------------------------------------
-- Sums over jobs
------------------------------------------------------------

section Sums

variable {f g : Job τ ω → Nat} {jobs : List (Job τ ω)}

/- One job is worth less in its new form. -/
theorem sum_updated_lt
    (hDistinct : (jobs.map Job.number).Nodup)
    {j job : Job τ ω}
    (hj : j ∈ jobs)
    (hNumber : job.number = j.number)
    (hOthers :
      ∀ i ∈ jobs, i.number ≠ j.number → g i ≤ f i)
    (hOwn : g job < f j) :
    ((updated jobs job).map g).sum < (jobs.map f).sum := by
  unfold updated
  rw [List.map_map]
  refine List.sum_lt_sum _ _ ?_ ⟨j, hj, ?_⟩
  · intro i hi
    by_cases hSame : i.number = j.number
    · have hEq := eq_of_number_eq hDistinct hi hj hSame
      simp only [Function.comp_apply, hNumber, if_true, hEq]
      omega
    · rw [← hNumber] at hSame
      simp only [Function.comp_apply, hSame, if_false]
      exact hOthers i hi (hNumber ▸ hSame)
  · simp only [Function.comp_apply, hNumber, if_true]
    exact hOwn

/- One job is gone. -/
theorem sum_without_lt
    {j : Job τ ω}
    (hj : j ∈ jobs)
    (hOthers :
      ∀ i ∈ jobs, i.number ≠ j.number → g i ≤ f i)
    (hOwn : 0 < f j) :
    ((without jobs j.number).map g).sum < (jobs.map f).sum := by
  let kept (i : Job τ ω) : Nat :=
    if i.number = j.number then 0 else g i
  have hSum :
      ((without jobs j.number).map g).sum
        = (jobs.map kept).sum := by
    clear hj hOthers
    induction jobs with
    | nil => rfl
    | cons i rest ih =>
        by_cases hSame : i.number = j.number
        · simp only [without, ne_eq, hSame, not_true_eq_false,
            decide_false, List.filter_cons, List.map_cons,
            List.sum_cons, kept, if_true, Bool.false_eq_true,
            if_false] at ih ⊢
          rw [Nat.zero_add]
          exact ih
        · simp only [without, ne_eq, hSame, not_false_eq_true,
            decide_true, List.filter_cons, List.map_cons,
            List.sum_cons, kept, if_true, if_false] at ih ⊢
          rw [ih]
  rw [hSum]
  refine List.sum_lt_sum _ _ ?_ ⟨j, hj, ?_⟩
  · intro i hi
    by_cases hSame : i.number = j.number
    · simp only [kept, hSame, if_true]
      exact Nat.zero_le _
    · simp only [kept, hSame, if_false]
      exact hOthers i hi hSame
  · simp only [kept, if_true]
    exact hOwn

end Sums

------------------------------------------------------------
-- Other jobs
------------------------------------------------------------

/- A job that is left alone has no more to do than before. -/
theorem Undisturbed.toil_le
    {c c' : Crew σ τ ω}
    {j : Job τ ω}
    (h : Undisturbed c c' j.number)
    (hNow : c'.now = c.now)
    (hCancelAt : c'.cancelAt = c.cancelAt) :
    c'.toil calls j ≤ c.toil calls j := by
  have hAlarms :
      (c'.alarms.countP fun a => a.job = j.number) =
        c.alarms.countP fun a => a.job = j.number := by
    rw [List.countP_eq_length_filter, h.alarms,
      List.countP_eq_length_filter]
  have hCanceled : c'.Canceled ↔ c.Canceled := by
    unfold Canceled
    rw [hNow, hCancelAt]
  unfold toil
  rw [hAlarms, hCancelAt]
  simp only [hCanceled]
  rcases h.standing with ⟨hSame, hWoken⟩ | ⟨hWas, hIs, _⟩
  · rw [hSame]
    simp only [hWoken]
    exact Nat.le_refl _
  · -- Waiting is over, at the price of being woken.
    rw [hWas, hIs]
    have hMost : (if j.number ∈ c'.woken then 1 else 0) ≤ 1 := by
      split <;> omega
    simp only [if_true, reduceCtorEq, Option.some.injEq, if_false]
    omega

------------------------------------------------------------
-- The job that is served
------------------------------------------------------------

/- The alarms that are set for a job. -/
def alarmsOf
    (c : Crew σ τ ω)
    (n : Nat) : Nat :=
  c.alarms.countP fun a => a.job = n

theorem countP_setAlarm
    (alarms : List Alarm)
    (t n : Nat) :
    ((alarms ++ [Alarm.mk t n]).countP fun a => a.job = n) =
      (alarms.countP fun a => a.job = n) + 1 := by
  simp

/- What counts for a job that is awake and does not wait. -/
theorem toil_eq_of_awake
    {c : Crew σ τ ω}
    {j : Job τ ω}
    (hWoken : j.number ∈ c.woken)
    (hPhase : c.gate.phase? j.number ≠ some .waiting) :
    c.toil calls j =
      stageToil calls j.task j.stage + 1 + 2 * c.alarmsOf j.number
        + (if j.deadline = none ∧ j.patience ≠ none then 3 else 0)
        + (if c.cancelAt ≠ none ∧ ¬c.Canceled then 2 else 0) := by
  unfold toil alarmsOf
  rw [if_pos hWoken, if_neg hPhase, Nat.add_zero]

section Own

variable {c : Crew σ τ ω} {j : Job τ ω}

theorem toil_rest
    (h : c.Sound)
    (hj : j ∈ c.jobs)
    (hWoken : j.number ∈ c.woken)
    {ms : Nat}
    (hStage : j.stage = .resting ms) :
    (c.rest j ms).toil calls { j with stage := .ready }
      < c.toil calls j := by
  have hPhase := (h.jobs j hj).stage
  unfold StageOk at hPhase
  rw [hStage] at hPhase
  have hNotWaiting : c.gate.phase? j.number ≠ some .waiting := by
    rw [hPhase]
    simp
  rw [toil_eq_of_awake hWoken hNotWaiting, hStage]
  have hAlarms :=
    countP_setAlarm c.alarms (c.now + c.timer.waitMs ms) j.number
  have hAsleep : j.number ∉ (c.rest j ms).woken := by
    simp [rest, doze]
  unfold toil
  rw [if_neg hAsleep]
  change
    7 * calls j.task + 0
        + (if c.gate.phase? j.number = some .waiting then 2 else 0)
        + 2 * ((c.alarms ++ [Alarm.mk _ _]).countP fun a =>
            a.job = j.number)
        + (if j.deadline = none ∧ j.patience ≠ none then 3 else 0)
        + (if c.cancelAt ≠ none ∧ ¬c.Canceled then 2 else 0)
      < _
  rw [if_neg hNotWaiting, hAlarms]
  simp only [alarmsOf, stageToil]
  omega

theorem toil_queue
    (h : c.Sound)
    (hj : j ∈ c.jobs)
    (hWoken : j.number ∈ c.woken)
    (hCalls : 0 < calls j.task)
    (hStage : j.stage = .ready) :
    (c.queue j).toil calls { j with stage := .queued }
      < c.toil calls j := by
  have hPhase := (h.jobs j hj).stage
  unfold StageOk at hPhase
  rw [hStage] at hPhase
  have hNotWaiting : c.gate.phase? j.number ≠ some .waiting := by
    rw [hPhase]
    simp
  rw [toil_eq_of_awake hWoken hNotWaiting, hStage]
  unfold toil
  change
    7 * calls j.task - 3
        + (if j.number ∈ c.woken then 1 else 0)
        + (if (c.gate.ask j.number).phase? j.number = some .waiting
            then 2 else 0)
        + 2 * c.alarmsOf j.number
        + (if j.deadline = none ∧ j.patience ≠ none then 3 else 0)
        + (if c.cancelAt ≠ none ∧ ¬c.Canceled then 2 else 0)
      < _
  rw [if_pos hWoken]
  have hMost :
      (if (c.gate.ask j.number).phase? j.number = some .waiting
        then 2 else 0) ≤ 2 := by
    split <;> omega
  simp only [stageToil]
  omega

/- A call leads to fewer calls than were left before it. -/
def VisitsOk
    (calls : τ → Nat)
    (visit : Nat → σ → τ → Visit τ ω × σ)
    (c : Crew σ τ ω)
    (j : Job τ ω) : Prop :=
  ∀ task,
    (visit c.now c.world j.task).1.next = .inl task →
      calls task < calls j.task

theorem toil_begin
    {visit : Nat → σ → τ → Visit τ ω × σ}
    (h : c.Sound)
    (hWoken : j.number ∈ c.woken)
    (hCalls : 0 < calls j.task)
    (hVisit : VisitsOk calls visit c j)
    (hStage : j.stage = .queued)
    (hGranted : c.gate.phase? j.number = some .granted) :
    (begin visit c j).toil calls (c.inCall visit j)
      < c.toil calls j := by
  have hInside := (h.gate.enter hGranted).2.1
  have hNotWaiting : c.gate.phase? j.number ≠ some .waiting := by
    rw [hGranted]
    simp
  have hNotWaiting' :
      (c.gate.enter j.number).phase? j.number ≠ some .waiting := by
    rw [hInside]
    simp
  rw [toil_eq_of_awake hWoken hNotWaiting, hStage, begin_eq]
  have hAlarms :
      ((c.alarms ++ c.callAlarms visit j).countP fun a =>
          a.job = j.number) ≤ c.alarmsOf j.number + 1 := by
    unfold callAlarms
    simp only
    split
    · rw [List.append_nil]
      exact Nat.le_succ _
    · exact Nat.le_of_eq (countP_setAlarm _ _ _)
  have hNext :
      stageToil calls j.task (c.inCall visit j).stage + 3
        ≤ 7 * calls j.task - 3 := by
    unfold inCall
    simp only
    cases hEnd : (visit c.now c.world j.task).1.next with
    | inl task =>
        have := hVisit task hEnd
        simp only [stageToil]
        omega
    | inr w =>
        simp only [stageToil]
        omega
  unfold toil
  change
    stageToil calls j.task (c.inCall visit j).stage
        + (if j.number ∈ c.woken then 1 else 0)
        + (if (c.gate.enter j.number).phase? j.number
            = some .waiting then 2 else 0)
        + 2 * ((c.alarms ++ c.callAlarms visit j).countP fun a =>
            a.job = j.number)
        + (if j.deadline = none ∧ j.patience ≠ none then 3 else 0)
        + (if c.cancelAt ≠ none ∧ ¬c.Canceled then 2 else 0)
      < _
  rw [if_pos hWoken, if_neg hNotWaiting']
  have hQueued :
      stageToil calls j.task (Stage.queued : Stage τ ω)
        = 7 * calls j.task - 3 := rfl
  omega

/- Setting a deadline pays for the alarm that goes with it. -/
theorem limitAlarms_length_le
    (c : Crew σ τ ω)
    (j : Job τ ω) :
    2 * (c.limitAlarms j).length
        + (if c.limit j = none ∧ j.patience ≠ none then 3 else 0)
      ≤ if j.deadline = none ∧ j.patience ≠ none then 3 else 0 := by
  unfold limitAlarms limit
  cases j.deadline with
  | some t => simp
  | none => cases j.patience <;> simp

theorem toil_sleep
    (hWoken : j.number ∈ c.woken) :
    (c.sleep j).toil calls { j with deadline := c.limit j }
      < c.toil calls j := by
  have hAsleep :
      j.number ∉ c.woken.filter fun n => n ≠ j.number := by
    simp
  have hPaid := limitAlarms_length_le c j
  have hMore :
      ((c.alarms ++ c.limitAlarms j).countP fun a =>
          a.job = j.number)
        ≤ c.alarmsOf j.number + (c.limitAlarms j).length := by
    rw [List.countP_append]
    exact Nat.add_le_add_left List.countP_le_length _
  rw [sleep_eq]
  unfold toil
  change
    stageToil calls j.task j.stage
        + (if j.number ∈ c.woken.filter (fun n => n ≠ j.number)
            then 1 else 0)
        + (if c.gate.phase? j.number = some .waiting then 2 else 0)
        + 2 * ((c.alarms ++ c.limitAlarms j).countP fun a =>
            a.job = j.number)
        + (if c.limit j = none ∧ j.patience ≠ none then 3 else 0)
        + (if c.cancelAt ≠ none ∧ ¬c.Canceled then 2 else 0)
      < _
  rw [if_neg hAsleep, if_pos hWoken]
  unfold alarmsOf at hMore
  omega

theorem toil_again
    (h : c.Sound)
    (hWoken : j.number ∈ c.woken)
    {task : τ}
    {due : Nat}
    (hStage : j.stage = .calling (.inl task) due) :
    (c.again j task).toil calls
        { j with task := task, stage := .ready }
      < c.toil calls j := by
  let job : Job τ ω := { j with task := task, stage := .ready }
  have hGone := (h.gate.leave j.number).2.1
  have hAwake : job.number ∈ (c.again j task).woken :=
    (mem_woken_setGate c).mpr (Or.inl hWoken)
  have hGate : (c.again j task).gate = c.gate.leave j.number :=
    gate_setGate c _
  have hPhase :
      (c.again j task).gate.phase? job.number ≠ some .waiting := by
    rw [hGate, show job.number = j.number from rfl, hGone]
    simp
  rw [toil_eq_of_awake hAwake hPhase]
  have hAlarms :
      (c.again j task).alarmsOf job.number = c.alarmsOf j.number :=
    congrArg (List.countP _) (alarms_setGate c _)
  have hCanceled : (c.again j task).Canceled ↔ c.Canceled := by
    unfold Canceled
    exact iff_of_eq
      (congrArg₂ Reached (now_setGate c _) (cancelAt_setGate c _))
  have hCancelAt : (c.again j task).cancelAt = c.cancelAt :=
    cancelAt_setGate c _
  simp only [hAlarms, hCanceled, hCancelAt]
  unfold toil
  rw [if_pos hWoken, hStage]
  simp only [job, stageToil, alarmsOf]
  omega

end Own

------------------------------------------------------------
-- All jobs
------------------------------------------------------------

section All

variable {c : Crew σ τ ω} {j : Job τ ω}

theorem toil_pos
    (hWoken : j.number ∈ c.woken) :
    0 < c.toil calls j := by
  unfold toil
  rw [if_pos hWoken]
  omega

theorem toils_dismiss
    (h : c.Sound)
    (hj : j ∈ c.jobs)
    (hWoken : j.number ∈ c.woken) :
    (c.dismiss j.number).toils calls < c.toils calls := by
  unfold toils
  rw [jobs_dismiss]
  refine sum_without_lt hj ?_ (toil_pos hWoken)
  intro i _ hOther
  exact
    (undisturbed_dismiss h hOther).toil_le (now_dismiss c _)
      (cancelAt_dismiss c _)

theorem toils_updated
    {c' : Crew σ τ ω}
    {job : Job τ ω}
    (h : c.Sound)
    (hj : j ∈ c.jobs)
    (hNumber : job.number = j.number)
    (hNow : c'.now = c.now)
    (hCancelAt : c'.cancelAt = c.cancelAt)
    (hJobs : c'.jobs = updated c.jobs job)
    (hOthers : ∀ n, n ≠ j.number → Undisturbed c c' n)
    (hOwn : c'.toil calls job < c.toil calls j) :
    c'.toils calls < c.toils calls := by
  unfold toils
  rw [hJobs]
  refine sum_updated_lt h.distinct hj hNumber ?_ hOwn
  intro i _ hOther
  exact (hOthers i.number hOther).toil_le hNow hCancelAt

/- Serving a job that is awake leaves less to do. -/
theorem toils_serve
    {visit : Nat → σ → τ → Visit τ ω × σ}
    (h : c.Sound)
    (hj : j ∈ c.jobs)
    (hWoken : j.number ∈ c.woken)
    (hCalls : 0 < calls j.task)
    (hVisit : VisitsOk calls visit c j) :
    (c.serve visit j).1.toils calls < c.toils calls := by
  have hServed := served visit c j
  generalize c.serve visit j = out at hServed
  cases hServed with
  | canceled _ => exact toils_dismiss h hj hWoken
  | refused _ _ => exact toils_dismiss h hj hWoken
  | overdue _ _ => exact toils_dismiss h hj hWoken
  | done _ _ _ _ => exact toils_dismiss h hj hWoken
  | rests ms hStage =>
      let job : Job τ ω := { j with stage := .ready }
      exact
        toils_updated h hj (rfl : job.number = j.number) rfl rfl
          rfl (fun _ hOther => undisturbed_rest ms hOther)
          (toil_rest h hj hWoken hStage)
  | asks hStage =>
      have hNew := (h.jobs j hj).stage
      unfold StageOk at hNew
      rw [hStage] at hNew
      let job : Job τ ω := { j with stage := .queued }
      exact
        toils_updated h hj (rfl : job.number = j.number) rfl rfl
          rfl (fun _ hOther => undisturbed_queue h hNew hOther)
          (toil_queue h hj hWoken hCalls hStage)
  | begins hStage hGranted =>
      have hOwn :=
        toil_begin h hWoken hCalls hVisit hStage hGranted
      have hOthers (n : Nat) (hOther : n ≠ j.number) :
          Undisturbed c (begin visit c j) n :=
        undisturbed_begin h hGranted hOther
      rw [begin_eq] at hOwn hOthers ⊢
      exact
        toils_updated h hj
          (rfl : (c.inCall visit j).number = j.number) rfl rfl rfl
          hOthers hOwn
  | sleeps _ _ =>
      have hOwn := @toil_sleep σ τ ω calls c j hWoken
      have hOthers (n : Nat) (hOther : n ≠ j.number) :
          Undisturbed c (c.sleep j) n :=
        undisturbed_sleep hOther
      let job : Job τ ω := { j with deadline := c.limit j }
      rw [sleep_eq] at hOwn hOthers ⊢
      exact
        toils_updated h hj (rfl : job.number = j.number) rfl rfl
          rfl hOthers hOwn
  | again task due hStage _ =>
      let job : Job τ ω := { j with task := task, stage := .ready }
      exact
        toils_updated h hj (rfl : job.number = j.number)
          (now_setGate c _)
          (cancelAt_setGate c _)
          (congrArg (updated · _) (jobs_setGate c _))
          (fun _ hOther => undisturbed_again h task hOther)
          (toil_again h hWoken hStage)

/- A new job brings what it has to do. -/
theorem toils_hire
    (h : c.Sound)
    (group : Nat)
    (task : τ)
    (patience : Option Nat) :
    (c.hire group task patience 0).toils calls
      ≤ c.toils calls + 7 * calls task + 6 := by
  let new := c.recruit group task patience 0
  let c' := c.hire group task patience 0
  have hOld :
      (c.jobs.map (c'.toil calls)).sum
        ≤ (c.jobs.map (c.toil calls)).sum := by
    apply List.sum_le_sum
    intro i hi
    have hOther : i.number ≠ c.hired :=
      Nat.ne_of_lt (h.jobs i hi).hired
    exact
      (undisturbed_hire c group task patience 0 hOther).toil_le rfl
        rfl
  have hPhase : c.gate.phase? c.hired = none := by
    by_contra hSome
    rcases h.requests c.hired hSome with ⟨i, hi, hNumber⟩
    have := (h.jobs i hi).hired
    omega
  have hSilent : c.alarmsOf c.hired = 0 := by
    refine List.countP_eq_zero.mpr ?_
    intro a ha hOwn
    rcases h.alarms a ha with ⟨i, hi, hNumber⟩
    have hHired := (h.jobs i hi).hired
    rw [hNumber, of_decide_eq_true hOwn] at hHired
    omega
  have hNew : c'.toil calls new ≤ 7 * calls task + 6 := by
    have hAwake : new.number ∈ c'.woken :=
      List.mem_append_right _ List.mem_cons_self
    have hNotWaiting :
        c'.gate.phase? new.number ≠ some .waiting := by
      rw [show c'.gate.phase? new.number = none from hPhase]
      simp
    have hAlarms : c'.alarmsOf new.number = 0 := hSilent
    rw [toil_eq_of_awake hAwake hNotWaiting, hAlarms]
    have hStage :
        stageToil calls new.task new.stage = 7 * calls task := rfl
    split <;> split <;> omega
  have hSum :
      c'.toils calls =
        (c.jobs.map (c'.toil calls)).sum + c'.toil calls new := by
    change ((c.jobs ++ [new]).map (c'.toil calls)).sum = _
    rw [List.map_append, List.sum_append, List.map_singleton,
      List.sum_singleton]
  change c'.toils calls ≤ c.toils calls + 7 * calls task + 6
  rw [hSum]
  unfold toils
  omega

end All

------------------------------------------------------------
-- Time
------------------------------------------------------------

section Time

variable {c : Crew σ τ ω} {t : Nat}

/- Time only moves on to an alarm or to the cancellation. -/
theorem nextInstant?_eq_some
    (hNext : c.nextInstant? = some t) :
    c.jobs ≠ []
      ∧ ((∃ a ∈ c.alarms, a.instant = t)
          ∨ (¬c.Canceled ∧ c.cancelAt = some t)) := by
  unfold nextInstant? at hNext
  split at hNext
  · cases hNext
  · rename_i hJobs
    refine ⟨fun hNil => hJobs (List.isEmpty_iff.mpr hNil), ?_⟩
    have hFold (alarms : List Alarm) (first : Option Nat)
        (hFirst :
          alarms.foldl (fun t a => earlier t (some a.instant)) first
            = some t) :
        (∃ a ∈ alarms, a.instant = t) ∨ first = some t := by
      induction alarms generalizing first with
      | nil => exact Or.inr hFirst
      | cons a rest ih =>
          rcases ih _ hFirst with ⟨b, hb, hInstant⟩ | hHead
          · exact Or.inl ⟨b, List.mem_cons_of_mem _ hb, hInstant⟩
          · cases first with
            | none =>
                exact
                  Or.inl
                    ⟨a, List.mem_cons_self, Option.some.inj hHead⟩
            | some s =>
                have hMin : min s a.instant = t :=
                  Option.some.inj hHead
                by_cases hLe : s ≤ a.instant
                · rw [Nat.min_eq_left hLe] at hMin
                  exact Or.inr (congrArg some hMin)
                · rw [Nat.min_eq_right (by omega)] at hMin
                  exact Or.inl ⟨a, List.mem_cons_self, hMin⟩
    rcases hFold _ _ hNext with hAlarm | hCancel
    · exact Or.inl hAlarm
    · split at hCancel
      · cases hCancel
      · exact Or.inr ⟨‹_›, hCancel⟩

/- The cancellation is paid for when it comes. -/
theorem flag_advanceTo
    (c : Crew σ τ ω)
    (t : Nat) :
    (if (c.advanceTo t).cancelAt ≠ none
          ∧ ¬(c.advanceTo t).Canceled then 2 else 0)
        + (if ¬c.Canceled ∧ (c.advanceTo t).Canceled then 2
            else 0)
      ≤ if c.cancelAt ≠ none ∧ ¬c.Canceled then 2 else 0 := by
  rcases advanceTo_eq c t with ⟨_, hEq, _, _, _⟩
  have hSame : (c.advanceTo t).cancelAt = c.cancelAt := by
    rw [hEq]
  have hNow : c.now ≤ (c.advanceTo t).now := by
    rw [hEq]
    exact Nat.le_max_left c.now t
  have hBefore : c.Canceled ↔ Reached c.now c.cancelAt :=
    Iff.rfl
  have hAfter :
      (c.advanceTo t).Canceled ↔
        Reached (c.advanceTo t).now c.cancelAt := by
    unfold Canceled
    rw [hSame]
  simp only [hSame, hBefore, hAfter]
  cases c.cancelAt with
  | none => simp [Reached]
  | some s =>
      simp only [Reached, ne_eq, reduceCtorEq,
        not_false_eq_true, true_and]
      by_cases hBefore : s ≤ c.now
      · have hAfter : s ≤ (c.advanceTo t).now := by omega
        simp [hBefore, hAfter]
      · by_cases hAfter : s ≤ (c.advanceTo t).now <;>
          simp [hBefore, hAfter]

theorem ringing_iff_pos
    {n : Nat} :
    (∃ a ∈ c.ringing t, a.job = n) ↔
      0 < (c.ringing t).countP fun a => a.job = n := by
  simp [List.countP_pos_iff]

/- Nobody is woken but by an alarm or the cancellation. -/
theorem awake_advanceTo
    (n : Nat) :
    (if n ∈ (c.advanceTo t).woken then 1 else 0)
      ≤ (if n ∈ c.woken then 1 else 0)
        + (if ¬c.Canceled ∧ (c.advanceTo t).Canceled then 1
            else (c.ringing t).countP fun a => a.job = n) := by
  rcases advanceTo_eq c t with
    ⟨woken, hEq, hStays, _, hCause⟩
  have hWoken : (c.advanceTo t).woken = woken := by
    rw [hEq]
  rw [hWoken]
  by_cases hOld : n ∈ c.woken
  · rw [if_pos hOld, if_pos (hStays _ hOld)]
    exact Nat.le_add_right _ _
  by_cases hNew : n ∈ woken
  · by_cases hCancel : ¬c.Canceled ∧ (c.advanceTo t).Canceled
    · rw [if_pos hNew, if_pos hCancel]
      exact Nat.le_add_left _ _
    · have hRang :
          0 < (c.ringing t).countP fun a => a.job = n := by
        rw [← ringing_iff_pos]
        by_contra hSilent
        refine hCancel (hCause ⟨n, hNew, hOld, ?_⟩)
        intro a ha hOwn
        exact hSilent ⟨a, ha, hOwn⟩
      rw [if_pos hNew, if_neg hCancel]
      omega
  · rw [if_neg hNew]
    exact Nat.zero_le _

/- An alarm that rings, or the cancellation, wakes for good. -/
theorem toil_advanceTo
    (j : Job τ ω) :
    (c.advanceTo t).toil calls j ≤ c.toil calls j
      ∧ ((∃ a ∈ c.ringing t, a.job = j.number)
            ∨ (¬c.Canceled ∧ (c.advanceTo t).Canceled) →
          (c.advanceTo t).toil calls j < c.toil calls j) := by
  have hSplit :
      c.alarmsOf j.number =
        ((c.ringing t).countP fun a => a.job = j.number)
          + (c.advanceTo t).alarmsOf j.number := by
    rcases advanceTo_eq c t with ⟨_, hEq, _, _, _⟩
    rw [hEq]
    unfold alarmsOf ringing
    simp only [decide_not]
    exact List.countP_eq_countP_filter_add _ _ _
  have hGate : (c.advanceTo t).gate = c.gate := by
    rcases advanceTo_eq c t with ⟨_, hEq, _, _, _⟩
    rw [hEq]
  have hFlag := flag_advanceTo c t
  have hAwake := @awake_advanceTo _ _ _ c t j.number
  rw [ringing_iff_pos]
  unfold toil
  rw [hGate]
  unfold alarmsOf at hSplit
  by_cases hCancel : ¬c.Canceled ∧ (c.advanceTo t).Canceled
  · rw [if_pos hCancel] at hAwake hFlag
    exact ⟨by omega, fun _ => by omega⟩
  · rw [if_neg hCancel] at hAwake hFlag
    refine ⟨by omega, ?_⟩
    intro hCause
    have hRang := hCause.resolve_right hCancel
    omega

/- Moving on in time leaves less to do. -/
theorem toils_advanceTo
    (h : c.Sound)
    (hNext : c.nextInstant? = some t) :
    (c.advanceTo t).toils calls < c.toils calls := by
  rcases advanceTo_eq c t with ⟨woken, hEq, _, _, _⟩
  rcases nextInstant?_eq_some hNext with ⟨hJobs, hCause⟩
  have hSame : (c.advanceTo t).jobs = c.jobs := by
    rw [hEq]
  unfold toils
  rw [hSame]
  refine
    List.sum_lt_sum _ _ (fun j _ => (toil_advanceTo j).1) ?_
  rcases hCause with ⟨a, ha, hInstant⟩ | ⟨hBefore, hCancelAt⟩
  · rcases h.alarms a ha with ⟨j, hj, hOwn⟩
    refine ⟨j, hj, (toil_advanceTo j).2 (Or.inl ⟨a, ?_, hOwn.symm⟩)⟩
    exact List.mem_filter.mpr ⟨ha, decide_eq_true (by omega)⟩
  · rcases List.exists_mem_of_ne_nil _ hJobs with ⟨j, hj⟩
    refine ⟨j, hj, (toil_advanceTo j).2 (Or.inr ⟨hBefore, ?_⟩)⟩
    rw [hEq]
    change Reached (max c.now t) c.cancelAt
    rw [hCancelAt]
    exact Nat.le_max_right c.now t

end Time

end Crew

end TradeTape
