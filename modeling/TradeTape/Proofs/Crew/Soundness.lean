import TradeTape.Proofs.Crew.Service
import TradeTape.Proofs.Gate.Passages

/-
  What holds of a crew in every state.

  The stage of a job agrees with its place at the gate, and
  a job that sleeps will be woken: it waits for a permit, or
  it has an alarm.  Serving a job leaves the others where they
  are, but for one that a permit is granted to, and that one
  is woken.

  Key statements include:
    * `Crew.Sound`
    * `Crew.Undisturbed`
    * `Crew.Sound.hire`
    * `Crew.Sound.serve`
    * `Crew.Sound.advanceTo`
    * `Crew.Sound.jobs_eq_nil`
-/

namespace TradeTape

namespace Crew

variable {σ τ ω : Type}

------------------------------------------------------------
-- Soundness
------------------------------------------------------------

/- A stage that agrees with the gate and the alarms. -/
def StageOk
    (c : Crew σ τ ω)
    (j : Job τ ω) : Prop :=
  match j.stage with
  | .resting _ | .ready => c.gate.phase? j.number = none
  | .queued =>
      c.gate.phase? j.number = some .waiting
        ∨ c.gate.phase? j.number = some .granted
  | .calling _ due =>
      c.gate.phase? j.number = some .inside
        ∧ (c.now < due →
            { instant := due, job := j.number } ∈ c.alarms)

/- A job that is awake, or has something to wake it. -/
def Rousable
    (c : Crew σ τ ω)
    (j : Job τ ω) : Prop :=
  j.number ∈ c.woken
    ∨ c.gate.phase? j.number = some .waiting
    ∨ ∃ a ∈ c.alarms, a.job = j.number

structure JobOk
    (c : Crew σ τ ω)
    (j : Job τ ω) : Prop where
  hired : j.number < c.hired
  deadline : j.deadline ≠ none → j.patience ≠ none
  stage : c.StageOk j
  rousable : c.Rousable j

/-
  A crew whose jobs, gate and alarms agree.  All that is at
  the gate, and all that has an alarm, is a job in work.
-/
structure Sound (c : Crew σ τ ω) : Prop where
  gate : c.gate.Steady
  ceiling : 0 < c.gate.ceiling
  distinct : (c.jobs.map Job.number).Nodup
  jobs : ∀ j ∈ c.jobs, c.JobOk j
  requests :
    ∀ n, c.gate.phase? n ≠ none → ∃ j ∈ c.jobs, j.number = n
  alarms : ∀ a ∈ c.alarms, ∃ j ∈ c.jobs, j.number = a.job

theorem sound_make
    {ceiling : Nat}
    (hCeiling : 0 < ceiling)
    (timer : Timer)
    (cancelAt : Option Nat)
    (world : σ) :
    (make timer ceiling cancelAt world : Crew σ τ ω).Sound :=
  { gate := Gate.steady_make ceiling
    ceiling := hCeiling
    distinct := List.nodup_nil
    jobs := by simp [make]
    requests := by simp [make, Gate.make, Gate.phase?]
    alarms := by simp [make] }

------------------------------------------------------------
-- Other jobs
------------------------------------------------------------

/-
  A job that is left alone, or woken by a permit: its alarms
  are the same, and it is where it was if not.
-/
structure Undisturbed
    (c c' : Crew σ τ ω)
    (n : Nat) : Prop where
  alarms :
    (c'.alarms.filter fun a => a.job = n) =
      c.alarms.filter fun a => a.job = n
  standing :
    (c'.gate.phase? n = c.gate.phase? n
        ∧ (n ∈ c'.woken ↔ n ∈ c.woken))
      ∨ (c.gate.phase? n = some .waiting
          ∧ c'.gate.phase? n = some .granted
          ∧ ∀ j ∈ c.jobs, j.number = n → n ∈ c'.woken)

namespace Undisturbed

variable {c c' : Crew σ τ ω}

theorem mem_alarms_iff
    {n : Nat}
    (h : Undisturbed c c' n)
    {a : Alarm}
    (ha : a.job = n) :
    a ∈ c'.alarms ↔ a ∈ c.alarms := by
  have hMem (alarms : List Alarm) :
      a ∈ alarms ↔ a ∈ alarms.filter fun a => a.job = n := by
    simp [ha]
  rw [hMem c'.alarms, hMem c.alarms, h.alarms]

theorem phase?_ne_none
    {n : Nat}
    (h : Undisturbed c c' n)
    (hPhase : c'.gate.phase? n ≠ none) :
    c.gate.phase? n ≠ none := by
  rcases h.standing with ⟨hSame, _⟩ | ⟨hWaiting, _⟩
  · rwa [← hSame]
  · rw [hWaiting]
    exact Option.some_ne_none _

theorem jobOk
    {j : Job τ ω}
    (h : Undisturbed c c' j.number)
    (hNow : c'.now = c.now)
    (hHired : c.hired ≤ c'.hired)
    (hMem : j ∈ c.jobs)
    (hJob : c.JobOk j) :
    c'.JobOk j := by
  refine
    { hired := Nat.lt_of_lt_of_le hJob.hired hHired
      deadline := hJob.deadline
      stage := ?_
      rousable := ?_ }
  · have hStage := hJob.stage
    unfold StageOk at hStage ⊢
    rcases h.standing with ⟨hSame, _⟩ | ⟨hWas, hIs, _⟩
    · cases hCase : j.stage with
      | resting _ | ready | queued =>
          rw [hCase] at hStage
          simp only [hSame]
          exact hStage
      | calling next due =>
          rw [hCase] at hStage
          simp only [hSame, hNow]
          refine ⟨hStage.1, fun hDue => ?_⟩
          exact (h.mem_alarms_iff rfl).mpr (hStage.2 hDue)
    · -- Only a job in the queue can have been waiting.
      cases hCase : j.stage with
      | resting _ | ready =>
          rw [hCase] at hStage
          simp [hWas] at hStage
      | calling next due =>
          rw [hCase] at hStage
          simp [hWas] at hStage
      | queued => exact Or.inr hIs
  · rcases h.standing with ⟨hSame, hWoken⟩ | ⟨_, _, hWoken⟩
    · rcases hJob.rousable with hAwake | hWaiting | ⟨a, ha, hOwn⟩
      · exact Or.inl (hWoken.mpr hAwake)
      · exact Or.inr (Or.inl (hSame.trans hWaiting))
      · exact
          Or.inr
            (Or.inr ⟨a, (h.mem_alarms_iff hOwn).mpr ha, hOwn⟩)
    · exact Or.inl (hWoken j hMem rfl)

end Undisturbed

------------------------------------------------------------
-- Lists of jobs
------------------------------------------------------------

theorem eq_of_number_eq
    {jobs : List (Job τ ω)}
    (hDistinct : (jobs.map Job.number).Nodup)
    {i j : Job τ ω}
    (hi : i ∈ jobs)
    (hj : j ∈ jobs)
    (hNumber : i.number = j.number) :
    i = j :=
  List.inj_on_of_nodup_map hDistinct hi hj hNumber

@[simp] theorem mem_without
    {jobs : List (Job τ ω)}
    {n : Nat}
    {j : Job τ ω} :
    j ∈ without jobs n ↔ j ∈ jobs ∧ j.number ≠ n := by
  simp [without]

theorem numbers_updated
    (jobs : List (Job τ ω))
    (job : Job τ ω) :
    (updated jobs job).map Job.number = jobs.map Job.number := by
  unfold updated
  rw [List.map_map]
  apply List.map_congr_left
  intro j _
  by_cases hNumber : j.number = job.number <;> simp [hNumber]

theorem mem_updated
    {jobs : List (Job τ ω)}
    {i j job : Job τ ω}
    (hj : j ∈ jobs)
    (hNumber : job.number = j.number) :
    i ∈ updated jobs job ↔
      i = job ∨ (i ∈ jobs ∧ i.number ≠ j.number) := by
  unfold updated
  rw [List.mem_map]
  constructor
  · rintro ⟨k, hk, hi⟩
    by_cases hSame : k.number = job.number
    · rw [if_pos hSame] at hi
      exact Or.inl hi.symm
    · rw [if_neg hSame] at hi
      rw [hNumber] at hSame
      exact Or.inr (hi ▸ ⟨hk, hSame⟩)
  · rintro (rfl | ⟨hi, hOther⟩)
    · exact ⟨j, hj, if_pos hNumber.symm⟩
    · rw [← hNumber] at hOther
      exact ⟨i, hi, if_neg hOther⟩

namespace Sound

variable {c c' : Crew σ τ ω}

/- A crew in which one job has a new form is sound. -/
theorem updated
    (h : c.Sound)
    {j job : Job τ ω}
    (hj : j ∈ c.jobs)
    (hNumber : job.number = j.number)
    (hNow : c'.now = c.now)
    (hHired : c'.hired = c.hired)
    (hJobs : c'.jobs = Crew.updated c.jobs job)
    (hGate : c'.gate.Steady)
    (hCeiling : c'.gate.ceiling = c.gate.ceiling)
    (hOthers : ∀ n, n ≠ j.number → Undisturbed c c' n)
    (hOwn : c'.JobOk job) :
    c'.Sound := by
  -- Whoever was in work is in work still.
  have hStays {n : Nat} (hn : ∃ i ∈ c.jobs, i.number = n) :
      ∃ i ∈ c'.jobs, i.number = n := by
    rcases hn with ⟨i, hi, rfl⟩
    rw [hJobs]
    by_cases hSame : i.number = j.number
    · exact
        ⟨job, (mem_updated hj hNumber).mpr (Or.inl rfl),
          hNumber.trans hSame.symm⟩
    · exact
        ⟨i, (mem_updated hj hNumber).mpr (Or.inr ⟨hi, hSame⟩), rfl⟩
  refine
    { gate := hGate
      ceiling := hCeiling ▸ h.ceiling
      distinct := by
        rw [hJobs, numbers_updated]
        exact h.distinct
      jobs := ?_
      requests := ?_
      alarms := ?_ }
  · intro i hi
    rw [hJobs, mem_updated hj hNumber] at hi
    rcases hi with rfl | ⟨hi, hOther⟩
    · exact hOwn
    · exact
        (hOthers i.number hOther).jobOk hNow
          (Nat.le_of_eq hHired.symm) hi (h.jobs i hi)
  · intro n hn
    apply hStays
    by_cases hSame : n = j.number
    · exact ⟨j, hj, hSame.symm⟩
    · exact h.requests n ((hOthers n hSame).phase?_ne_none hn)
  · intro a ha
    apply hStays
    by_cases hSame : a.job = j.number
    · exact ⟨j, hj, hSame.symm⟩
    · exact
        h.alarms a
          (((hOthers a.job hSame).mem_alarms_iff rfl).mp ha)

/- A crew without one of its jobs is sound. -/
theorem without
    (h : c.Sound)
    {n : Nat}
    (hNow : c'.now = c.now)
    (hHired : c'.hired = c.hired)
    (hJobs : c'.jobs = Crew.without c.jobs n)
    (hGate : c'.gate.Steady)
    (hCeiling : c'.gate.ceiling = c.gate.ceiling)
    (hOthers : ∀ m, m ≠ n → Undisturbed c c' m)
    (hPhase : c'.gate.phase? n = none)
    (hAlarms : ∀ a ∈ c'.alarms, a.job ≠ n) :
    c'.Sound := by
  have hStays {m : Nat} (hm : ∃ i ∈ c.jobs, i.number = m)
      (hOther : m ≠ n) : ∃ i ∈ c'.jobs, i.number = m := by
    rcases hm with ⟨i, hi, rfl⟩
    rw [hJobs]
    exact ⟨i, mem_without.mpr ⟨hi, hOther⟩, rfl⟩
  refine
    { gate := hGate
      ceiling := hCeiling ▸ h.ceiling
      distinct := by
        rw [hJobs]
        exact
          h.distinct.sublist
            ((List.filter_sublist).map Job.number)
      jobs := ?_
      requests := ?_
      alarms := ?_ }
  · intro i hi
    rw [hJobs, mem_without] at hi
    exact
      (hOthers i.number hi.2).jobOk hNow
        (Nat.le_of_eq hHired.symm) hi.1 (h.jobs i hi.1)
  · intro m hm
    have hOther : m ≠ n := fun hEq => hm (hEq ▸ hPhase)
    exact
      hStays
        (h.requests m ((hOthers m hOther).phase?_ne_none hm)) hOther
  · intro a ha
    have hOther := hAlarms a ha
    exact
      hStays
        (h.alarms a
          (((hOthers a.job hOther).mem_alarms_iff rfl).mp ha))
        hOther

end Sound

------------------------------------------------------------
-- What service leaves alone
------------------------------------------------------------

theorem mem_decided
    {old new : Gate}
    {n : Nat}
    (hDistinct : old.numbers.Nodup) :
    n ∈ decided old new ↔
      old.phase? n = some .waiting
        ∧ new.phase? n ≠ some .waiting := by
  unfold decided
  simp only [List.mem_map, List.mem_filter, decide_eq_true_eq]
  constructor
  · rintro ⟨r, ⟨hMem, hWaiting, hNot⟩, rfl⟩
    refine ⟨?_, hNot⟩
    rw [Gate.phase?_of_mem hDistinct hMem, hWaiting]
  · rintro ⟨hWaiting, hNot⟩
    exact
      ⟨⟨n, .waiting⟩, ⟨Gate.mem_of_phase? hWaiting, rfl, hNot⟩, rfl⟩

/- Who needs wait no longer is woken, and nobody else. -/
theorem standing_of_follows
    {c c' : Crew σ τ ω}
    {n : Nat}
    (hDistinct : c.gate.numbers.Nodup)
    (hFollows : c.gate.Follows c'.gate n)
    (hWoken :
      n ∈ c'.woken ↔
        n ∈ c.woken
          ∨ (n ∈ decided c.gate c'.gate
              ∧ ∃ j ∈ c.jobs, j.number = n)) :
    (c'.gate.phase? n = c.gate.phase? n
        ∧ (n ∈ c'.woken ↔ n ∈ c.woken))
      ∨ (c.gate.phase? n = some .waiting
          ∧ c'.gate.phase? n = some .granted
          ∧ ∀ j ∈ c.jobs, j.number = n → n ∈ c'.woken) := by
  rw [mem_decided hDistinct] at hWoken
  rcases hFollows with hSame | ⟨hWaiting, hGranted⟩
  · refine Or.inl ⟨hSame, hWoken.trans ?_⟩
    constructor
    · rintro (hAwake | ⟨⟨hWaiting, hNot⟩, _⟩)
      · exact hAwake
      · exact absurd (hSame.trans hWaiting) hNot
    · exact Or.inl
  · refine Or.inr ⟨hWaiting, hGranted, ?_⟩
    intro j hj hNumber
    refine hWoken.mpr (Or.inr ⟨⟨hWaiting, ?_⟩, j, hj, hNumber⟩)
    rw [hGranted]
    simp

section Disturbance

variable {c : Crew σ τ ω} {n : Nat}

theorem filter_setAlarm
    {alarms : List Alarm}
    {t k : Nat}
    (hOther : n ≠ k) :
    ((alarms ++ [Alarm.mk t k]).filter fun a => a.job = n) =
      alarms.filter fun a => a.job = n := by
  simp [Ne.symm hOther]

theorem undisturbed_dismiss
    (h : c.Sound)
    {k : Nat}
    (hOther : n ≠ k) :
    Undisturbed c (c.dismiss k) n := by
  refine ⟨?_, ?_⟩
  · rw [alarms_dismiss, List.filter_filter]
    apply List.filter_congr
    intro a _
    by_cases hOwn : a.job = n <;> simp [hOwn, hOther]
  · apply standing_of_follows h.gate.sound.distinct
    · rw [gate_dismiss]
      exact (h.gate.leave k).2.2 n hOther
    · rw [gate_dismiss]
      refine (mem_woken_setGate _).trans ?_
      have hAwake :
          n ∈ (c.woken.filter fun m => m ≠ k) ↔ n ∈ c.woken := by
        simp [hOther]
      rw [hAwake, job?_isSome]
      simp only [List.mem_filter, decide_eq_true_eq]
      constructor
      · rintro (hWoken | ⟨hMem, j, ⟨hj, _⟩, hNumber⟩)
        · exact Or.inl hWoken
        · exact Or.inr ⟨hMem, j, hj, hNumber⟩
      · rintro (hWoken | ⟨hMem, j, hj, hNumber⟩)
        · exact Or.inl hWoken
        · exact
            Or.inr ⟨hMem, j, ⟨hj, hNumber ▸ hOther⟩, hNumber⟩

theorem undisturbed_rest
    {j : Job τ ω}
    (ms : Nat)
    (hOther : n ≠ j.number) :
    Undisturbed c (c.rest j ms) n :=
  { alarms := filter_setAlarm hOther
    standing := Or.inl ⟨rfl, by simp [rest, doze, hOther, setAlarm, put]⟩ }

theorem undisturbed_queue
    (h : c.Sound)
    {j : Job τ ω}
    (hNew : c.gate.phase? j.number = none)
    (hOther : n ≠ j.number) :
    Undisturbed c (c.queue j) n :=
  { alarms := rfl
    standing :=
      Or.inl ⟨(h.gate.ask hNew).2.2 n hOther, Iff.rfl⟩ }

theorem undisturbed_begin
    {visit : Nat → σ → τ → Visit τ ω × σ}
    (h : c.Sound)
    {j : Job τ ω}
    (hGranted : c.gate.phase? j.number = some .granted)
    (hOther : n ≠ j.number) :
    Undisturbed c (begin visit c j) n := by
  have hPhase := (h.gate.enter hGranted).2.2 n hOther
  rw [begin_eq]
  refine ⟨?_, Or.inl ⟨hPhase, Iff.rfl⟩⟩
  unfold callAlarms
  simp only
  split
  · rw [List.append_nil]
  · exact filter_setAlarm hOther

theorem undisturbed_sleep
    {j : Job τ ω}
    (hOther : n ≠ j.number) :
    Undisturbed c (c.sleep j) n := by
  have hWoken :
      n ∈ (c.woken.filter fun m => m ≠ j.number) ↔
        n ∈ c.woken := by
    simp [hOther]
  unfold sleep
  cases j.deadline with
  | some t =>
      exact
        { alarms := rfl
          standing := Or.inl ⟨rfl, hWoken⟩ }
  | none =>
      cases c.limit j with
      | none =>
          exact
            { alarms := rfl
              standing := Or.inl ⟨rfl, hWoken⟩ }
      | some t =>
          exact
            { alarms := filter_setAlarm hOther
              standing := Or.inl ⟨rfl, hWoken⟩ }

theorem undisturbed_again
    (h : c.Sound)
    {j : Job τ ω}
    (task : τ)
    (hOther : n ≠ j.number) :
    Undisturbed c (c.again j task) n := by
  refine ⟨?_, ?_⟩
  · change
      ((c.setGate (c.gate.leave j.number)).alarms.filter fun a =>
        a.job = n) = _
    rw [alarms_setGate]
  · have hGate :
        (c.again j task).gate = c.gate.leave j.number :=
      gate_setGate c _
    apply standing_of_follows h.gate.sound.distinct
    · rw [hGate]
      exact (h.gate.leave j.number).2.2 n hOther
    · rw [hGate, ← job?_isSome]
      exact mem_woken_setGate c

end Disturbance

------------------------------------------------------------
-- Serving
------------------------------------------------------------

namespace Sound

variable {c : Crew σ τ ω} {j : Job τ ω}

theorem dismiss
    (h : c.Sound)
    (n : Nat) :
    (c.dismiss n).Sound := by
  have hLeave := h.gate.leave n
  refine
    h.without (now_dismiss c n) (hired_dismiss c n)
      (jobs_dismiss c n) ?_ ?_
      (fun _ hOther => undisturbed_dismiss h hOther) ?_ ?_
  · rw [gate_dismiss]
    exact hLeave.1
  · rw [gate_dismiss, Gate.ceiling_leave]
  · rw [gate_dismiss]
    exact hLeave.2.1
  · intro a ha
    rw [alarms_dismiss, List.mem_filter] at ha
    exact of_decide_eq_true ha.2

theorem rest
    (h : c.Sound)
    (hj : j ∈ c.jobs)
    {ms : Nat}
    (hStage : j.stage = .resting ms) :
    (c.rest j ms).Sound := by
  have hJob := h.jobs j hj
  have hPhase := hJob.stage
  unfold StageOk at hPhase
  rw [hStage] at hPhase
  refine
    h.updated hj (rfl : ({ j with stage := .ready } : Job τ ω).number
      = j.number) rfl rfl rfl h.gate rfl
      (fun _ hOther => undisturbed_rest ms hOther) ?_
  exact
    { hired := hJob.hired
      deadline := hJob.deadline
      stage := hPhase
      rousable :=
        Or.inr
          (Or.inr
            ⟨⟨c.now + c.timer.waitMs ms, j.number⟩,
              List.mem_append_right _ List.mem_cons_self, rfl⟩) }

theorem queue
    (h : c.Sound)
    (hj : j ∈ c.jobs)
    (hWoken : j.number ∈ c.woken)
    (hStage : j.stage = .ready) :
    (c.queue j).Sound := by
  have hJob := h.jobs j hj
  have hNew := hJob.stage
  unfold StageOk at hNew
  rw [hStage] at hNew
  have hAsk := h.gate.ask hNew
  refine
    h.updated hj (rfl : ({ j with stage := .queued } : Job τ ω).number
      = j.number) rfl rfl rfl hAsk.1
      (Gate.ceiling_ask c.gate j.number)
      (fun _ hOther => undisturbed_queue h hNew hOther) ?_
  exact
    { hired := hJob.hired
      deadline := hJob.deadline
      stage := hAsk.2.1
      rousable := Or.inl hWoken }

theorem begin
    {visit : Nat → σ → τ → Visit τ ω × σ}
    (h : c.Sound)
    (hj : j ∈ c.jobs)
    (hWoken : j.number ∈ c.woken)
    (hGranted : c.gate.phase? j.number = some .granted) :
    (Crew.begin visit c j).Sound := by
  have hJob := h.jobs j hj
  have hEnter := h.gate.enter hGranted
  have hOthers (n : Nat) (hOther : n ≠ j.number) :
      Undisturbed c (Crew.begin visit c j) n :=
    undisturbed_begin h hGranted hOther
  rw [begin_eq] at hOthers ⊢
  refine
    h.updated hj (rfl : (c.inCall visit j).number = j.number) rfl
      rfl rfl hEnter.1 (Gate.ceiling_enter c.gate j.number)
      hOthers ?_
  refine
    { hired := hJob.hired
      deadline := hJob.deadline
      stage := ⟨hEnter.2.1, ?_⟩
      rousable := Or.inl hWoken }
  intro hDue
  apply List.mem_append_right
  unfold callAlarms
  simp only
  split
  · rename_i hZero
    simp only [hZero] at hDue
    omega
  · exact List.mem_cons_self

theorem sleep
    (h : c.Sound)
    (hj : j ∈ c.jobs)
    (hHeldUp : c.HeldUp j) :
    (c.sleep j).Sound := by
  have hJob := h.jobs j hj
  have hStage := hJob.stage
  unfold StageOk at hStage
  let asleep : Job τ ω := { j with deadline := c.limit j }
  have hOthers (n : Nat) (hOther : n ≠ j.number) :
      Undisturbed c (c.sleep j) n :=
    undisturbed_sleep hOther
  rw [sleep_eq] at hOthers ⊢
  refine
    h.updated hj (rfl : asleep.number = j.number) rfl rfl rfl
      h.gate rfl hOthers ?_
  refine
    { hired := hJob.hired
      deadline := ?_
      stage := ?_
      rousable := Or.inr ?_ }
  · intro hLimit
    simp only [asleep, limit] at hLimit
    cases hDeadline : j.deadline with
    | some t => exact hJob.deadline (by simp [hDeadline])
    | none =>
        rw [hDeadline] at hLimit
        intro hPatience
        exact hLimit (by rw [show j.patience = none from hPatience]; rfl)
  · unfold StageOk
    cases hCase : j.stage with
    | resting _ | ready | queued =>
        rw [hCase] at hStage
        simp only [asleep]
        exact hStage
    | calling next due =>
        rw [hCase] at hStage
        simp only [asleep]
        exact
          ⟨hStage.1, fun hDue =>
            List.mem_append_left _ (hStage.2 hDue)⟩
  · unfold HeldUp at hHeldUp
    cases hCase : j.stage with
    | resting _ | ready =>
        rw [hCase] at hHeldUp
        exact hHeldUp.elim
    | queued =>
        rw [hCase] at hStage hHeldUp
        exact Or.inl (hStage.resolve_right hHeldUp.1)
    | calling next due =>
        rw [hCase] at hStage hHeldUp
        exact
          Or.inr
            ⟨⟨due, j.number⟩,
              List.mem_append_left _ (hStage.2 hHeldUp), rfl⟩

theorem again
    (h : c.Sound)
    (hj : j ∈ c.jobs)
    (hWoken : j.number ∈ c.woken)
    (task : τ) :
    (c.again j task).Sound := by
  have hJob := h.jobs j hj
  have hLeave := h.gate.leave j.number
  have hGate : (c.again j task).gate = c.gate.leave j.number :=
    gate_setGate c _
  refine
    h.updated hj
      (rfl :
        ({ j with task := task, stage := .ready } : Job τ ω).number
          = j.number)
      (now_setGate c _) (hired_setGate c _) ?_ ?_ ?_
      (fun _ hOther => undisturbed_again h task hOther) ?_
  · exact congrArg (Crew.updated · _) (jobs_setGate c _)
  · rw [hGate]
    exact hLeave.1
  · rw [hGate, Gate.ceiling_leave]
  · refine
      { hired := Nat.lt_of_lt_of_eq hJob.hired (hired_setGate c _).symm
        deadline := hJob.deadline
        stage := ?_
        rousable := Or.inl ((mem_woken_setGate c).mpr (Or.inl hWoken)) }
    unfold StageOk
    rw [hGate]
    exact hLeave.2.1

/- Serving a job that is awake leaves a crew sound. -/
theorem serve
    (visit : Nat → σ → τ → Visit τ ω × σ)
    (h : c.Sound)
    (hj : j ∈ c.jobs)
    (hWoken : j.number ∈ c.woken) :
    (c.serve visit j).1.Sound := by
  have hServed := served visit c j
  generalize c.serve visit j = out at hServed
  cases hServed with
  | canceled _ => exact h.dismiss j.number
  | rests ms hStage => exact h.rest hj hStage
  | asks hStage => exact h.queue hj hWoken hStage
  | begins _ hGranted => exact h.begin hj hWoken hGranted
  | refused _ _ => exact h.dismiss j.number
  | overdue _ _ => exact h.dismiss j.number
  | sleeps hHeldUp _ => exact h.sleep hj hHeldUp
  | again task _ _ _ => exact h.again hj hWoken task
  | done _ _ _ _ => exact h.dismiss j.number

end Sound

------------------------------------------------------------
-- Hiring
------------------------------------------------------------

/- A new job, with the next number. -/
def recruit
    (c : Crew σ τ ω)
    (group : Nat)
    (task : τ)
    (patience : Option Nat)
    (rest : Nat) : Job τ ω :=
  { number := c.hired
    group := group
    task := task
    patience := patience
    deadline := none
    stage := if rest = 0 then .ready else .resting rest }

theorem undisturbed_hire
    (c : Crew σ τ ω)
    (group : Nat)
    (task : τ)
    (patience : Option Nat)
    (rest : Nat)
    {n : Nat}
    (hOther : n ≠ c.hired) :
    Undisturbed c (c.hire group task patience rest) n :=
  { alarms := rfl
    standing := Or.inl ⟨rfl, by simp [hire, hOther]⟩ }

theorem Sound.hire
    {c : Crew σ τ ω}
    (h : c.Sound)
    (group : Nat)
    (task : τ)
    (patience : Option Nat)
    (rest : Nat) :
    (c.hire group task patience rest).Sound := by
  let new := c.recruit group task patience rest
  have hJobs :
      (c.hire group task patience rest).jobs = c.jobs ++ [new] :=
    rfl
  have hFresh : ∀ i ∈ c.jobs, i.number ≠ c.hired :=
    fun i hi => Nat.ne_of_lt (h.jobs i hi).hired
  have hPhase : c.gate.phase? c.hired = none := by
    by_contra hSome
    rcases h.requests c.hired hSome with ⟨i, hi, hNumber⟩
    exact hFresh i hi hNumber
  refine
    { gate := h.gate
      ceiling := h.ceiling
      distinct := ?_
      jobs := ?_
      requests := ?_
      alarms := ?_ }
  · rw [hJobs, List.map_append, List.nodup_append]
    refine ⟨h.distinct, List.nodup_singleton _, ?_⟩
    intro m hm n hn
    rcases List.mem_map.mp hm with ⟨i, hi, rfl⟩
    have hNew : n = c.hired := List.mem_singleton.mp hn
    exact hNew ▸ hFresh i hi
  · intro i hi
    rw [hJobs, List.mem_append, List.mem_singleton] at hi
    rcases hi with hi | rfl
    · exact
        (undisturbed_hire c group task patience rest
          (hFresh i hi)).jobOk rfl (Nat.le_succ _) hi (h.jobs i hi)
    · refine
        { hired := Nat.lt_succ_self _
          deadline := fun hSome => absurd rfl hSome
          stage := ?_
          rousable :=
            Or.inl (List.mem_append_right _ List.mem_cons_self) }
      unfold StageOk
      by_cases hRest : rest = 0
      · simp only [new, recruit, hRest, if_true]
        exact hPhase
      · simp only [new, recruit, hRest, if_false]
        exact hPhase
  · intro n hn
    rcases h.requests n hn with ⟨i, hi, hNumber⟩
    exact ⟨i, List.mem_append_left _ hi, hNumber⟩
  · intro a ha
    rcases h.alarms a ha with ⟨i, hi, hNumber⟩
    exact ⟨i, List.mem_append_left _ hi, hNumber⟩

------------------------------------------------------------
-- Time
------------------------------------------------------------

/- The alarms that ring by an instant. -/
def ringing
    (c : Crew σ τ ω)
    (t : Nat) : List Alarm :=
  c.alarms.filter fun a => a.instant ≤ max c.now t

/- The crew at a later instant, after its alarms have rung. -/
def rung
    (c : Crew σ τ ω)
    (t : Nat) : Crew σ τ ω :=
  { c with
    now := max c.now t
    alarms :=
      c.alarms.filter fun a => ¬a.instant ≤ max c.now t }.wakeAll
    ((c.ringing t).map Alarm.job)

/- A crew that is canceled on the way has all jobs awake. -/
theorem advanceTo_eq_rung
    (c : Crew σ τ ω)
    (t : Nat) :
    c.advanceTo t =
      if ¬c.Canceled ∧ (c.rung t).Canceled then
        (c.rung t).wakeAll ((c.rung t).jobs.map Job.number)
      else
        c.rung t := by
  unfold advanceTo
  simp only [List.partition_eq_filter_filter]
  simp only [rung, ringing, Function.comp_def, decide_not]

/-
  The crew at a later instant: some alarms are gone, and who
  they were set for is awake.
-/
theorem advanceTo_eq
    (c : Crew σ τ ω)
    (t : Nat) :
    ∃ woken,
      c.advanceTo t =
          { c with
            now := max c.now t
            alarms :=
              c.alarms.filter fun a => ¬a.instant ≤ max c.now t
            woken := woken }
        ∧ (∀ n ∈ c.woken, n ∈ woken)
        ∧ (∀ a ∈ c.ringing t,
            ∀ j ∈ c.jobs, j.number = a.job → j.number ∈ woken)
        ∧ ((∃ n ∈ woken,
              n ∉ c.woken ∧ ∀ a ∈ c.ringing t, a.job ≠ n) →
            ¬c.Canceled ∧ (c.advanceTo t).Canceled) := by
  let later : Crew σ τ ω :=
    { c with
      now := max c.now t
      alarms := c.alarms.filter fun a => ¬a.instant ≤ max c.now t }
  let rung := later.wakeAll ((c.ringing t).map Alarm.job)
  have hAdvance :
      c.advanceTo t =
        if ¬c.Canceled ∧ rung.Canceled then
          rung.wakeAll (rung.jobs.map Job.number)
        else
          rung :=
    c.advanceTo_eq_rung t
  rcases wakeAll_eq later ((c.ringing t).map Alarm.job) with
    ⟨awake, hRung⟩
  have hRings (j : Job τ ω) (hj : j ∈ c.jobs) {a : Alarm}
      (ha : a ∈ c.ringing t) (hOwn : j.number = a.job) :
      j.number ∈ rung.woken :=
    mem_woken_wakeAll.mpr
      (Or.inr
        ⟨hOwn ▸ List.mem_map_of_mem ha,
          job?_isSome.mpr ⟨j, hj, rfl⟩⟩)
  by_cases hCancel : ¬c.Canceled ∧ rung.Canceled
  · rw [if_pos hCancel] at hAdvance
    rcases wakeAll_eq rung (rung.jobs.map Job.number) with
      ⟨all, hAll⟩
    have hMore {n : Nat} (hn : n ∈ rung.woken) : n ∈ all := by
      have hWoken :
          n ∈ (rung.wakeAll (rung.jobs.map Job.number)).woken :=
        mem_woken_wakeAll.mpr (Or.inl hn)
      rwa [hAll] at hWoken
    refine ⟨all, ?_, ?_, ?_, ?_⟩
    · rw [hAdvance, hAll]
      simp only [rung, hRung]
      rfl
    · intro n hn
      exact hMore (mem_woken_wakeAll.mpr (Or.inl hn))
    · intro a ha j hj hOwn
      exact hMore (hRings j hj ha hOwn)
    · intro _
      refine ⟨hCancel.1, ?_⟩
      rw [hAdvance, hAll]
      exact hCancel.2
  · rw [if_neg hCancel] at hAdvance
    refine ⟨awake, ?_, ?_, ?_, ?_⟩
    · rw [hAdvance]
      exact hRung
    · intro n hn
      have hWoken : n ∈ rung.woken :=
        mem_woken_wakeAll.mpr (Or.inl hn)
      rwa [show rung = _ from hRung] at hWoken
    · intro a ha j hj hOwn
      have hWoken := hRings j hj ha hOwn
      rwa [show rung = _ from hRung] at hWoken
    · rintro ⟨n, hn, hAsleep, hSilent⟩
      have hWoken : n ∈ rung.woken := by
        rw [show rung = _ from hRung]
        exact hn
      rcases mem_woken_wakeAll.mp hWoken with hOld | ⟨hRung, _⟩
      · exact absurd hOld hAsleep
      · rcases List.mem_map.mp hRung with ⟨a, ha, hOwn⟩
        exact absurd hOwn (hSilent a ha)

theorem Sound.advanceTo
    {c : Crew σ τ ω}
    (h : c.Sound)
    (t : Nat) :
    (c.advanceTo t).Sound := by
  rcases advanceTo_eq c t with
    ⟨woken, hEq, hStays, hRings, _⟩
  rw [hEq]
  refine
    { gate := h.gate
      ceiling := h.ceiling
      distinct := h.distinct
      jobs := ?_
      requests := h.requests
      alarms := fun a ha => h.alarms a (List.mem_of_mem_filter ha) }
  intro j hj
  have hJob := h.jobs j hj
  refine
    { hired := hJob.hired
      deadline := hJob.deadline
      stage := ?_
      rousable := ?_ }
  · have hStage := hJob.stage
    unfold StageOk at hStage ⊢
    cases hCase : j.stage with
    | resting _ | ready | queued =>
        rw [hCase] at hStage
        exact hStage
    | calling next due =>
        rw [hCase] at hStage
        refine ⟨hStage.1, fun hDue => ?_⟩
        simp only at hDue
        exact
          List.mem_filter.mpr
            ⟨hStage.2 (by omega), decide_eq_true (by simp only; omega)⟩
  · rcases hJob.rousable with hAwake | hWaiting | ⟨a, ha, hOwn⟩
    · exact Or.inl (hStays j.number hAwake)
    · exact Or.inr (Or.inl hWaiting)
    · by_cases hRing : a.instant ≤ max c.now t
      · refine Or.inl (hRings a ?_ j hj hOwn.symm)
        exact List.mem_filter.mpr ⟨ha, decide_eq_true hRing⟩
      · refine Or.inr (Or.inr ⟨a, ?_, hOwn⟩)
        exact List.mem_filter.mpr ⟨ha, decide_eq_true hRing⟩

------------------------------------------------------------
-- Crews that nothing wakes
------------------------------------------------------------

theorem alarms_eq_nil_of_nextInstant?
    {c : Crew σ τ ω}
    (hJobs : c.jobs ≠ [])
    (hNext : c.nextInstant? = none) :
    c.alarms = [] := by
  unfold nextInstant? at hNext
  rw [if_neg (by rw [List.isEmpty_iff]; exact hJobs)] at hNext
  cases hAlarms : c.alarms with
  | nil => rfl
  | cons a rest =>
      -- An instant that is there once does not go away.
      have hSome (alarms : List Alarm) (first : Option Nat)
          (hFirst : first ≠ none) :
          alarms.foldl (fun t a => earlier t (some a.instant)) first
            ≠ none := by
        induction alarms generalizing first with
        | nil => exact hFirst
        | cons b rest ih =>
            apply ih
            cases first <;> simp [earlier]
      rw [hAlarms, List.foldl_cons] at hNext
      refine absurd hNext (hSome rest _ ?_)
      split <;> cases c.cancelAt <;> simp [earlier]

/-
  A crew that sleeps, with nothing to wake it, is done: if
  all its jobs waited for permits, some permit would be left.
-/
theorem Sound.jobs_eq_nil
    {c : Crew σ τ ω}
    (h : c.Sound)
    (hAsleep : ∀ j ∈ c.jobs, j.number ∉ c.woken)
    (hNext : c.nextInstant? = none) :
    c.jobs = [] := by
  by_contra hJobs
  have hAlarms := alarms_eq_nil_of_nextInstant? hJobs hNext
  have hWaiting :
      ∀ j ∈ c.jobs, c.gate.phase? j.number = some .waiting := by
    intro j hj
    rcases (h.jobs j hj).rousable with
      hAwake | hWaiting | ⟨a, ha, _⟩
    · exact absurd hAwake (hAsleep j hj)
    · exact hWaiting
    · rw [hAlarms] at ha
      exact absurd ha List.not_mem_nil
  have hNobody : c.gate.held = 0 := by
    refine List.countP_eq_zero.mpr ?_
    intro r hr hPermit
    have hPhase := Gate.phase?_of_mem h.gate.sound.distinct hr
    rcases h.requests r.number (by rw [hPhase]; simp) with
      ⟨j, hj, hNumber⟩
    rw [← hNumber, hWaiting j hj] at hPhase
    have hIs := Option.some.inj hPhase
    rw [← hIs] at hPermit
    exact absurd hPermit (by decide)
  rcases List.exists_mem_of_ne_nil _ hJobs with ⟨j, hj⟩
  have hLeft := h.gate.tight j.number (hWaiting j hj)
  have hPermits := h.gate.sound.permits
  have hCeiling := h.ceiling
  omega

end Crew

end TradeTape
