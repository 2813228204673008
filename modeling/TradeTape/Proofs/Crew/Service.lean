import Mathlib.Data.List.Nodup
import TradeTape.Backfill.Crew

/-
  What it does to a crew when a job is served.

  Small changes come first, each with what it leaves alone.
  All that serving can do is then said once, as the cases of
  `Crew.Served`.

  Key statements include:
    * `Crew.mem_woken_wakeAll`
    * `Crew.Served`
    * `Crew.served`
-/

namespace TradeTape

namespace Crew

variable {σ τ ω : Type}

------------------------------------------------------------
-- Jobs by their numbers
------------------------------------------------------------

theorem mem_of_job?
    {c : Crew σ τ ω}
    {n : Nat}
    {j : Job τ ω}
    (hJob : c.job? n = some j) :
    j ∈ c.jobs ∧ j.number = n := by
  unfold job? at hJob
  have hNumber := List.find?_some hJob
  exact
    ⟨List.mem_of_find?_eq_some hJob, of_decide_eq_true hNumber⟩

theorem job?_isSome
    {c : Crew σ τ ω}
    {n : Nat} :
    (c.job? n).isSome = true ↔ ∃ j ∈ c.jobs, j.number = n := by
  simp [job?, List.find?_isSome]

theorem job?_eq_none
    {c : Crew σ τ ω}
    {n : Nat} :
    c.job? n = none ↔ ∀ j ∈ c.jobs, j.number ≠ n := by
  simp [job?, List.find?_eq_none]

------------------------------------------------------------
-- Waking
------------------------------------------------------------

theorem wake_eq
    (c : Crew σ τ ω)
    (n : Nat) :
    ∃ woken, c.wake n = { c with woken := woken } := by
  unfold wake
  split
  · exact ⟨c.woken, rfl⟩
  · exact ⟨c.woken ++ [n], rfl⟩

/- Waking changes nothing but who is awake. -/
theorem wakeAll_eq
    (c : Crew σ τ ω)
    (ns : List Nat) :
    ∃ woken, c.wakeAll ns = { c with woken := woken } := by
  induction ns generalizing c with
  | nil => exact ⟨c.woken, rfl⟩
  | cons n ns ih =>
      rcases wake_eq c n with ⟨woken, hWake⟩
      rcases ih (c.wake n) with ⟨woken', hRest⟩
      refine ⟨woken', ?_⟩
      change (c.wake n).wakeAll ns = _
      rw [hRest, hWake]

section Frames

variable (c : Crew σ τ ω) (ns : List Nat)

@[simp] theorem now_wakeAll : (c.wakeAll ns).now = c.now := by
  rcases wakeAll_eq c ns with ⟨_, hEq⟩
  rw [hEq]

@[simp] theorem hired_wakeAll :
    (c.wakeAll ns).hired = c.hired := by
  rcases wakeAll_eq c ns with ⟨_, hEq⟩
  rw [hEq]

@[simp] theorem cancelAt_wakeAll :
    (c.wakeAll ns).cancelAt = c.cancelAt := by
  rcases wakeAll_eq c ns with ⟨_, hEq⟩
  rw [hEq]

@[simp] theorem gate_wakeAll : (c.wakeAll ns).gate = c.gate := by
  rcases wakeAll_eq c ns with ⟨_, hEq⟩
  rw [hEq]

@[simp] theorem world_wakeAll : (c.wakeAll ns).world = c.world := by
  rcases wakeAll_eq c ns with ⟨_, hEq⟩
  rw [hEq]

@[simp] theorem jobs_wakeAll : (c.wakeAll ns).jobs = c.jobs := by
  rcases wakeAll_eq c ns with ⟨_, hEq⟩
  rw [hEq]

@[simp] theorem alarms_wakeAll :
    (c.wakeAll ns).alarms = c.alarms := by
  rcases wakeAll_eq c ns with ⟨_, hEq⟩
  rw [hEq]

end Frames

theorem mem_woken_wake
    {c : Crew σ τ ω}
    {m n : Nat} :
    n ∈ (c.wake m).woken ↔
      n ∈ c.woken ∨ (n = m ∧ (c.job? m).isSome) := by
  unfold wake
  split
  · rename_i hSkip
    constructor
    · exact Or.inl
    · rintro (hWoken | ⟨rfl, hSome⟩)
      · exact hWoken
      · rcases hSkip with hWoken | hNone
        · exact hWoken
        · rw [Option.isNone_iff_eq_none] at hNone
          simp [hNone] at hSome
  · rename_i hNew
    have hSome : (c.job? m).isSome = true :=
      Option.isSome_iff_ne_none.mpr
        fun hNone => hNew (Or.inr (by rw [hNone]; rfl))
    simp [hSome]

/- Who is awake after several jobs are woken. -/
theorem mem_woken_wakeAll
    {c : Crew σ τ ω}
    {ns : List Nat}
    {n : Nat} :
    n ∈ (c.wakeAll ns).woken ↔
      n ∈ c.woken ∨ (n ∈ ns ∧ (c.job? n).isSome) := by
  induction ns generalizing c with
  | nil => simp [wakeAll]
  | cons m ns ih =>
      have hJob : (c.wake m).job? n = c.job? n := by
        rcases wake_eq c m with ⟨_, hEq⟩
        rw [hEq]
        rfl
      change n ∈ ((c.wake m).wakeAll ns).woken ↔ _
      rw [ih, mem_woken_wake, hJob, List.mem_cons]
      constructor
      · rintro ((hWoken | ⟨rfl, hSome⟩) | ⟨hMem, hSome⟩)
        · exact Or.inl hWoken
        · exact Or.inr ⟨Or.inl rfl, hSome⟩
        · exact Or.inr ⟨Or.inr hMem, hSome⟩
      · rintro (hWoken | ⟨rfl | hMem, hSome⟩)
        · exact Or.inl (Or.inl hWoken)
        · exact Or.inl (Or.inr ⟨rfl, hSome⟩)
        · exact Or.inr ⟨hMem, hSome⟩

------------------------------------------------------------
-- Changes
------------------------------------------------------------

/- The requests that need wait no longer at a new gate. -/
def decided
    (old new : Gate) : List Nat :=
  (old.requests.filter fun r =>
    r.phase = .waiting ∧ new.phase? r.number ≠ some .waiting).map
    Gate.Request.number

/- The jobs without one of them. -/
def without
    (jobs : List (Job τ ω))
    (n : Nat) : List (Job τ ω) :=
  jobs.filter fun j => j.number ≠ n

/- The jobs with one of them in its new form. -/
def updated
    (jobs : List (Job τ ω))
    (job : Job τ ω) : List (Job τ ω) :=
  jobs.map fun j => if j.number = job.number then job else j

section Changes

variable (c : Crew σ τ ω)

@[simp] theorem jobs_setGate
    (g : Gate) :
    (c.setGate g).jobs = c.jobs := by
  simp [setGate]

@[simp] theorem gate_setGate (g : Gate) : (c.setGate g).gate = g := by
  simp [setGate]

@[simp] theorem world_setGate
    (g : Gate) :
    (c.setGate g).world = c.world := by
  simp [setGate]

@[simp] theorem now_setGate
    (g : Gate) :
    (c.setGate g).now = c.now := by
  simp [setGate]

@[simp] theorem hired_setGate
    (g : Gate) :
    (c.setGate g).hired = c.hired := by
  simp [setGate]

@[simp] theorem cancelAt_setGate
    (g : Gate) :
    (c.setGate g).cancelAt = c.cancelAt := by
  simp [setGate]

@[simp] theorem alarms_setGate
    (g : Gate) :
    (c.setGate g).alarms = c.alarms := by
  simp [setGate]

theorem mem_woken_setGate
    {g : Gate}
    {n : Nat} :
    n ∈ (c.setGate g).woken ↔
      n ∈ c.woken
        ∨ (n ∈ decided c.gate g ∧ (c.job? n).isSome) := by
  unfold setGate
  exact mem_woken_wakeAll

@[simp] theorem jobs_dismiss
    (n : Nat) :
    (c.dismiss n).jobs = without c.jobs n := by
  simp [dismiss, without]

@[simp] theorem gate_dismiss
    (n : Nat) :
    (c.dismiss n).gate = c.gate.leave n := by
  simp [dismiss]

@[simp] theorem world_dismiss
    (n : Nat) :
    (c.dismiss n).world = c.world := by
  simp [dismiss]

@[simp] theorem now_dismiss (n : Nat) : (c.dismiss n).now = c.now := by
  simp [dismiss]

@[simp] theorem hired_dismiss
    (n : Nat) :
    (c.dismiss n).hired = c.hired := by
  simp [dismiss]

@[simp] theorem cancelAt_dismiss
    (n : Nat) :
    (c.dismiss n).cancelAt = c.cancelAt := by
  simp [dismiss]

@[simp] theorem alarms_dismiss
    (n : Nat) :
    (c.dismiss n).alarms =
      c.alarms.filter fun a => a.job ≠ n := by
  simp [dismiss]

end Changes

------------------------------------------------------------
-- Calls
------------------------------------------------------------

section Calls

variable (visit : Nat → σ → τ → Visit τ ω × σ)
variable (c : Crew σ τ ω) (j : Job τ ω)

/- A job that makes its call. -/
def inCall : Job τ ω :=
  let v := (visit c.now c.world j.task).1
  { j with stage := .calling v.next (c.now + v.delay) }

/- The alarm at the end of a call that takes time. -/
def callAlarms : List Alarm :=
  let v := (visit c.now c.world j.task).1
  if v.delay = 0 then []
  else [{ instant := c.now + v.delay, job := j.number }]

theorem begin_eq :
    begin visit c j =
      { c with
        gate := c.gate.enter j.number
        world := (visit c.now c.world j.task).2
        jobs := updated c.jobs (c.inCall visit j)
        alarms := c.alarms ++ c.callAlarms visit j } := by
  unfold begin callAlarms
  simp only
  split
  · rw [List.append_nil]
    rfl
  · rfl

end Calls

------------------------------------------------------------
-- Service
------------------------------------------------------------

/- The instant at which the time of a held up job is up. -/
def limit
    (c : Crew σ τ ω)
    (j : Job τ ω) : Option Nat :=
  match j.deadline with
  | some t => some t
  | none => j.patience.map fun ms => c.now + c.timer.waitMs ms

/- A job that waits for the gate, or for the end of its call. -/
def HeldUp
    (c : Crew σ τ ω)
    (j : Job τ ω) : Prop :=
  match j.stage with
  | .queued =>
      c.gate.phase? j.number ≠ some .granted
        ∧ c.gate.phase? j.number ≠ some .refused
  | .calling _ due => c.now < due
  | _ => False

/- The crew after a held up job has gone to sleep. -/
def sleep
    (c : Crew σ τ ω)
    (j : Job τ ω) : Crew σ τ ω :=
  let limit := c.limit j
  let c := (c.put { j with deadline := limit }).doze j.number
  match j.deadline, limit with
  | none, some t => c.setAlarm t j.number
  | _, _ => c

/- The alarm that is set when a job is held up first. -/
def limitAlarms
    (c : Crew σ τ ω)
    (j : Job τ ω) : List Alarm :=
  match j.deadline with
  | some _ => []
  | none =>
      (c.limit j).toList.map fun t =>
        { instant := t, job := j.number }

theorem sleep_eq
    (c : Crew σ τ ω)
    (j : Job τ ω) :
    c.sleep j =
      { c with
        jobs := updated c.jobs { j with deadline := c.limit j }
        alarms := c.alarms ++ c.limitAlarms j
        woken := c.woken.filter fun n => n ≠ j.number } := by
  unfold sleep limitAlarms
  cases hDeadline : j.deadline with
  | some t =>
      simp only [List.append_nil]
      rfl
  | none =>
      cases hLimit : c.limit j with
      | none =>
          simp only [Option.toList_none, List.map_nil,
            List.append_nil]
          rfl
      | some t => rfl

/- The crew after a job has begun to rest. -/
def rest
    (c : Crew σ τ ω)
    (j : Job τ ω)
    (ms : Nat) : Crew σ τ ω :=
  ((c.put { j with stage := .ready }).setAlarm
    (c.now + c.timer.waitMs ms) j.number).doze j.number

/- The crew after a job has asked for a permit. -/
def queue
    (c : Crew σ τ ω)
    (j : Job τ ω) : Crew σ τ ω :=
  { c with gate := c.gate.ask j.number }.put
    { j with stage := .queued }

/- The crew after a job has gone on to its next call. -/
def again
    (c : Crew σ τ ω)
    (j : Job τ ω)
    (task : τ) : Crew σ τ ω :=
  (c.setGate (c.gate.leave j.number)).put
    { j with task := task, stage := .ready }

/- What serving a job does, case by case. -/
inductive Served
    (visit : Nat → σ → τ → Visit τ ω × σ)
    (c : Crew σ τ ω)
    (j : Job τ ω) :
    Crew σ τ ω × Option (Ending ω) → Prop where
  | canceled
      (hCanceled : c.Canceled) :
      Served visit c j (c.dismiss j.number, some .canceled)
  | rests
      (ms : Nat)
      (hStage : j.stage = .resting ms) :
      Served visit c j (c.rest j ms, none)
  | asks
      (hStage : j.stage = .ready) :
      Served visit c j (c.queue j, none)
  | begins
      (hStage : j.stage = .queued)
      (hGranted : c.gate.phase? j.number = some .granted) :
      Served visit c j (begin visit c j, none)
  | refused
      (hStage : j.stage = .queued)
      (hRefused : c.gate.phase? j.number = some .refused) :
      Served visit c j (c.dismiss j.number, some .refused)
  | overdue
      (hHeldUp : c.HeldUp j)
      (hLimit : Reached c.now (c.limit j)) :
      Served visit c j (c.dismiss j.number, some .timedOut)
  | sleeps
      (hHeldUp : c.HeldUp j)
      (hLimit : ¬Reached c.now (c.limit j)) :
      Served visit c j (c.sleep j, none)
  | again
      (task : τ)
      (due : Nat)
      (hStage : j.stage = .calling (.inl task) due)
      (hDue : due ≤ c.now) :
      Served visit c j (c.again j task, none)
  | done
      (w : ω)
      (due : Nat)
      (hStage : j.stage = .calling (.inr w) due)
      (hDue : due ≤ c.now) :
      Served visit c j (c.dismiss j.number, some (.done w))

/- A job that is held up ends, or sleeps. -/
theorem hold_eq
    (c : Crew σ τ ω)
    (j : Job τ ω) :
    c.hold j =
      if Reached c.now (c.limit j) then
        (c.dismiss j.number, some .timedOut)
      else
        (c.sleep j, none) := by
  by_cases hLimit : Reached c.now (c.limit j)
  · rw [if_pos hLimit]
    exact if_pos hLimit
  · rw [if_neg hLimit]
    unfold hold
    refine (if_neg hLimit).trans ?_
    unfold sleep limit
    cases j.deadline with
    | some t => rfl
    | none => cases j.patience <;> rfl

theorem served_hold
    {visit : Nat → σ → τ → Visit τ ω × σ}
    {c : Crew σ τ ω}
    {j : Job τ ω}
    (hHeldUp : c.HeldUp j) :
    Served visit c j (c.hold j) := by
  rw [hold_eq]
  split
  · exact Served.overdue hHeldUp ‹_›
  · exact Served.sleeps hHeldUp ‹_›

/- Serving a job does one of these things. -/
theorem served
    (visit : Nat → σ → τ → Visit τ ω × σ)
    (c : Crew σ τ ω)
    (j : Job τ ω) :
    Served visit c j (c.serve visit j) := by
  unfold serve
  by_cases hCanceled : c.Canceled
  · rw [if_pos hCanceled]
    exact Served.canceled hCanceled
  · rw [if_neg hCanceled]
    cases hStage : j.stage with
    | resting ms => exact Served.rests ms hStage
    | ready => exact Served.asks hStage
    | queued =>
        simp only
        split
        · rename_i hGranted
          exact Served.begins hStage hGranted
        · rename_i hRefused
          exact Served.refused hStage hRefused
        · rename_i hNotGranted hNotRefused
          apply served_hold
          unfold HeldUp
          rw [hStage]
          exact ⟨hNotGranted, hNotRefused⟩
    | calling next due =>
        simp only
        by_cases hDue : c.now < due
        · rw [if_pos hDue]
          apply served_hold
          unfold HeldUp
          rw [hStage]
          exact hDue
        · rw [if_neg hDue]
          cases next with
          | inl task =>
              exact
                Served.again task due hStage (Nat.le_of_not_lt hDue)
          | inr w =>
              exact Served.done w due hStage (Nat.le_of_not_lt hDue)

end Crew

end TradeTape
