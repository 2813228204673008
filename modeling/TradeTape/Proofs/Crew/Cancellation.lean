import TradeTape.Proofs.Crew.Soundness

/-
  Crews before and after they are canceled.

  Until it is canceled, a crew does what it would do if nobody
  was going to cancel it.  When it is canceled all its jobs
  are woken, and whoever is served then leaves without a call.

  Key statements include:
    * `Crew.uncanceled`
    * `Crew.serve_uncanceled`
    * `Crew.nextInstant?_cases`
    * `Crew.Roused`
    * `Crew.roused_advanceTo`
    * `Crew.Served.clock`
-/

namespace TradeTape

namespace Crew

variable {σ τ ω : Type}

------------------------------------------------------------
-- Crews that nobody cancels
------------------------------------------------------------

/- The crew if nobody was going to cancel it. -/
def uncanceled (c : Crew σ τ ω) : Crew σ τ ω :=
  { c with cancelAt := none }

theorem not_canceled_uncanceled (c : Crew σ τ ω) :
    ¬c.uncanceled.Canceled :=
  fun hCanceled => hCanceled

theorem wake_uncanceled
    (c : Crew σ τ ω)
    (n : Nat) :
    c.uncanceled.wake n = (c.wake n).uncanceled := by
  have hJob : c.uncanceled.job? n = c.job? n := rfl
  unfold wake
  rw [hJob]
  by_cases hSkip : n ∈ c.woken ∨ (c.job? n).isNone
  · rw [if_pos hSkip]
    exact if_pos hSkip
  · rw [if_neg hSkip]
    exact if_neg hSkip

theorem wakeAll_uncanceled
    (c : Crew σ τ ω)
    (ns : List Nat) :
    c.uncanceled.wakeAll ns = (c.wakeAll ns).uncanceled := by
  induction ns generalizing c with
  | nil => rfl
  | cons n rest ih =>
      change (c.uncanceled.wake n).wakeAll rest = _
      rw [wake_uncanceled, ih]
      rfl

theorem setGate_uncanceled
    (c : Crew σ τ ω)
    (g : Gate) :
    c.uncanceled.setGate g = (c.setGate g).uncanceled :=
  wakeAll_uncanceled { c with gate := g } _

theorem dismiss_uncanceled
    (c : Crew σ τ ω)
    (n : Nat) :
    c.uncanceled.dismiss n = (c.dismiss n).uncanceled :=
  setGate_uncanceled
    { c with
      jobs := c.jobs.filter fun j => j.number ≠ n
      alarms := c.alarms.filter fun a => a.job ≠ n
      woken := c.woken.filter fun m => m ≠ n } _

theorem hold_uncanceled
    (c : Crew σ τ ω)
    (j : Job τ ω) :
    c.uncanceled.hold j
      = ((c.hold j).1.uncanceled, (c.hold j).2) := by
  have hLimit : c.uncanceled.limit j = c.limit j := rfl
  have hNow : c.uncanceled.now = c.now := rfl
  rw [hold_eq, hold_eq, hLimit, hNow]
  split
  · rw [dismiss_uncanceled]
  · rw [sleep_eq, sleep_eq]
    rfl

/- Before it is canceled, a crew serves as if it never was. -/
theorem serve_uncanceled
    (visit : Nat → σ → τ → Visit τ ω × σ)
    {c : Crew σ τ ω}
    (hNot : ¬c.Canceled)
    (j : Job τ ω) :
    c.uncanceled.serve visit j
      = ((c.serve visit j).1.uncanceled, (c.serve visit j).2) := by
  unfold serve
  rw [if_neg hNot, if_neg c.not_canceled_uncanceled]
  have hNow : c.uncanceled.now = c.now := rfl
  have hGate : c.uncanceled.gate = c.gate := rfl
  cases j.stage with
  | resting ms => rfl
  | ready => rfl
  | queued =>
      simp only [hGate]
      split
      · rw [begin_eq, begin_eq]
        rfl
      · rw [dismiss_uncanceled]
      · exact hold_uncanceled c j
  | calling next due =>
      simp only [hNow, hGate]
      by_cases hDue : c.now < due
      · rw [if_pos hDue, if_pos hDue]
        exact hold_uncanceled c j
      · rw [if_neg hDue, if_neg hDue]
        cases next with
        | inl task =>
            simp only [setGate_uncanceled]
            rfl
        | inr w => simp only [dismiss_uncanceled]

------------------------------------------------------------
-- The next instant
------------------------------------------------------------

theorem earlier_assoc (a b t : Option Nat) :
    earlier (earlier a b) t = earlier a (earlier b t) := by
  cases a <;> cases b <;> cases t <;> simp [earlier, Nat.min_assoc]

theorem foldl_earlier
    (alarms : List Alarm)
    (a b : Option Nat) :
    alarms.foldl (fun t a => earlier t (some a.instant))
        (earlier a b)
      = earlier a
          (alarms.foldl (fun t a => earlier t (some a.instant))
            b) := by
  induction alarms generalizing b with
  | nil => rfl
  | cons alarm rest ih =>
      rw [List.foldl_cons, List.foldl_cons, earlier_assoc, ih]

/-
  Before it is canceled, what happens to a crew next is what
  would happen anyway, or the cancellation if that is earlier.
-/
theorem nextInstant?_cases
    {c : Crew σ τ ω}
    {t : Nat}
    (hCancel : c.cancelAt = some t)
    (hNot : ¬c.Canceled) :
    (c.nextInstant? = none ∧ c.uncanceled.nextInstant? = none)
      ∨ (c.nextInstant? = some t
          ∧ ∀ s, c.uncanceled.nextInstant? = some s → t ≤ s)
      ∨ ∃ s,
          s < t
            ∧ c.nextInstant? = some s
            ∧ c.uncanceled.nextInstant? = some s := by
  by_cases hJobs : c.jobs.isEmpty = true
  · exact Or.inl ⟨if_pos hJobs, if_pos hJobs⟩
  · let alarm :=
      c.alarms.foldl (fun t a => earlier t (some a.instant)) none
    have hNext : c.nextInstant? = earlier (some t) alarm := by
      unfold nextInstant?
      rw [if_neg hJobs, if_neg hNot, hCancel]
      exact foldl_earlier c.alarms (some t) none
    have hAlarm : c.uncanceled.nextInstant? = alarm := by
      unfold nextInstant?
      rw [if_neg c.not_canceled_uncanceled]
      exact if_neg hJobs
    rw [hNext, hAlarm]
    cases alarm with
    | none => exact Or.inr (Or.inl ⟨rfl, fun s hs => nomatch hs⟩)
    | some s =>
        change
          (some (min t s) = none ∧ _)
            ∨ (some (min t s) = some t ∧ _)
            ∨ ∃ u, u < t ∧ some (min t s) = some u ∧ _
        by_cases hLe : t ≤ s
        · refine Or.inr (Or.inl ⟨?_, ?_⟩)
          · rw [Nat.min_eq_left hLe]
          · intro u hu
            cases hu
            exact hLe
        · refine Or.inr (Or.inr ⟨s, by omega, ?_, rfl⟩)
          rw [Nat.min_eq_right (by omega)]

@[simp] theorem cancelAt_advanceTo
    (c : Crew σ τ ω)
    (t : Nat) :
    (c.advanceTo t).cancelAt = c.cancelAt := by
  rcases advanceTo_eq c t with ⟨_, hEq, _⟩
  rw [hEq]

@[simp] theorem world_advanceTo
    (c : Crew σ τ ω)
    (t : Nat) :
    (c.advanceTo t).world = c.world := by
  rcases advanceTo_eq c t with ⟨_, hEq, _⟩
  rw [hEq]

theorem le_now_advanceTo
    (c : Crew σ τ ω)
    (t : Nat) :
    c.now ≤ (c.advanceTo t).now ∧ t ≤ (c.advanceTo t).now := by
  rcases advanceTo_eq c t with ⟨_, hEq, _⟩
  rw [hEq]
  exact ⟨Nat.le_max_left _ _, Nat.le_max_right _ _⟩

theorem rung_uncanceled
    (c : Crew σ τ ω)
    (t : Nat) :
    c.uncanceled.rung t = (c.rung t).uncanceled :=
  wakeAll_uncanceled
    { c with
      now := max c.now t
      alarms := c.alarms.filter fun a => ¬a.instant ≤ max c.now t }
    _

/- Time that passes before a crew is canceled. -/
theorem advanceTo_uncanceled
    {c : Crew σ τ ω}
    {s t : Nat}
    (hCancel : c.cancelAt = some t)
    (hNot : ¬c.Canceled)
    (hBefore : s < t) :
    c.uncanceled.advanceTo s = (c.advanceTo s).uncanceled
      ∧ ¬(c.advanceTo s).Canceled := by
  have hRung : ¬(c.rung s).Canceled := by
    unfold Canceled at hNot ⊢
    unfold rung
    rw [cancelAt_wakeAll, now_wakeAll]
    rw [hCancel] at hNot ⊢
    unfold Reached at hNot ⊢
    simp only at hNot ⊢
    omega
  have hSame : c.advanceTo s = c.rung s := by
    rw [advanceTo_eq_rung, if_neg (fun h => hRung h.2)]
  have hOther :
      c.uncanceled.advanceTo s = c.uncanceled.rung s := by
    have hNever : ¬(c.uncanceled.rung s).Canceled := by
      rw [rung_uncanceled]
      exact not_canceled_uncanceled _
    rw [advanceTo_eq_rung, if_neg (fun h => hNever h.2)]
  rw [hSame, hOther, rung_uncanceled]
  exact ⟨rfl, hRung⟩

------------------------------------------------------------
-- Crews that are canceled
------------------------------------------------------------

/- A crew that is canceled, with all its jobs awake. -/
structure Roused (c : Crew σ τ ω) : Prop where
  canceled : c.Canceled
  awake : ∀ j ∈ c.jobs, j.number ∈ c.woken

theorem roused_advanceTo
    {c : Crew σ τ ω}
    {t : Nat}
    (hCancel : c.cancelAt = some t)
    (hNot : ¬c.Canceled) :
    (c.advanceTo t).Roused ∧ (c.advanceTo t).now = t := by
  have hBefore : c.now < t := by
    unfold Canceled at hNot
    rw [hCancel] at hNot
    exact Nat.lt_of_not_le hNot
  have hNow : (c.rung t).now = t := by
    unfold rung
    rw [now_wakeAll]
    exact Nat.max_eq_right (Nat.le_of_lt hBefore)
  have hRung : (c.rung t).Canceled := by
    unfold Canceled
    have hSame : (c.rung t).cancelAt = c.cancelAt := by
      unfold rung
      rw [cancelAt_wakeAll]
    rw [hSame, hCancel, hNow]
    exact Nat.le_refl t
  rw [advanceTo_eq_rung, if_pos ⟨hNot, hRung⟩]
  refine ⟨⟨?_, ?_⟩, ?_⟩
  · unfold Canceled
    rw [cancelAt_wakeAll, now_wakeAll]
    exact hRung
  · intro j hj
    rw [jobs_wakeAll] at hj
    exact
      mem_woken_wakeAll.mpr
        (Or.inr
          ⟨List.mem_map_of_mem hj, job?_isSome.mpr ⟨j, hj, rfl⟩⟩)
  · rw [now_wakeAll]
    exact hNow

namespace Roused

variable {c : Crew σ τ ω}

/- A new job is awake as well. -/
theorem hire
    (h : c.Roused)
    (group : Nat)
    (task : τ)
    (patience : Option Nat)
    (rest : Nat) :
    (c.hire group task patience rest).Roused := by
  refine ⟨h.canceled, ?_⟩
  intro j hj
  rcases List.mem_append.mp hj with hOld | hNew
  · exact List.mem_append_left _ (h.awake j hOld)
  · rw [List.mem_singleton.mp hNew]
    exact List.mem_append_right _ (List.mem_singleton_self _)

/- When a job leaves, the others stay awake. -/
theorem dismiss
    (h : c.Roused)
    (n : Nat) :
    (c.dismiss n).Roused := by
  refine ⟨?_, ?_⟩
  · unfold Canceled
    rw [cancelAt_dismiss, now_dismiss]
    exact h.canceled
  · intro j hj
    rw [jobs_dismiss] at hj
    rcases List.mem_filter.mp hj with ⟨hMem, hOther⟩
    refine (mem_woken_setGate _).mpr (Or.inl ?_)
    exact List.mem_filter.mpr ⟨h.awake j hMem, hOther⟩

/- Whoever is served leaves without a call. -/
theorem serve_eq
    (h : c.Roused)
    (visit : Nat → σ → τ → Visit τ ω × σ)
    (j : Job τ ω) :
    c.serve visit j = (c.dismiss j.number, some .canceled) :=
  if_pos h.canceled

end Roused

------------------------------------------------------------
-- The clock and the world
------------------------------------------------------------

/-
  Serving a job takes no time, and the world stays as it is
  unless the job begins its call.
-/
theorem Served.clock
    {visit : Nat → σ → τ → Visit τ ω × σ}
    {c c' : Crew σ τ ω}
    {j : Job τ ω}
    {e : Option (Ending ω)}
    (hServed : Served visit c j (c', e)) :
    c'.now = c.now
      ∧ c'.cancelAt = c.cancelAt
      ∧ (c'.world = c.world
          ∨ c'.world = (visit c.now c.world j.task).2) := by
  cases hServed with
  | canceled _ | refused _ _ | overdue _ _ | done _ _ _ _ =>
      exact
        ⟨now_dismiss c _, cancelAt_dismiss c _,
          Or.inl (world_dismiss c _)⟩
  | rests _ _ | asks _ => exact ⟨rfl, rfl, Or.inl rfl⟩
  | begins _ _ =>
      rw [begin_eq]
      exact ⟨rfl, rfl, Or.inr rfl⟩
  | sleeps _ _ =>
      rw [sleep_eq]
      exact ⟨rfl, rfl, Or.inl rfl⟩
  | again _ _ _ _ =>
      exact
        ⟨now_setGate c _, cancelAt_setGate c _,
          Or.inl (world_setGate c _)⟩

end Crew

end TradeTape
