import Mathlib.Data.List.Count
import Mathlib.Data.List.Perm.Subperm
import TradeTape.Proofs.Crew.Soundness

/-
  Calls in flight.

  The number in flight at the gate of a crew is the number of
  its jobs that are in a call.  Nobody waits for a permit as
  long as there is one for each job.  A request is admitted
  when a job begins its call, and at no other time.

  Key statements include:
    * `Gate.Steady.admitted_leave`
    * `Gate.admitted_enter`
    * `Crew.Sound.inFlight_eq`
    * `Crew.Sound.phase?_ne_waiting`
    * `Crew.served_gate`
-/

namespace TradeTape

------------------------------------------------------------
-- Requests that are admitted
------------------------------------------------------------

namespace Gate

/- Only counting a request admits it. -/
theorem admitted_apply
    (g : Gate)
    {m : Move}
    (hOther : ∀ n, m ≠ .count n) :
    (g.apply m).admitted = g.admitted := by
  unfold apply
  cases hMove : g.move? m with
  | none => rfl
  | some g' =>
      cases moves_of_move? hMove with
      | count => exact absurd rfl (hOther _)
      | ask | grant | acquire | raise | record | exit | release
      | withdraw | giveBack | turnAway | close => rfl

theorem admitted_applyAll
    (g : Gate)
    {moves : List Move}
    (hOther : ∀ n, .count n ∉ moves) :
    (g.applyAll moves).admitted = g.admitted := by
  induction moves generalizing g with
  | nil => rfl
  | cons m rest ih =>
      have hRest : ∀ n, .count n ∉ rest := by
        intro n hn
        exact hOther n (List.mem_cons_of_mem m hn)
      have hFirst : ∀ n, m ≠ .count n := by
        intro n hn
        exact hOther n (hn ▸ List.mem_cons_self)
      exact (ih (g.apply m) hRest).trans (g.admitted_apply hFirst)

theorem admitted_grant (g : Gate) : g.grant.admitted = g.admitted := by
  unfold grant
  split
  · apply admitted_apply
    intro n hn
    cases hn
  · rfl

theorem admitted_ask
    (g : Gate)
    (n : Nat) :
    (g.ask n).admitted = g.admitted := by
  refine (admitted_grant _).trans (g.admitted_apply ?_)
  intro m hm
  cases hm

/- A request that goes in is admitted once. -/
theorem admitted_enter
    {g : Gate}
    {n : Nat}
    (hGranted : g.phase? n = some .granted) :
    (g.enter n).admitted = g.admitted + 1 := by
  let held := g.setPhase n .holding
  have hAcquire : g.apply (.acquire n) = held :=
    apply_eq (if_pos hGranted)
  have hHolding : held.phase? n = some .holding := by
    rw [phase?_setPhase, hGranted]
    exact if_pos rfl
  let counted :=
    { held.setPhase n .counted with admitted := held.admitted + 1 }
  have hCount : held.apply (.count n) = counted :=
    apply_eq (if_pos hHolding)
  have hEnter :
      g.enter n = counted.applyAll [.raise n, .record n] := by
    rw [← hCount, ← hAcquire]
    rfl
  rw [hEnter, admitted_applyAll _ (by simp)]
  rfl

/- A request that leaves is not admitted again. -/
theorem Steady.admitted_leave
    {g : Gate}
    (h : g.Steady)
    (n : Nat) :
    (g.leave n).admitted = g.admitted := by
  refine (admitted_grant _).trans (g.admitted_applyAll ?_)
  intro m
  cases hPhase : g.phase? n with
  | none => exact List.not_mem_nil
  | some p =>
      have hSettled := h.settled n p hPhase
      cases p with
      | waiting | granted | inside => simp [Gate.farewell]
      | refused | holding | counted | raised _ | leaving =>
          exact hSettled.elim

end Gate

------------------------------------------------------------
-- Jobs in a call
------------------------------------------------------------

/- A job whose call is in flight. -/
def Job.OnCall
    {τ ω : Type}
    (j : Job τ ω) : Prop :=
  match j.stage with
  | .calling _ _ => True
  | _ => False

instance {τ ω : Type} (j : Job τ ω) : Decidable j.OnCall := by
  unfold Job.OnCall
  cases j.stage <;> infer_instance

namespace Crew

variable {σ τ ω : Type}

/- The jobs whose calls are in flight. -/
def onCall (c : Crew σ τ ω) : List (Job τ ω) :=
  c.jobs.filter fun j => j.OnCall

namespace Sound

variable {c : Crew σ τ ω}

/- A job is in a call if its request is inside, and only then. -/
theorem onCall_iff
    (h : c.Sound)
    {j : Job τ ω}
    (hj : j ∈ c.jobs) :
    j.OnCall ↔ c.gate.phase? j.number = some .inside := by
  have hStage := (h.jobs j hj).stage
  unfold StageOk at hStage
  unfold Job.OnCall
  cases hCase : j.stage with
  | resting _ | ready =>
      rw [hCase] at hStage
      simp [hStage]
  | queued =>
      rw [hCase] at hStage
      rcases hStage with hPhase | hPhase <;> simp [hPhase]
  | calling next due =>
      rw [hCase] at hStage
      simp [hStage.1]

/- The numbers of requests are numbers of jobs. -/
theorem numbers_subset (h : c.Sound) :
    c.gate.numbers ⊆ c.jobs.map Job.number := by
  intro n hn
  have hSome : c.gate.phase? n ≠ none := by
    intro hNone
    exact (c.gate.phase?_eq_none_iff n).mp hNone hn
  rcases h.requests n hSome with ⟨j, hj, rfl⟩
  exact List.mem_map_of_mem hj

theorem length_requests_le (h : c.Sound) :
    c.gate.requests.length ≤ c.jobs.length := by
  have hLe :=
    (List.subperm_of_subset h.gate.sound.distinct
      h.numbers_subset).length_le
  unfold Gate.numbers at hLe
  rw [List.length_map, List.length_map] at hLe
  exact hLe

/- The gate counts as in flight who is in a call. -/
theorem inFlight_eq (h : c.Sound) :
    c.gate.inFlight = c.onCall.length := by
  have hDistinct := h.gate.sound.distinct
  let flying :=
    c.gate.requests.filter fun r => decide r.phase.InFlight
  have hPerm :
      (flying.map Gate.Request.number).Perm
        (c.onCall.map Job.number) := by
    refine (List.perm_ext_iff_of_nodup ?_ ?_).mpr ?_
    · exact hDistinct.sublist (List.filter_sublist.map _)
    · exact h.distinct.sublist (List.filter_sublist.map _)
    · intro n
      constructor
      · intro hn
        rcases List.mem_map.mp hn with ⟨r, hr, rfl⟩
        rcases List.mem_filter.mp hr with ⟨hMem, hFlight⟩
        have hPhase := Gate.phase?_of_mem hDistinct hMem
        -- Between passages only who is inside is in flight.
        have hInside : r.phase = .inside := by
          have hSettled := h.gate.settled _ _ hPhase
          have hIs := of_decide_eq_true hFlight
          cases hCase : r.phase <;> rw [hCase] at hSettled hIs <;>
            first | rfl | exact hSettled.elim | exact hIs.elim
        rw [hInside] at hPhase
        rcases h.requests r.number (by simp [hPhase]) with
          ⟨j, hj, hNumber⟩
        rw [← hNumber] at hPhase ⊢
        refine List.mem_map_of_mem ?_
        exact
          List.mem_filter.mpr
            ⟨hj, decide_eq_true ((h.onCall_iff hj).mpr hPhase)⟩
      · intro hn
        rcases List.mem_map.mp hn with ⟨j, hj, rfl⟩
        rcases List.mem_filter.mp hj with ⟨hMem, hOnCall⟩
        have hPhase :=
          (h.onCall_iff hMem).mp (of_decide_eq_true hOnCall)
        have hRequest := Gate.mem_of_phase? hPhase
        exact
          List.mem_map.mpr
            ⟨_, List.mem_filter.mpr ⟨hRequest, rfl⟩, rfl⟩
  have hLength := hPerm.length_eq
  rw [List.length_map, List.length_map] at hLength
  rw [h.gate.sound.flying, ← hLength]
  exact List.countP_eq_length_filter

/- Nobody waits while there is a permit for each job. -/
theorem phase?_ne_waiting
    (h : c.Sound)
    (hRoom : c.jobs.length ≤ c.gate.ceiling)
    (n : Nat) :
    c.gate.phase? n ≠ some .waiting := by
  intro hWaiting
  have hNone := h.gate.tight n hWaiting
  have hPermits := h.gate.sound.permits
  have hRequests := h.length_requests_le
  -- One request has no permit, so fewer permits are out.
  have hLess : c.gate.held < c.gate.requests.length := by
    refine List.countP_lt_length_iff.mpr ?_
    exact ⟨_, Gate.mem_of_phase? hWaiting, rfl⟩
  omega

end Sound

------------------------------------------------------------
-- What serving does to the gate and the world
------------------------------------------------------------

/-
  A job that is served begins a call, which is admitted and
  changes the world, or nothing of this happens.
-/
theorem served_gate
    {visit : Nat → σ → τ → Visit τ ω × σ}
    {c c' : Crew σ τ ω}
    {j : Job τ ω}
    {e : Option (Ending ω)}
    (h : c.Sound)
    (hServed : Served visit c j (c', e)) :
    c'.gate.ceiling = c.gate.ceiling
      ∧ ((c'.gate.admitted = c.gate.admitted + 1
            ∧ c'.world = (visit c.now c.world j.task).2)
          ∨ (c'.gate.admitted = c.gate.admitted
            ∧ c'.world = c.world)) := by
  -- Whoever leaves takes nothing but its request away.
  have hDismiss :
      (c.dismiss j.number).gate.ceiling = c.gate.ceiling
        ∧ (c.dismiss j.number).gate.admitted = c.gate.admitted
        ∧ (c.dismiss j.number).world = c.world := by
    rw [gate_dismiss, world_dismiss, Gate.ceiling_leave]
    exact ⟨rfl, h.gate.admitted_leave j.number, rfl⟩
  cases hServed with
  | canceled _ | refused _ _ | overdue _ _ | done _ _ _ _ =>
      exact ⟨hDismiss.1, Or.inr hDismiss.2⟩
  | rests ms _ => exact ⟨rfl, Or.inr ⟨rfl, rfl⟩⟩
  | asks _ =>
      exact
        ⟨Gate.ceiling_ask c.gate j.number,
          Or.inr ⟨c.gate.admitted_ask j.number, rfl⟩⟩
  | begins _ hGranted =>
      rw [begin_eq]
      exact
        ⟨Gate.ceiling_enter c.gate j.number,
          Or.inl ⟨Gate.admitted_enter hGranted, rfl⟩⟩
  | sleeps _ _ =>
      rw [sleep_eq]
      exact ⟨rfl, Or.inr ⟨rfl, rfl⟩⟩
  | again task _ _ _ =>
      have hGate : (c.again j task).gate = c.gate.leave j.number :=
        gate_setGate c _
      rw [hGate, Gate.ceiling_leave]
      exact
        ⟨rfl,
          Or.inr
            ⟨h.gate.admitted_leave j.number, world_setGate c _⟩⟩

end Crew

end TradeTape
