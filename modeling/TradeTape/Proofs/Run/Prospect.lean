import Mathlib.Algebra.Module.Submodule.Lattice
import Mathlib.Computability.Primrec.List
import Mathlib.Computability.TuringMachine.StackTuringMachine
import Mathlib.Data.List.Permutation
import TradeTape.Proofs.Crew.Toil
import TradeTape.Proofs.Run.Moves
import TradeTape.Proofs.Walk.Steps

/-
  What can be said of walks, look-ups and sinks alone, and
  what then holds of the jobs of a run.

  A prospect names what holds of a walk on its way, of what a
  walk ends with, of what a look-up finds and of what a sink
  answers.  It asks for nothing but what a venue and a sink
  do by themselves, so it can be checked without a run.  Jobs
  of a run keep to it, however they are interleaved.

  The modules of the library that are imported state the
  equations of look-ups, options and pairs by which runs on
  fixed inputs are evaluated.

  Key statements include:
    * `Prospect`
    * `Prospect.JobOk`
    * `Prospect.nextOk_visit`
    * `Prospect.served_none`
    * `Prospect.served_some`
-/

namespace TradeTape

/-
  The office of runs over tapes, with settings and a sink, and
  with the timer of the venue.
-/
def TapeVenue.office
    {κ : Type}
    (v : TapeVenue)
    (s : Settings)
    (reference : Option Int)
    (sink : Sink κ) : Office Nat κ :=
  { settings := s
    reference := reference
    venue := v.toVenue
    sink := sink
    timer := v.timer }

------------------------------------------------------------
-- Prospects
------------------------------------------------------------

/-
  What is known of an office: of walks on their way, of what
  ends them, of what is found and of what is answered.  A run
  may be canceled only if that is allowed for.
-/
structure Prospect
    {σ κ : Type}
    (o : Office σ κ)
    (cancels : Prop) where
  OnWay : Walk → Prop
  Ends : String → Window → Except Fault Haul → Prop
  Found : String → Int → Except Fault (Option Int) → Prop
  Holds : Depot κ → Prop
  Answered : Result → Except String Stored → Prop
  starts :
    ∀ name w,
      OnWay
        (Walk.start (WalkRules.ofSettings o.settings) name w)
  goesOn :
    ∀ s w w',
      OnWay w →
      w.answer (o.venue.page s w.query).1.result = .asks w' →
      OnWay w'
  ends :
    ∀ s w r,
      OnWay w →
      w.answer (o.venue.page s w.query).1.result = .ends r →
      Ends w.instrument w.whole r
  finds :
    ∀ s name endMs,
      Found name endMs (o.venue.latest s name endMs).1.result
  canceled :
    cancels →
      ∀ name w, Ends name w (.error Fault.runCanceled)
  lookupCanceled :
    cancels →
      ∀ name endMs, Found name endMs (.error Fault.runCanceled)
  overdue :
    ∀ ms,
      o.settings.taskTimeoutMs = some ms →
      ∀ name w,
        Ends name w
          (.error (Fault.overdue (name ++ " " ++ w.text) ms))
  keeps :
    ∀ depot result,
      Holds depot →
      Holds (depot.keep o.sink result).2
        ∧ Answered result (depot.keep o.sink result).1

namespace Prospect

variable {σ κ : Type} {o : Office σ κ} {cancels : Prop}
variable (p : Prospect o cancels)

------------------------------------------------------------
-- Jobs
------------------------------------------------------------

/- A task that has calls left. -/
def TaskOk : Errand → Prop
  | .lookup _ _ => True
  | .walk w =>
      p.OnWay w
        ∧ w.rules = WalkRules.ofSettings o.settings
        ∧ w.requests < w.rules.maxPages

/- What a task may bring home. -/
def FindOk : Errand → Find → Prop
  | .lookup name endMs, .latest r => p.Found name endMs r
  | .walk w, .haul r => p.Ends w.instrument w.whole r
  | _, _ => False

/- A walk that is over the same window as another one. -/
def Continues : Errand → Errand → Prop
  | .walk w, .walk w' =>
      w'.instrument = w.instrument ∧ w'.whole = w.whole
  | _, _ => False

/- What a task may go on with after a call. -/
def NextOk
    (task : Errand) : Errand ⊕ Find → Prop
  | .inl next => Continues task next ∧ p.TaskOk next
  | .inr f => p.FindOk task f

/- The time that a task is given. -/
def patienceFor
    (s : Settings) : Errand → Option Nat
  | .lookup _ _ => none
  | .walk _ => s.taskTimeoutMs

structure JobOk (j : Job Errand Find) : Prop where
  task : p.TaskOk j.task
  patience : j.patience = patienceFor o.settings j.task
  next :
    ∀ next due,
      j.stage = .calling next due → p.NextOk j.task next

variable {p}

theorem Continues.patienceFor_eq
    {task next : Errand}
    (h : Continues task next)
    (s : Settings) :
    patienceFor s next = patienceFor s task := by
  cases task <;> cases next <;> first | rfl | exact h.elim

theorem TaskOk.calls_pos
    {task : Errand}
    (h : p.TaskOk task) :
    0 < task.calls := by
  cases task with
  | lookup name endMs => exact Nat.one_pos
  | walk w => exact Nat.sub_pos_of_lt h.2.2

/- A call leads to what the prospect says. -/
theorem nextOk_visit
    {task : Errand}
    (hTask : p.TaskOk task)
    (now : Nat)
    (s : World σ) :
    p.NextOk task (Errand.visit o.venue now s task).1.next
      ∧ ∀ next,
          (Errand.visit o.venue now s task).1.next = .inl next →
            next.calls < task.calls := by
  cases task with
  | lookup name endMs =>
      refine ⟨p.finds s.venue name endMs, ?_⟩
      intro next hNext
      cases hNext
  | walk w =>
      rcases hTask with ⟨hOnWay, hRules, hAllowed⟩
      change
        p.NextOk (.walk w)
            (Errand.afterPage w
              (o.venue.page s.venue w.query).1.result)
          ∧ ∀ next,
              Errand.afterPage w
                  (o.venue.page s.venue w.query).1.result
                = .inl next →
                next.calls < w.allowance
      unfold Errand.afterPage
      cases hAnswer :
          w.answer (o.venue.page s.venue w.query).1.result with
      | asks w' =>
          rcases Walk.asks_of_answer hAnswer with
            ⟨hInstrument, hWhole, hSame, hCount, hMore⟩
          refine ⟨⟨⟨hInstrument, hWhole⟩, ?_⟩, ?_⟩
          · refine
              ⟨p.goesOn s.venue w w' hOnWay hAnswer,
                hSame.trans hRules, ?_⟩
            rw [hCount, hSame]
            exact hMore
          · intro next hNext
            cases hNext
            change w'.allowance < w.allowance
            unfold Walk.allowance
            rw [hCount, hSame]
            omega
      | ends r =>
          refine ⟨p.ends s.venue w r hOnWay hAnswer, ?_⟩
          intro next hNext
          cases hNext

------------------------------------------------------------
-- Serving a job
------------------------------------------------------------

section Serving

variable {c : Crew (World σ) Errand Find} {j : Job Errand Find}

/-
  A job that is served and does not end has a new form that
  is as good, and nothing else is done to the list of jobs.
-/
theorem served_none
    (hJob : p.JobOk j)
    {c' : Crew (World σ) Errand Find}
    (hServed :
      Crew.Served (Errand.visit o.venue) c j (c', none)) :
    ∃ job : Job Errand Find,
      job.number = j.number
        ∧ job.group = j.group
        ∧ (job.task = j.task ∨ Continues j.task job.task)
        ∧ c'.jobs = Crew.updated c.jobs job
        ∧ c'.cancelAt = c.cancelAt
        ∧ p.JobOk job := by
  cases hServed with
  | rests ms hStage =>
      refine
        ⟨{ j with stage := .ready }, rfl, rfl, Or.inl rfl, rfl, rfl,
          { hJob with next := ?_ }⟩
      intro next due hCalling
      cases hCalling
  | asks hStage =>
      refine
        ⟨{ j with stage := .queued }, rfl, rfl, Or.inl rfl, rfl, rfl,
          { hJob with next := ?_ }⟩
      intro next due hCalling
      cases hCalling
  | begins hStage hGranted =>
      rw [Crew.begin_eq]
      refine
        ⟨c.inCall (Errand.visit o.venue) j, rfl, rfl, Or.inl rfl,
          rfl, rfl, { hJob with next := ?_ }⟩
      intro next due hCalling
      cases hCalling
      exact (nextOk_visit hJob.task c.now c.world).1
  | sleeps hHeldUp hLimit =>
      rw [Crew.sleep_eq]
      exact
        ⟨{ j with deadline := c.limit j }, rfl, rfl, Or.inl rfl, rfl,
          rfl, { hJob with next := hJob.next }⟩
  | again task due hStage hDue =>
      rcases hJob.next _ _ hStage with ⟨hContinues, hTask⟩
      refine
        ⟨{ j with task := task, stage := .ready }, rfl, rfl,
          Or.inr hContinues,
          congrArg (Crew.updated · _) (Crew.jobs_setGate c _),
          Crew.cancelAt_setGate c _,
          { task := hTask
            patience :=
              hJob.patience.trans
                (hContinues.patienceFor_eq o.settings).symm
            next := ?_ }⟩
      intro next due hCalling
      cases hCalling

/- A job that ends is gone, with a find that is as good. -/
theorem served_some
    (hCrew : c.Sound)
    (hCancel : c.cancelAt ≠ none → cancels)
    (hMem : j ∈ c.jobs)
    (hJob : p.JobOk j)
    {c' : Crew (World σ) Errand Find}
    {e : Ending Find}
    (hServed :
      Crew.Served (Errand.visit o.venue) c j (c', some e)) :
    c'.jobs = Crew.without c.jobs j.number
      ∧ c'.cancelAt = c.cancelAt
      ∧ p.FindOk j.task (findOf j e) := by
  cases hServed with
  | canceled hCanceled =>
      refine
        ⟨Crew.jobs_dismiss c _, Crew.cancelAt_dismiss c _, ?_⟩
      have hAllowed : cancels := by
        apply hCancel
        intro hNone
        unfold Crew.Canceled at hCanceled
        rw [hNone] at hCanceled
        exact hCanceled
      unfold findOf
      cases j.task with
      | lookup name endMs =>
          exact p.lookupCanceled hAllowed name endMs
      | walk w => exact p.canceled hAllowed w.instrument w.whole
  | refused hStage hRefused =>
      exact (hCrew.gate.settled _ _ hRefused).elim
  | overdue hHeldUp hLimit =>
      refine
        ⟨Crew.jobs_dismiss c _, Crew.cancelAt_dismiss c _, ?_⟩
      cases hPatience : j.patience with
      | none =>
          have hNoDeadline : j.deadline = none := by
            by_contra hSome
            exact (hCrew.jobs j hMem).deadline hSome hPatience
          unfold Crew.limit at hLimit
          rw [hNoDeadline, hPatience] at hLimit
          exact hLimit.elim
      | some ms =>
          have hGiven := hJob.patience
          rw [hPatience] at hGiven
          unfold findOf
          rw [hPatience]
          cases hTask : j.task with
          | lookup name endMs =>
              rw [hTask] at hGiven
              cases hGiven
          | walk w =>
              rw [hTask] at hGiven
              exact p.overdue ms hGiven.symm w.instrument w.whole
  | done f due hStage hDue =>
      exact
        ⟨Crew.jobs_dismiss c _, Crew.cancelAt_dismiss c _,
          hJob.next _ _ hStage⟩

end Serving

end Prospect

end TradeTape
