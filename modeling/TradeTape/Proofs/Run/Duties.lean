import TradeTape.Proofs.Run.Prospect

/-
  The duties of a desk: what its jobs were hired for.

  A job keeps its duty for as long as it is in work, whatever
  it asks for in between.  So the duties of a desk change only
  when a job is hired for it or ends.

  Key statements include:
    * `Errand.duty`
    * `Crew.duties`
    * `Crew.exists_split`
    * `Crew.duties_updated`
    * `Crew.duties_without`
-/

namespace TradeTape

------------------------------------------------------------
-- Duties
------------------------------------------------------------

/- What a job is hired for. -/
inductive Duty where
  | lookup (instrument : String) (endMs : Int)
  | walk (instrument : String) (w : Window)
deriving DecidableEq

/- The duty of a task, which stays when a walk goes on. -/
def Errand.duty : Errand → Duty
  | .lookup instrument endMs => .lookup instrument endMs
  | .walk w => .walk w.instrument w.whole

theorem Prospect.Continues.duty_eq
    {task next : Errand}
    (h : Prospect.Continues task next) :
    next.duty = task.duty := by
  cases task with
  | lookup _ _ => cases next <;> exact h.elim
  | walk w =>
      cases next with
      | lookup _ _ => exact h.elim
      | walk w' =>
          exact congrArg₂ Duty.walk h.1 h.2

/- Being served does not change what a job is hired for. -/
theorem Prospect.duty_eq_of_served
    {task next : Errand}
    (hTask : next = task ∨ Prospect.Continues task next) :
    next.duty = task.duty := by
  rcases hTask with hSame | hContinues
  · rw [hSame]
  · exact hContinues.duty_eq

namespace Crew

variable {σ : Type}

/- The duties of the jobs of a desk. -/
def duties
    (jobs : List (Job Errand Find))
    (position : Nat) : List Duty :=
  (jobs.filter fun j => j.group = position).map fun j =>
    j.task.duty

theorem ofGroup_eq_nil_iff
    {c : Crew σ Errand Find}
    {position : Nat} :
    c.ofGroup position = [] ↔ duties c.jobs position = [] := by
  unfold duties ofGroup
  rw [List.map_eq_nil_iff]

variable {jobs : List (Job Errand Find)}

theorem duties_append
    (more : List (Job Errand Find))
    (position : Nat) :
    duties (jobs ++ more) position =
      duties jobs position ++ duties more position := by
  simp [duties]

theorem duties_singleton
    (j : Job Errand Find)
    (position : Nat) :
    duties [j] position =
      if j.group = position then [j.task.duty] else [] := by
  unfold duties
  by_cases hGroup : j.group = position <;> simp [hGroup]

/- Nobody works at a desk that no job belongs to. -/
theorem duties_eq_nil
    {position : Nat}
    (hNone : ∀ j ∈ jobs, j.group ≠ position) :
    duties jobs position = [] := by
  unfold duties
  rw [List.map_eq_nil_iff, List.filter_eq_nil_iff]
  intro j hj hGroup
  exact hNone j hj (of_decide_eq_true hGroup)

/-
  A job among the others, where it is replaced by a new form
  and where it is left out.
-/
theorem exists_split
    (hDistinct : (jobs.map Job.number).Nodup)
    {j : Job Errand Find}
    (hj : j ∈ jobs) :
    ∃ before after,
      jobs = before ++ j :: after
        ∧ without jobs j.number = before ++ after
        ∧ ∀ job : Job Errand Find,
            job.number = j.number →
              updated jobs job = before ++ job :: after := by
  rcases List.append_of_mem hj with ⟨before, after, rfl⟩
  rw [List.map_append, List.map_cons,
    List.nodup_append] at hDistinct
  rcases hDistinct with ⟨_, hRest, hApart⟩
  have hBefore : ∀ i ∈ before, i.number ≠ j.number :=
    fun i hi =>
      hApart i.number (List.mem_map_of_mem hi) j.number
        List.mem_cons_self
  have hAfter : ∀ i ∈ after, i.number ≠ j.number :=
    fun i hi hEq =>
      (List.nodup_cons.mp hRest).1 (hEq ▸ List.mem_map_of_mem hi)
  refine ⟨before, after, rfl, ?_, ?_⟩
  · unfold without
    rw [List.filter_append, List.filter_cons,
      List.filter_eq_self.mpr fun i hi =>
        decide_eq_true (hBefore i hi),
      List.filter_eq_self.mpr fun i hi =>
        decide_eq_true (hAfter i hi)]
    simp
  · intro job hNumber
    have hKeep (others : List (Job Errand Find))
        (hOthers : ∀ i ∈ others, i.number ≠ j.number) :
        (others.map fun i =>
          if i.number = job.number then job else i) = others := by
      refine (List.map_congr_left ?_).trans (List.map_id others)
      intro i hi
      rw [hNumber]
      exact if_neg (hOthers i hi)
    unfold updated
    rw [List.map_append, List.map_cons, hKeep before hBefore,
      hKeep after hAfter, if_pos hNumber.symm]

theorem duties_split
    (before after : List (Job Errand Find))
    (j : Job Errand Find)
    (position : Nat) :
    duties (before ++ j :: after) position =
      duties before position
        ++ ((if j.group = position then [j.task.duty] else [])
          ++ duties after position) := by
  rw [← List.singleton_append, duties_append, duties_append,
    duties_singleton]

/- A new form of a job, with the same group and duty. -/
theorem duties_updated
    (hDistinct : (jobs.map Job.number).Nodup)
    {j job : Job Errand Find}
    (hj : j ∈ jobs)
    (hNumber : job.number = j.number)
    (hGroup : job.group = j.group)
    (hDuty : job.task.duty = j.task.duty)
    (position : Nat) :
    duties (updated jobs job) position = duties jobs position := by
  rcases exists_split hDistinct hj with
    ⟨before, after, hSplit, _, hUpdated⟩
  rw [hUpdated job hNumber, hSplit, duties_split, duties_split,
    hGroup, hDuty]

/- A job that is gone takes its duty away from its desk. -/
theorem duties_without
    (hDistinct : (jobs.map Job.number).Nodup)
    {j : Job Errand Find}
    (hj : j ∈ jobs)
    (position : Nat) :
    if j.group = position then
      (duties jobs position).Perm
        (j.task.duty :: duties (without jobs j.number) position)
    else
      duties (without jobs j.number) position
        = duties jobs position := by
  rcases exists_split hDistinct hj with
    ⟨before, after, hSplit, hWithout, _⟩
  rw [hWithout, hSplit, duties_split, duties_append]
  split
  · exact List.perm_middle
  · rfl

end Crew

end TradeTape
