import TradeTape.Backfill.Run
import TradeTape.Proofs.Crew.Service

/-
  The moves of a run.

  A step attends to one desk, and which one it is depends on
  who was woken first.  None of that matters for what a run
  comes to, so a move may be made at any desk and for any job
  that is awake.  What every move preserves holds at the end
  of every run.

  Key statements include:
    * `Run.DeskMove`
    * `Run.Move`
    * `Run.move_of_step?`
    * `Run.Reaches`
    * `Run.reaches_toEnd`
-/

namespace TradeTape

/- A task makes one call, at the present instant. -/
theorem Errand.calls_visit
    {σ : Type}
    (v : Venue σ)
    (now : Nat)
    (s : World σ)
    (task : Errand) :
    ∃ call,
      (Errand.visit v now s task).2.calls = (now, call) :: s.calls := by
  cases task <;> exact ⟨_, rfl⟩

namespace Run

variable {σ κ : Type} {o : Office σ κ}

/- What may be done next at a desk. -/
inductive DeskMove
    (o : Office σ κ)
    (r : Run σ κ)
    (d : Desk) : Run σ κ → Prop where
  | plans
      (hUntouched : d.Untouched) :
      DeskMove o r d (planDesk o r d)
  | starts
      (w : Window)
      (rest : List Window)
      (hPending : d.pending = w :: rest) :
      DeskMove o r d (startWalk o r d w rest)
  | serves
      (j : Job Errand Find)
      (hJob : j ∈ r.crew.jobs)
      (hWoken : j.number ∈ r.crew.woken)
      (hGroup : j.group = d.position) :
      DeskMove o r d (serve o r j)
  | closes
      (hTouched : ¬d.Untouched)
      (hPending : d.pending = [])
      (hJobs : r.crew.ofGroup d.position = []) :
      DeskMove o r d (closeDesk o r d)

/- What may happen next in a run, in whatever order. -/
inductive Move
    (o : Office σ κ)
    (r : Run σ κ) : Run σ κ → Prop where
  | opens
      (position : Nat)
      (i : Instrument)
      (rest : List (Nat × Instrument))
      (hQueue : r.queue = (position, i) :: rest) :
      Move o r (openDesk { r with queue := rest } position i)
  | works
      (d : Desk)
      (r' : Run σ κ)
      (hDesk : d ∈ r.desks)
      (hWork : DeskMove o r d r') :
      Move o r r'
  | waits
      (t : Nat)
      (hNext : r.crew.nextInstant? = some t) :
      Move o r { r with crew := r.crew.advanceTo t }

------------------------------------------------------------
-- Steps are moves
------------------------------------------------------------

theorem mem_of_deskAt?
    {r : Run σ κ}
    {position : Nat}
    {d : Desk}
    (hDesk : r.deskAt? position = some d) :
    d ∈ r.desks ∧ d.position = position := by
  unfold deskAt? at hDesk
  have hPosition := List.find?_some hDesk
  exact
    ⟨List.mem_of_find?_eq_some hDesk,
      of_decide_eq_true hPosition⟩

theorem awake_of_firstWokenOf?
    {c : Crew (World σ) Errand Find}
    {group : Nat}
    {j : Job Errand Find}
    (hFirst : c.firstWokenOf? group = some j) :
    j ∈ c.jobs ∧ j.number ∈ c.woken ∧ j.group = group := by
  unfold Crew.firstWokenOf? at hFirst
  rcases List.exists_of_findSome?_eq_some hFirst with
    ⟨n, hn, hJob⟩
  rcases Option.filter_eq_some_iff.mp hJob with ⟨hJob, hGroup⟩
  rcases Crew.mem_of_job? hJob with ⟨hMem, hNumber⟩
  exact ⟨hMem, hNumber ▸ hn, of_decide_eq_true hGroup⟩

theorem startable?_eq_some
    {r : Run σ κ}
    {d : Desk}
    {w : Window}
    {rest : List Window}
    (hStart : startable? o r d = some (w, rest)) :
    d.pending = w :: rest := by
  unfold startable? at hStart
  split at hStart
  · cases hStart
  · rename_i v vs hPending
    split at hStart
    · cases hStart
      exact hPending
    · cases hStart

/- What the next step at a desk is, and when. -/
theorem deskStep?_cases
    {r r' : Run σ κ}
    {d : Desk}
    (hStep : deskStep? o r d = some r') :
    (d.Untouched ∧ r' = planDesk o r d)
      ∨ ¬d.Untouched
        ∧ ((∃ w rest,
              startable? o r d = some (w, rest)
                ∧ r' = startWalk o r d w rest)
            ∨ startable? o r d = none
              ∧ ((∃ j,
                    r.crew.firstWokenOf? d.position = some j
                      ∧ r' = serve o r j)
                  ∨ r.crew.firstWokenOf? d.position = none
                    ∧ d.pending = []
                    ∧ r.crew.ofGroup d.position = []
                    ∧ r' = closeDesk o r d)) := by
  unfold deskStep? at hStep
  by_cases hUntouched : d.Untouched
  · rw [if_pos hUntouched] at hStep
    cases hStep
    exact Or.inl ⟨hUntouched, rfl⟩
  · rw [if_neg hUntouched] at hStep
    refine Or.inr ⟨hUntouched, ?_⟩
    cases hStart : startable? o r d with
    | some next =>
        rcases next with ⟨w, rest⟩
        simp only [hStart, Option.some.injEq] at hStep
        exact Or.inl ⟨w, rest, rfl, hStep.symm⟩
    | none =>
        refine Or.inr ⟨rfl, ?_⟩
        cases hFirst : r.crew.firstWokenOf? d.position with
        | some j =>
            simp only [hStart, hFirst, Option.some.injEq] at hStep
            exact Or.inl ⟨j, rfl, hStep.symm⟩
        | none =>
            simp only [hStart, hFirst] at hStep
            split at hStep
            · rename_i hEmpty
              rw [Bool.and_eq_true, List.isEmpty_iff,
                List.isEmpty_iff] at hEmpty
              cases hStep
              exact Or.inr ⟨rfl, hEmpty.1, hEmpty.2, rfl⟩
            · cases hStep

theorem deskMove_of_deskStep?
    {r r' : Run σ κ}
    {d : Desk}
    (hStep : deskStep? o r d = some r') :
    DeskMove o r d r' := by
  rcases deskStep?_cases hStep with
    ⟨hUntouched, rfl⟩
      | ⟨hTouched, ⟨w, rest, hStart, rfl⟩
        | ⟨_, ⟨j, hFirst, rfl⟩ | ⟨_, hPending, hJobs, rfl⟩⟩⟩
  · exact DeskMove.plans hUntouched
  · exact DeskMove.starts w rest (startable?_eq_some hStart)
  · rcases awake_of_firstWokenOf? hFirst with
      ⟨hJob, hWoken, hGroup⟩
    exact DeskMove.serves j hJob hWoken hGroup
  · exact DeskMove.closes hTouched hPending hJobs

theorem mem_of_nextDesk?
    {r : Run σ κ}
    {d : Desk}
    (hNext : r.nextDesk? = some d) :
    d ∈ r.desks := by
  unfold nextDesk? at hNext
  split at hNext
  · exact (mem_of_deskAt? hNext).1
  · exact List.mem_of_find?_eq_some hNext

theorem queue_of_openable?
    {r : Run σ κ}
    {position : Nat}
    {i : Instrument}
    {rest : List (Nat × Instrument)}
    (hOpen : openable? o r = some ((position, i), rest)) :
    r.queue = (position, i) :: rest := by
  unfold openable? at hOpen
  split at hOpen
  · cases hOpen
  · rename_i hQueue
    split at hOpen
    · cases hOpen
      exact hQueue
    · cases hOpen

theorem move_of_turn?
    {r r' : Run σ κ}
    (hTurn : turn? o r = some r') :
    ∃ f, Move o { r with focus := f } r' := by
  unfold turn? at hTurn
  cases hOpen : openable? o r with
  | some next =>
      rcases next with ⟨⟨position, i⟩, rest⟩
      simp only [hOpen, Option.some.injEq] at hTurn
      rw [← hTurn]
      exact
        ⟨r.focus,
          Move.opens position i rest (queue_of_openable? hOpen)⟩
  | none =>
      cases hNext : r.nextDesk? with
      | some d =>
          simp only [hOpen, hNext] at hTurn
          have hDesk := mem_of_nextDesk? hNext
          exact
            ⟨some d.position,
              Move.works d r' hDesk (deskMove_of_deskStep? hTurn)⟩
      | none =>
          simp only [hOpen, hNext, Option.map_eq_some_iff] at hTurn
          rcases hTurn with ⟨t, hInstant, hEq⟩
          rw [← hEq]
          exact ⟨none, Move.waits t hInstant⟩

/- A step is a move, made after turning to some desk. -/
theorem move_of_step?
    {r r' : Run σ κ}
    (hStep : step? o r = some r') :
    ∃ f, Move o { r with focus := f } r' := by
  unfold step? at hStep
  rcases Option.or_eq_some_iff.mp hStep with
    hFocus | ⟨_, hTurn⟩
  · rcases Option.bind_eq_some_iff.mp hFocus with
      ⟨d, hDesk, hStep⟩
    rcases Option.bind_eq_some_iff.mp hDesk with
      ⟨position, _, hDesk⟩
    exact
      ⟨r.focus,
        Move.works d r' (mem_of_deskAt? hDesk).1
          (deskMove_of_deskStep? hStep)⟩
  · exact move_of_turn? hTurn

------------------------------------------------------------
-- What moves lead to
------------------------------------------------------------

/-
  The runs that moves lead to, in whatever order they are
  made, with any turns to other desks in between.
-/
inductive Reaches
    (o : Office σ κ)
    (r : Run σ κ) : Run σ κ → Prop where
  | stays : Reaches o r r
  | turns
      {r' : Run σ κ}
      (f : Option Nat)
      (hReached : Reaches o r r') :
      Reaches o r { r' with focus := f }
  | moves
      {r' r'' : Run σ κ}
      (hReached : Reaches o r r')
      (hMove : Move o r' r'') :
      Reaches o r r''

theorem Reaches.advance
    {r r' : Run σ κ}
    (h : Reaches o r r')
    (n : Nat) :
    Reaches o r (advance o n r') := by
  induction n generalizing r' with
  | zero => exact h
  | succ n ih =>
      unfold Run.advance
      cases hNext : step? o r' with
      | none => exact h
      | some r'' =>
          rcases move_of_step? hNext with ⟨f, hMove⟩
          exact ih ((h.turns f).moves hMove)

theorem Reaches.rounds
    {r r' : Run σ κ}
    (h : Reaches o r r')
    (n : Nat) :
    Reaches o r (rounds o n r') := by
  induction n generalizing r' with
  | zero => exact h
  | succ n ih => exact ih (h.advance _)

/- The end of a run is one of the runs it can come to. -/
theorem reaches_toEnd
    (o : Office σ κ)
    (r : Run σ κ) :
    Reaches o r (toEnd o r) :=
  Reaches.stays.rounds _

end Run

end TradeTape
