import TradeTape.Proofs.Crew.Cancellation
import TradeTape.Proofs.Run.Completion
import TradeTape.Proofs.Run.Journal

/-
  A run that is canceled, and the same run if it was not.

  Both make the same steps until the instant at which one of
  them is canceled.  There they part: that one serves all its
  jobs at this instant, and whatever the other one does comes
  then or later.

  Key statements include:
    * `Run.Passes`
    * `Run.passes_advance`
    * `Run.step_uncanceled`
    * `Run.exists_parting`
-/

namespace TradeTape

namespace Run

variable {σ κ : Type} {o : Office σ κ}

------------------------------------------------------------
-- Time passes
------------------------------------------------------------

/-
  What comes to pass between two states of a run lies between
  their instants.  Calls are written down in front of those
  that were made before.
-/
structure Passes
    (r : Run σ κ)
    (news : List Note)
    (r' : Run σ κ) : Prop where
  now : r.crew.now ≤ r'.crew.now
  notes :
    ∀ n ∈ news, r.crew.now ≤ n.instant ∧ n.instant ≤ r'.crew.now
  calls :
    ∃ more,
      r'.crew.world.calls = more ++ r.crew.world.calls
        ∧ ∀ call ∈ more,
          r.crew.now ≤ call.1 ∧ call.1 ≤ r'.crew.now

theorem Passes.refl (r : Run σ κ) : Passes r [] r :=
  { now := Nat.le_refl _
    notes := List.forall_mem_nil _
    calls := ⟨[], rfl, List.forall_mem_nil _⟩ }

theorem Passes.trans
    {r r' r'' : Run σ κ}
    {news more : List Note}
    (h : Passes r news r')
    (hThen : Passes r' more r'') :
    Passes r (news ++ more) r'' := by
  have hBefore := h.now
  have hAfter := hThen.now
  refine { now := hBefore.trans hAfter, notes := ?_, calls := ?_ }
  · intro n hn
    rcases List.mem_append.mp hn with hOld | hNew
    · have hBounds := h.notes n hOld
      omega
    · have hBounds := hThen.notes n hNew
      omega
  · rcases h.calls with ⟨early, hEarly, hEarlyBounds⟩
    rcases hThen.calls with ⟨late, hLate, hLateBounds⟩
    refine ⟨late ++ early, ?_, ?_⟩
    · rw [hLate, hEarly, List.append_assoc]
    · intro call hCall
      rcases List.mem_append.mp hCall with hNew | hOld
      · have hBounds := hLateBounds call hNew
        omega
      · have hBounds := hEarlyBounds call hOld
        omega

/- What is written down at a desk is of the present instant. -/
theorem instant_of_mem_notes
    {r : Run σ κ}
    {position : Nat}
    {deeds : List Deed}
    {n : Note}
    (hn : n ∈ r.notes position deeds) :
    n.instant = r.crew.now := by
  rcases List.mem_map.mp hn with ⟨_, _, rfl⟩
  rfl

/- Work at a desk takes no time, and nobody is canceled by it. -/
theorem DeskTold.passes
    {r r' : Run σ κ}
    {d : Desk}
    {news : List Note}
    (h : DeskTold o r d news r') :
    Passes r news r'
      ∧ r'.crew.now = r.crew.now
      ∧ r'.crew.cancelAt = r.crew.cancelAt := by
  -- Where the crew makes no call, notes of now are all there is.
  have hStill
      (hNow : r'.crew.now = r.crew.now)
      (hNotes : ∀ n ∈ news, n.instant = r.crew.now)
      (hCalls :
        ∃ more,
          r'.crew.world.calls = more ++ r.crew.world.calls
            ∧ ∀ call ∈ more, call.1 = r.crew.now) :
      Passes r news r' := by
    rcases hCalls with ⟨more, hMore, hInstants⟩
    exact
      { now := Nat.le_of_eq hNow.symm
        notes := by
          intro n hn
          rw [hNow, hNotes n hn]
          exact ⟨Nat.le_refl _, Nat.le_refl _⟩
        calls := by
          refine ⟨more, hMore, ?_⟩
          intro call hCall
          rw [hNow, hInstants call hCall]
          exact ⟨Nat.le_refl _, Nat.le_refl _⟩ }
  cases h with
  | plans _ =>
      have hCrew :
          (planDesk o r d).crew.now = r.crew.now
            ∧ (planDesk o r d).crew.cancelAt = r.crew.cancelAt
            ∧ (planDesk o r d).crew.world = r.crew.world := by
        unfold planDesk
        simp only
        split <;> exact ⟨rfl, rfl, rfl⟩
      refine
        ⟨hStill hCrew.1 (List.forall_mem_nil _)
            ⟨[], ?_, List.forall_mem_nil _⟩,
          hCrew.1, hCrew.2.1⟩
      rw [hCrew.2.2]
      rfl
  | starts w rest _ =>
      exact
        ⟨hStill rfl (List.forall_mem_nil _)
            ⟨[], rfl, List.forall_mem_nil _⟩,
          rfl, rfl⟩
  | closes _ _ _ =>
      exact
        ⟨hStill rfl (fun _ hn => instant_of_mem_notes hn)
            ⟨[], rfl, List.forall_mem_nil _⟩,
          rfl, rfl⟩
  | serves j _ _ _ =>
      rcases hServe :
        r.crew.serve (Errand.visit o.venue) j with ⟨c, ending⟩
      have hServed := Crew.served (Errand.visit o.venue) r.crew j
      rw [hServe] at hServed
      rcases hServed.clock with ⟨hNow, hCancel, hWorld⟩
      have hCrew : (serve o r j).crew = c := by
        unfold serve
        rw [hServe]
        cases ending with
        | none => rfl
        | some e =>
            exact
              (takeFind_frame (o := o) (r := { r with crew := c }) j
                (findOf j e)).2.1
      have hNotes (n : Note) (hn : n ∈ serveDeeds o r j) :
          n.instant = r.crew.now := by
        unfold serveDeeds at hn
        rw [hServe] at hn
        cases ending with
        | none => exact absurd hn List.not_mem_nil
        | some e => exact instant_of_mem_notes hn
      have hCalls :
          ∃ more,
            c.world.calls = more ++ r.crew.world.calls
              ∧ ∀ call ∈ more, call.1 = r.crew.now := by
        rcases hWorld with hSame | hVisit
        · refine ⟨[], ?_, List.forall_mem_nil _⟩
          rw [hSame]
          rfl
        · rcases
            Errand.calls_visit o.venue r.crew.now r.crew.world
              j.task with
            ⟨call, hCall⟩
          refine ⟨[(r.crew.now, call)], ?_, ?_⟩
          · rw [hVisit, hCall]
            rfl
          · intro made hMade
            rw [List.mem_singleton.mp hMade]
      rw [hCrew]
      refine ⟨hStill ?_ hNotes ?_, hNow, hCancel⟩
      · rw [hCrew]
        exact hNow
      · rw [hCrew]
        exact hCalls

theorem Stepped.passes
    {r r' : Run σ κ}
    {news : List Note}
    (h : Stepped o r news r') :
    Passes r news r' := by
  cases h with
  | opens position i rest _ => exact { Passes.refl r with }
  | works d f news r' _ hWork => exact { hWork.passes.1 with }
  | waits t _ _ =>
      refine
        { now := (r.crew.le_now_advanceTo t).1
          notes := List.forall_mem_nil _
          calls :=
            ⟨[], ?_, List.forall_mem_nil _⟩ }
      exact congrArg World.calls (r.crew.world_advanceTo t)

/- So it is with any number of steps. -/
theorem passes_advance
    (o : Office σ κ)
    (n : Nat)
    (r : Run σ κ) :
    Passes r (advanceDeeds o n r) (advance o n r) := by
  induction n generalizing r with
  | zero => exact Passes.refl r
  | succ n ih =>
      cases hNext : step? o r with
      | none =>
          rcases advance_of_stuck hNext (n + 1) with ⟨hRun, hDeeds⟩
          rw [hRun, hDeeds]
          exact Passes.refl r
      | some r' =>
          rcases advance_succ hNext n with ⟨hRun, hDeeds⟩
          rw [hRun, hDeeds]
          exact (stepped_of_step? hNext).passes.trans (ih r')

------------------------------------------------------------
-- Runs that nobody cancels
------------------------------------------------------------

/- The run if nobody was going to cancel it. -/
def uncanceled (r : Run σ κ) : Run σ κ :=
  { r with crew := r.crew.uncanceled }

theorem planDesk_uncanceled
    (r : Run σ κ)
    (d : Desk) :
    planDesk o r.uncanceled d = (planDesk o r d).uncanceled := by
  unfold planDesk
  rcases d.plan o.settings o.reference with ⟨d', ask⟩
  cases ask <;> rfl

theorem takeFind_uncanceled
    (r : Run σ κ)
    (j : Job Errand Find)
    (f : Find) :
    takeFind o r.uncanceled j f = (takeFind o r j f).uncanceled := by
  have hDesk : r.uncanceled.deskAt? j.group = r.deskAt? j.group :=
    rfl
  unfold takeFind
  rw [hDesk]
  cases r.deskAt? j.group <;> cases j.task <;> cases f <;> rfl

section Steps

variable {r : Run σ κ}

theorem serve_uncanceled
    (hNot : ¬r.crew.Canceled)
    (j : Job Errand Find) :
    serve o r.uncanceled j = (serve o r j).uncanceled
      ∧ serveDeeds o r.uncanceled j = serveDeeds o r j := by
  have hServe :=
    Crew.serve_uncanceled (Errand.visit o.venue) hNot j
  have hCrew : r.uncanceled.crew = r.crew.uncanceled := rfl
  unfold serve serveDeeds
  rw [hCrew, hServe]
  rcases r.crew.serve (Errand.visit o.venue) j with ⟨c, ending⟩
  cases ending with
  | none => exact ⟨rfl, rfl⟩
  | some e =>
      exact ⟨takeFind_uncanceled { r with crew := c } j _, rfl⟩

theorem deskStep?_uncanceled
    (hNot : ¬r.crew.Canceled)
    (d : Desk) :
    deskStep? o r.uncanceled d = (deskStep? o r d).map uncanceled
      ∧ deskDeeds o r.uncanceled d = deskDeeds o r d := by
  have hStart : startable? o r.uncanceled d = startable? o r d :=
    rfl
  have hFirst :
      r.uncanceled.crew.firstWokenOf? d.position
        = r.crew.firstWokenOf? d.position :=
    rfl
  have hOwn :
      r.uncanceled.crew.ofGroup d.position
        = r.crew.ofGroup d.position :=
    rfl
  unfold deskStep? deskDeeds
  rw [hStart, hFirst, hOwn]
  by_cases hUntouched : d.Untouched
  · simp only [if_pos hUntouched, planDesk_uncanceled,
      Option.map_some, and_self]
  · simp only [if_neg hUntouched]
    cases startable? o r d with
    | some next => exact ⟨rfl, rfl⟩
    | none =>
        cases r.crew.firstWokenOf? d.position with
        | some j =>
            rcases serve_uncanceled (o := o) hNot j with
              ⟨hServe, hDeeds⟩
            exact ⟨congrArg some hServe, hDeeds⟩
        | none =>
            refine ⟨?_, rfl⟩
            simp only
            split <;> rfl

/- Work at a desk cancels nobody. -/
theorem not_canceled_of_deskStep?
    {r' : Run σ κ}
    {d : Desk}
    (hNot : ¬r.crew.Canceled)
    (hStep : deskStep? o r d = some r') :
    r'.crew.cancelAt = r.crew.cancelAt ∧ ¬r'.crew.Canceled := by
  rcases (deskTold_of_deskStep? hStep).passes with
    ⟨_, hNow, hCancel⟩
  refine ⟨hCancel, ?_⟩
  unfold Crew.Canceled
  rw [hNow, hCancel]
  exact hNot

end Steps

------------------------------------------------------------
-- Steps that are made together
------------------------------------------------------------

/-
  The next step of a run, which is made alike if nobody is
  going to cancel the run, and after which it goes on.
-/
structure Together
    (r : Run σ κ)
    (next next' : Option (Run σ κ))
    (deeds deeds' : List Note) : Prop where
  step : next' = next.map uncanceled
  news : deeds' = deeds
  goesOn :
    ∀ r',
      next = some r' →
        r'.crew.cancelAt = r.crew.cancelAt ∧ ¬r'.crew.Canceled

/-
  The step at which a run is canceled.  If nobody was going to
  cancel it, time would move on to this instant or a later
  one, or the run would be at its end.
-/
structure Apart
    (r : Run σ κ)
    (c : Nat)
    (next next' : Option (Run σ κ))
    (deeds deeds' : List Note) : Prop where
  step :
    next =
      some { r with crew := r.crew.advanceTo c, focus := none }
  later :
    ∀ r',
      next' = some r' →
        c ≤ r'.crew.now ∧ r'.crew.world = r.crew.world
  silent : deeds = []
  silent' : deeds' = []

section Parting

variable {r : Run σ κ} {c : Nat}

theorem turn_uncanceled
    (o : Office σ κ)
    (hCancel : r.crew.cancelAt = some c)
    (hNot : ¬r.crew.Canceled) :
    Together r (turn? o r) (turn? o r.uncanceled) (turnDeeds o r)
        (turnDeeds o r.uncanceled)
      ∨ Apart r c (turn? o r) (turn? o r.uncanceled) (turnDeeds o r)
        (turnDeeds o r.uncanceled) := by
  have hOpen : openable? o r.uncanceled = openable? o r := rfl
  have hNext : r.uncanceled.nextDesk? = r.nextDesk? := rfl
  have hCrew : r.uncanceled.crew = r.crew.uncanceled := rfl
  unfold turn? turnDeeds
  rw [hOpen, hNext, hCrew]
  cases openable? o r with
  | some next =>
      refine Or.inl { step := rfl, news := rfl, goesOn := ?_ }
      intro r' hOpened
      cases hOpened
      exact ⟨rfl, hNot⟩
  | none =>
      cases r.nextDesk? with
      | some d =>
          rcases
            deskStep?_uncanceled (o := o)
              (r := { r with focus := some d.position }) hNot d with
            ⟨hStep, hDeeds⟩
          exact
            Or.inl
              { step := hStep
                news := hDeeds
                goesOn := fun r' hDone =>
                  not_canceled_of_deskStep? (o := o)
                    (r := { r with focus := some d.position }) hNot
                    hDone }
      | none =>
          simp only
          rcases Crew.nextInstant?_cases hCancel hNot with
            ⟨hNone, hNone'⟩ | ⟨hNow, hLater⟩
              | ⟨s, hBefore, hSame, hSame'⟩
          · rw [hNone, hNone']
            exact
              Or.inl
                { step := rfl
                  news := rfl
                  goesOn := fun r' hNot => nomatch hNot }
          · rw [hNow]
            refine
              Or.inr
                { step := rfl
                  later := ?_
                  silent := rfl
                  silent' := rfl }
            intro r' hStep
            rcases Option.map_eq_some_iff.mp hStep with
              ⟨s, hInstant, rfl⟩
            exact
              ⟨(hLater s hInstant).trans
                  (Crew.le_now_advanceTo r.crew.uncanceled s).2,
                Crew.world_advanceTo r.crew.uncanceled s⟩
          · rcases Crew.advanceTo_uncanceled hCancel hNot hBefore with
              ⟨hAdvance, hStill⟩
            rw [hSame, hSame']
            refine
              Or.inl
                { step := ?_
                  news := rfl
                  goesOn := ?_ }
            · simp only [Option.map_some, hAdvance]
              rfl
            · intro r' hStep
              cases hStep
              exact ⟨r.crew.cancelAt_advanceTo s, hStill⟩

/-
  The next step of a run is made alike if nobody is going to
  cancel it, or it is the one at which they part.
-/
theorem step_uncanceled
    (o : Office σ κ)
    (hCancel : r.crew.cancelAt = some c)
    (hNot : ¬r.crew.Canceled) :
    Together r (step? o r) (step? o r.uncanceled) (stepDeeds o r)
        (stepDeeds o r.uncanceled)
      ∨ Apart r c (step? o r) (step? o r.uncanceled) (stepDeeds o r)
        (stepDeeds o r.uncanceled) := by
  have hDesk :
      r.uncanceled.focus.bind r.uncanceled.deskAt?
        = r.focus.bind r.deskAt? :=
    rfl
  unfold step? stepDeeds
  rw [hDesk]
  cases r.focus.bind r.deskAt? with
  | none => exact turn_uncanceled o hCancel hNot
  | some d =>
      rcases deskStep?_uncanceled (o := o) hNot d with
        ⟨hStep, hDeeds⟩
      simp only [Option.bind_some, hStep, hDeeds]
      cases hHere : deskStep? o r d with
      | none => exact turn_uncanceled o hCancel hNot
      | some r' =>
          refine Or.inl { step := rfl, news := rfl, goesOn := ?_ }
          intro r'' hSame
          cases hSame
          exact not_canceled_of_deskStep? hNot hHere

/-
  Within a number of steps a run comes to a state up to which
  all steps are made together.  There it cannot go on, or is
  about to be canceled, unless the steps are used up.
-/
theorem exists_parting
    (o : Office σ κ)
    (n : Nat)
    (hCancel : r.crew.cancelAt = some c)
    (hNot : ¬r.crew.Canceled) :
    ∃ k,
      let a := advance o k r
      advance o k r.uncanceled = a.uncanceled
        ∧ advanceDeeds o k r.uncanceled = advanceDeeds o k r
        ∧ a.crew.cancelAt = some c
        ∧ ¬a.crew.Canceled
        ∧ (k = n
            ∨ (step? o a = none ∧ step? o a.uncanceled = none)
            ∨ Apart a c (step? o a) (step? o a.uncanceled)
              (stepDeeds o a) (stepDeeds o a.uncanceled)) := by
  induction n generalizing r with
  | zero => exact ⟨0, rfl, rfl, hCancel, hNot, Or.inl rfl⟩
  | succ n ih =>
      rcases step_uncanceled o hCancel hNot with
        hTogether | hApart
      · cases hStep : step? o r with
        | none =>
            have hStuck := hTogether.step
            rw [hStep] at hStuck
            exact
              ⟨0, rfl, rfl, hCancel, hNot,
                Or.inr (Or.inl ⟨hStep, hStuck⟩)⟩
        | some r' =>
            have hStep' := hTogether.step
            rw [hStep] at hStep'
            rcases hTogether.goesOn r' hStep with ⟨hSame, hStill⟩
            rcases ih (hSame.trans hCancel) hStill with
              ⟨k, hRun, hDeeds, hCancel', hNot', hEnd⟩
            rcases advance_succ hStep k with ⟨hFirst, hFirstDeeds⟩
            rcases advance_succ hStep' k with ⟨hOther, hOtherDeeds⟩
            refine ⟨k + 1, ?_⟩
            simp only
            rw [hFirst, hFirstDeeds, hOther, hOtherDeeds, hDeeds,
              hTogether.news]
            refine ⟨hRun, rfl, hCancel', hNot', ?_⟩
            exact hEnd.imp_left (congrArg (· + 1))
      · exact
          ⟨0, rfl, rfl, hCancel, hNot, Or.inr (Or.inr hApart)⟩

end Parting

end Run

end TradeTape
