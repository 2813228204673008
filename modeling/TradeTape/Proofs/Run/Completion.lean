import TradeTape.Proofs.Run.Progress

/-
  Every run comes to its end.

  Two numbers go down.  What is ahead of a run are the plans
  and the look-ups that are still to come, at most two for an
  instrument.  Between two of these its effort goes down with
  each step, so a round of as many steps as its effort ends
  at a run that cannot go on, or has less ahead of it.

  Key statements include:
    * `Run.ahead`
    * `Run.Nearer`
    * `Prospect.RunOk.nearer_move`
    * `Prospect.toEnd_stuck`
    * `Prospect.toEnd_done`
    * `Prospect.RunOk.files_of_done`
    * `Run.ends_toEnd`
-/

namespace TradeTape

------------------------------------------------------------
-- What is ahead
------------------------------------------------------------

namespace Desk

/- What is ahead of a desk: to plan, and to hear of a number. -/
def ahead (d : Desk) : Nat :=
  match d.life.state with
  | .discovered => 2
  | .planning => 1
  | _ => 0

/- The effort of a desk: its windows, and to close it. -/
def effort
    (s : Settings)
    (d : Desk) : Nat :=
  d.pending.length
      * (7 * (WalkRules.ofSettings s).maxPages + 7)
    + 1

theorem ahead_plan
    (s : Settings)
    (reference : Option Int)
    (position : Nat)
    (i : Instrument) :
    ((start position i).plan s reference).1.ahead ≤ 1 := by
  unfold plan
  simp only
  split
  · exact Nat.zero_le 1
  · exact Nat.zero_le 1
  · exact Nat.le_refl 1

end Desk

theorem total_eq_sum (counts : List Nat) :
    total counts = counts.sum := by
  induction counts with
  | nil => rfl
  | cons n rest ih =>
      unfold total
      rw [ih, List.sum_cons]

namespace Run

variable {σ κ : Type} {o : Office σ κ}

/- What is ahead of a run until the last plan is made. -/
def ahead (r : Run σ κ) : Nat :=
  2 * r.queue.length + (r.desks.map Desk.ahead).sum

theorem effort_eq
    (o : Office σ κ)
    (r : Run σ κ) :
    r.effort o =
      r.crew.toils Errand.calls
        + (r.desks.map (Desk.effort o.settings)).sum
        + 2 * r.queue.length := by
  unfold effort Crew.toils Desk.effort
  simp only [total_eq_sum]

/- Without effort there is nothing ahead either. -/
theorem ahead_eq_zero
    {r : Run σ κ}
    (hEffort : r.effort o = 0) :
    r.ahead = 0 := by
  rw [effort_eq] at hEffort
  have hQueue : r.queue.length = 0 := by omega
  have hDesks : r.desks = [] := by
    cases hList : r.desks with
    | nil => rfl
    | cons d rest =>
        rw [hList, List.map_cons, List.sum_cons] at hEffort
        unfold Desk.effort at hEffort
        omega
  unfold ahead
  rw [hQueue, hDesks]
  rfl

/- Less is ahead of a run, or no more and it has less effort. -/
def Nearer
    (o : Office σ κ)
    (r r' : Run σ κ) : Prop :=
  r'.ahead < r.ahead
    ∨ (r'.ahead ≤ r.ahead ∧ r'.effort o < r.effort o)

end Run

/- A sum over desks, one of which is taken out. -/
theorem sum_split
    (f : Desk → Nat)
    (before after : List Desk)
    (d : Desk) :
    ((before ++ d :: after).map f).sum
      = f d + ((before ++ after).map f).sum := by
  simp only [List.map_append, List.map_cons, List.sum_append,
    List.sum_cons]
  omega

------------------------------------------------------------
-- Moves use up effort
------------------------------------------------------------

namespace Prospect

variable {σ κ : Type} {o : Office σ κ} {cancels : Prop}
variable {p : Prospect o cancels}

namespace RunOk

variable {instruments : List Instrument}
variable {r r' : Run σ κ} {files : List (File κ)}

/- A job that is served leaves less to do for all jobs. -/
theorem toils_serve
    (h : p.RunOk instruments r files)
    {j : Job Errand Find}
    (hMem : j ∈ r.crew.jobs)
    (hWoken : j.number ∈ r.crew.woken) :
    (r.crew.serve (Errand.visit o.venue) j).1.toils Errand.calls
      < r.crew.toils Errand.calls := by
  have hTask := (h.jobs j hMem).task
  refine Crew.toils_serve h.crew hMem hWoken hTask.calls_pos ?_
  exact (nextOk_visit hTask r.crew.now r.crew.world).2

theorem nearer_serve
    (h : p.RunOk instruments r files)
    {j : Job Errand Find}
    (hMem : j ∈ r.crew.jobs)
    (hWoken : j.number ∈ r.crew.woken) :
    Run.Nearer o r (Run.serve o r j) := by
  have hLess := h.toils_serve hMem hWoken
  unfold Run.serve
  rcases hServe :
    r.crew.serve (Errand.visit o.venue) j with ⟨c, ending⟩
  rw [hServe] at hLess
  change
    c.toils Errand.calls < r.crew.toils Errand.calls at hLess
  cases ending with
  | none =>
      refine Or.inr ⟨Nat.le_refl _, ?_⟩
      simp only [Run.effort_eq]
      omega
  | some e =>
      rcases h.brought hMem hServe with ⟨d, hDesk, _, hBrought⟩
      rcases List.append_of_mem hDesk with ⟨before, after, hSplit⟩
      have hOk := h.desks d hDesk
      simp only
      generalize
        Run.takeFind o { r with crew := c } j (findOf j e) = r'
        at hBrought ⊢
      generalize findOf j e = f at hBrought
      cases hBrought with
      | latest name endMs found _ hDuty hFound =>
          -- The number was waited for, and a plan is made now.
          have hPosition :=
            Run.position_afterLookup o.settings d found
          rcases hOk.lookup hDuty with ⟨_, _, hPlanning, _⟩
          have hBefore : d.ahead = 1 := by
            rw [hPlanning]
            rfl
          have hAfter :
              (d.afterLookup o.settings found).ahead = 0 := by
            rw [hPlanning]
            cases found <;> rfl
          have hDesks :=
            desks_putDesk (r := { r with crew := c }) hSplit
              h.distinct hPosition
          refine Or.inl ?_
          unfold Run.ahead
          rw [hDesks, hSplit, sum_split, sum_split, hBefore,
            hAfter]
          change
            2 * r.queue.length + (0 + _)
              < 2 * r.queue.length + (1 + _)
          omega
      | haul w walked _ hDuty hEnds =>
          let d' :=
            (d.takeHaul o.settings o.sink r.depot w.whole walked).1
          have hPosition : d'.position = d.position :=
            Run.position_takeHaul o.settings o.sink r.depot d w.whole
              walked
          have hDesks :=
            desks_putDesk (r := { r with crew := c }) hSplit
              h.distinct hPosition
          have hAhead : d'.ahead = d.ahead := rfl
          have hEffort :
              d'.effort o.settings = d.effort o.settings :=
            rfl
          refine Or.inr ⟨?_, ?_⟩
          · unfold Run.ahead
            rw [hDesks, hSplit, sum_split, sum_split, hAhead]
            exact Nat.le_refl _
          · rw [Run.effort_eq, Run.effort_eq, hDesks, hSplit,
              sum_split, sum_split, hEffort]
            change
              c.toils Errand.calls + _ + 2 * r.queue.length
                < r.crew.toils Errand.calls + _
                  + 2 * r.queue.length
            omega

/- A plan that is made is no longer ahead. -/
theorem nearer_plan
    (h : p.RunOk instruments r files)
    {d : Desk}
    (hDesk : d ∈ r.desks)
    (hUntouched : d.Untouched) :
    Run.Nearer o r (Run.planDesk o r d) := by
  rcases List.append_of_mem hDesk with ⟨before, after, hSplit⟩
  rcases (h.desks d hDesk).untouched hUntouched with ⟨hStart, _⟩
  have hBefore : d.ahead = 2 := by
    rw [hStart]
    rfl
  have hAfter :
      (d.plan o.settings o.reference).1.ahead ≤ 1 := by
    rw [hStart]
    exact
      Desk.ahead_plan o.settings o.reference d.position
        d.instrument
  have hDesks :=
    desks_putDesk hSplit h.distinct
      (Run.position_plan o.settings o.reference d)
  have hSame :
      (Run.planDesk o r d).queue = r.queue
        ∧ (Run.planDesk o r d).desks
          = (r.putDesk (d.plan o.settings o.reference).1).desks := by
    unfold Run.planDesk
    simp only
    split <;> exact ⟨rfl, rfl⟩
  apply Or.inl
  unfold Run.ahead
  rw [hSame.1, hSame.2, hDesks, hSplit, sum_split, sum_split,
    hBefore]
  omega

/- A window that is started has been paid for by its desk. -/
theorem nearer_startWalk
    (h : p.RunOk instruments r files)
    {d : Desk}
    {w : Window}
    {rest : List Window}
    (hDesk : d ∈ r.desks)
    (hPending : d.pending = w :: rest) :
    Run.Nearer o r (Run.startWalk o r d w rest) := by
  rcases List.append_of_mem hDesk with ⟨before, after, hSplit⟩
  let d' : Desk := { d with pending := rest }
  let walk :=
    Walk.start (WalkRules.ofSettings o.settings) d.instrument.name w
  have hDesks :=
    desks_putDesk hSplit h.distinct (rfl : d'.position = d.position)
  have hHire :=
    @Crew.toils_hire _ _ _ Errand.calls _ h.crew d.position
      (.walk walk) o.settings.taskTimeoutMs
  have hCalls :
      Errand.calls (.walk walk)
        = (WalkRules.ofSettings o.settings).maxPages :=
    rfl
  have hEffort :
      d.effort o.settings
        = d'.effort o.settings
          + (7 * (WalkRules.ofSettings o.settings).maxPages
            + 7) := by
    unfold Desk.effort
    rw [hPending, List.length_cons, Nat.succ_mul]
    change rest.length * _ + _ + 1 = rest.length * _ + 1 + _
    omega
  rw [hCalls] at hHire
  refine Or.inr ⟨?_, ?_⟩
  · change
      2 * r.queue.length
          + ((r.putDesk d').desks.map Desk.ahead).sum
        ≤ 2 * r.queue.length + _
    rw [hDesks, hSplit, sum_split, sum_split]
    exact Nat.le_refl _
  · rw [Run.effort_eq, Run.effort_eq]
    change
      (r.crew.hire d.position (.walk walk)
            o.settings.taskTimeoutMs 0).toils Errand.calls
          + ((r.putDesk d').desks.map
              (Desk.effort o.settings)).sum
          + 2 * r.queue.length
        < r.crew.toils Errand.calls
          + (r.desks.map (Desk.effort o.settings)).sum
          + 2 * r.queue.length
    rw [hDesks, hSplit, sum_split, sum_split, hEffort]
    omega

/- To close a desk is the last of its effort. -/
theorem nearer_closeDesk
    (h : p.RunOk instruments r files)
    {d : Desk}
    (hDesk : d ∈ r.desks) :
    Run.Nearer o r (Run.closeDesk o r d) := by
  rcases List.append_of_mem hDesk with ⟨before, after, hSplit⟩
  have hDistinct := h.distinct
  rw [hSplit] at hDistinct
  have hDesks :
      (Run.closeDesk o r d).desks = before ++ after := by
    change (r.desks.filter fun e => e.position ≠ d.position) = _
    rw [hSplit, desks_without hDistinct]
  refine Or.inr ⟨?_, ?_⟩
  · unfold Run.ahead
    rw [hDesks, hSplit, sum_split]
    change 2 * r.queue.length + _ ≤ 2 * r.queue.length + (_ + _)
    omega
  · rw [Run.effort_eq, Run.effort_eq, hDesks, hSplit, sum_split]
    unfold Desk.effort
    change
      r.crew.toils Errand.calls + _ + 2 * r.queue.length
        < r.crew.toils Errand.calls + (_ + 1 + _)
          + 2 * r.queue.length
    omega

/- A desk that is opened has less effort than its instrument. -/
theorem nearer_openDesk
    {position : Nat}
    {i : Instrument}
    {rest : List (Nat × Instrument)}
    (hQueue : r.queue = (position, i) :: rest) :
    Run.Nearer o r
      (Run.openDesk { r with queue := rest } position i) := by
  have hAhead : (Desk.start position i).ahead = 2 := rfl
  have hEffort :
      (Desk.start position i).effort o.settings = 1 := by
    unfold Desk.effort Desk.start
    simp
  refine Or.inr ⟨?_, ?_⟩
  · unfold Run.ahead Run.openDesk
    simp only [hQueue, List.length_cons, List.map_append,
      List.sum_append, List.map_singleton, List.sum_singleton,
      hAhead]
    omega
  · simp only [Run.effort_eq, Run.openDesk, hQueue,
      List.length_cons, List.map_append, List.sum_append,
      List.map_singleton, List.sum_singleton, hEffort]
    omega

/- Every move brings a run nearer to its end. -/
theorem nearer_move
    (h : p.RunOk instruments r files)
    (hMove : Run.Move o r r') :
    Run.Nearer o r r' := by
  cases hMove with
  | opens position i rest hQueue => exact nearer_openDesk hQueue
  | waits t hNext =>
      have hLess :=
        @Crew.toils_advanceTo _ _ _ Errand.calls _ t h.crew hNext
      refine Or.inr ⟨Nat.le_refl _, ?_⟩
      simp only [Run.effort_eq]
      omega
  | works d r' hDesk hWork =>
      cases hWork with
      | serves j hJob hWoken hGroup =>
          exact h.nearer_serve hJob hWoken
      | plans hUntouched => exact h.nearer_plan hDesk hUntouched
      | starts w rest hPending =>
          exact h.nearer_startWalk hDesk hPending
      | closes hTouched hPending hJobs =>
          exact h.nearer_closeDesk hDesk

end RunOk

------------------------------------------------------------
-- Rounds
------------------------------------------------------------

variable {instruments : List Instrument}

/- A run in a state that it can come to. -/
def Underway
    (p : Prospect o cancels)
    (instruments : List Instrument)
    (r : Run σ κ) : Prop :=
  (∃ files, p.RunOk instruments r files) ∧ r.Attended

theorem Underway.step
    (hWindows : 0 < o.settings.maxWindows)
    {r r' : Run σ κ}
    (h : p.Underway instruments r)
    (hStep : Run.step? o r = some r') :
    p.Underway instruments r' ∧ Run.Nearer o r r' := by
  rcases h with ⟨⟨files, hRun⟩, hAttended⟩
  rcases Run.move_of_step? hStep with ⟨f, hMove⟩
  exact
    ⟨⟨(hRun.withFocus f).move hMove,
        hRun.attended hWindows hAttended hStep⟩,
      (hRun.withFocus f).nearer_move hMove⟩

/- Steps never put more ahead of a run. -/
theorem Underway.advance
    (hWindows : 0 < o.settings.maxWindows)
    (n : Nat)
    {r : Run σ κ}
    (h : p.Underway instruments r) :
    p.Underway instruments (Run.advance o n r)
      ∧ (Run.advance o n r).ahead ≤ r.ahead := by
  induction n generalizing r with
  | zero => exact ⟨h, Nat.le_refl _⟩
  | succ n ih =>
      unfold Run.advance
      cases hStep : Run.step? o r with
      | none => exact ⟨h, Nat.le_refl _⟩
      | some r' =>
          rcases h.step hWindows hStep with ⟨hNext, hLess⟩
          rcases ih hNext with ⟨hOk, hLe⟩
          have hAhead : r'.ahead ≤ r.ahead := by
            unfold Run.Nearer at hLess
            omega
          exact ⟨hOk, Nat.le_trans hLe hAhead⟩

/-
  As many steps as the effort of a run lead to a run that
  cannot go on or has less ahead of it.
-/
theorem Underway.stuck_or_ahead_lt
    (hWindows : 0 < o.settings.maxWindows)
    (n : Nat)
    {r : Run σ κ}
    (h : p.Underway instruments r)
    (hEffort : r.effort o ≤ n) :
    Run.step? o (Run.advance o n r) = none
      ∨ (Run.advance o n r).ahead < r.ahead := by
  induction n generalizing r with
  | zero =>
      -- No effort is left, so no step is either.
      have hNothing := Nat.le_zero.mp hEffort
      cases hStep : Run.step? o r with
      | none => exact Or.inl hStep
      | some r' =>
          have hAhead := Run.ahead_eq_zero hNothing
          have hLess := (h.step hWindows hStep).2
          unfold Run.Nearer at hLess
          omega
  | succ n ih =>
      unfold Run.advance
      cases hStep : Run.step? o r with
      | none => exact Or.inl hStep
      | some r' =>
          rcases h.step hWindows hStep with ⟨hNext, hLess⟩
          rcases hLess with hLt | ⟨hLe, hLess⟩
          · have hRest := (hNext.advance hWindows n).2
            exact Or.inr (Nat.lt_of_le_of_lt hRest hLt)
          · rcases ih hNext (by omega) with hStuck | hLt
            · exact Or.inl hStuck
            · exact Or.inr (Nat.lt_of_lt_of_le hLt hLe)

theorem Underway.rounds
    (hWindows : 0 < o.settings.maxWindows)
    (n : Nat)
    {r : Run σ κ}
    (h : p.Underway instruments r)
    (hEnough : r.ahead < n) :
    p.Underway instruments (Run.rounds o n r)
      ∧ Run.step? o (Run.rounds o n r) = none := by
  -- A run that cannot go on stays as it is in later rounds.
  have hStays (m : Nat) {r : Run σ κ}
      (hStuck : Run.step? o r = none) :
      Run.rounds o m r = r := by
    induction m with
    | zero => rfl
    | succ m ih =>
        have hSame : Run.advance o (r.effort o) r = r := by
          cases r.effort o with
          | zero => rfl
          | succ k =>
              unfold Run.advance
              rw [hStuck]
        unfold Run.rounds
        rw [hSame, ih]
  induction n generalizing r with
  | zero => omega
  | succ n ih =>
      unfold Run.rounds
      have hOk := (h.advance hWindows (r.effort o)).1
      rcases h.stuck_or_ahead_lt hWindows _ (Nat.le_refl _) with
        hStuck | hLt
      · rw [hStays n hStuck]
        exact ⟨hOk, hStuck⟩
      · exact ih hOk (by omega)

theorem underway_start
    (p : Prospect o cancels)
    (hValid : o.settings.Valid)
    (venue : σ)
    (kept : κ)
    {cancelAt : Option Nat}
    (hCancel : cancelAt ≠ none → cancels)
    (hDepot : p.Holds { kept := kept, handed := [] })
    (instruments : List Instrument) :
    p.Underway instruments
      (Run.start o venue kept cancelAt instruments) :=
  ⟨⟨[],
      p.runOk_start hValid.limits.1 venue kept cancelAt hCancel
        hDepot instruments⟩,
    Run.attended_start o venue kept cancelAt instruments⟩

/- Every run comes to an end, where it cannot go on. -/
theorem toEnd_stuck
    (p : Prospect o cancels)
    (hValid : o.settings.Valid)
    (venue : σ)
    (kept : κ)
    {cancelAt : Option Nat}
    (hCancel : cancelAt ≠ none → cancels)
    (hDepot : p.Holds { kept := kept, handed := [] })
    (instruments : List Instrument) :
    let last :=
      Run.toEnd o (Run.start o venue kept cancelAt instruments)
    p.Underway instruments last ∧ Run.step? o last = none := by
  rcases hValid.limits with ⟨_, _, hWindows⟩
  have hStart :=
    p.underway_start hValid venue kept hCancel hDepot instruments
  have hAhead :
      (Run.start o venue kept cancelAt instruments).ahead
        < 2 * (Run.start o venue kept cancelAt
            instruments).queue.length + 1 := by
    unfold Run.ahead Run.start
    simp
  exact hStart.rounds hWindows _ hAhead

/- At its end each instrument has a report, and no desk is left. -/
theorem toEnd_done
    (p : Prospect o cancels)
    (hValid : o.settings.Valid)
    (venue : σ)
    (kept : κ)
    {cancelAt : Option Nat}
    (hCancel : cancelAt ≠ none → cancels)
    (hDepot : p.Holds { kept := kept, handed := [] })
    (instruments : List Instrument) :
    (Run.toEnd o
      (Run.start o venue kept cancelAt instruments)).Done := by
  rcases p.toEnd_stuck hValid venue kept hCancel hDepot instruments with
    ⟨⟨⟨files, hRun⟩, hAttended⟩, hStuck⟩
  exact hRun.done hValid hAttended hStuck

/-
  A run that is done has a file for each of its instruments,
  and has handed over what the files say.
-/
theorem RunOk.files_of_done
    {p : Prospect o cancels}
    {instruments : List Instrument}
    {r : Run σ κ}
    {files : List (File κ)}
    (h : p.RunOk instruments r files)
    (hDone : r.Done) :
    (files.map fun f => f.desk.instrument).Perm instruments
      ∧ r.depot.handed.Perm (files.flatMap (File.results o)) := by
  rcases hDone with ⟨hQueue, hDesks⟩
  have hRoster := h.roster
  have hHanded := h.handed
  rw [hQueue, hDesks] at hRoster
  rw [hDesks] at hHanded
  simp only [List.map_nil, List.nil_append,
    List.flatMap_nil] at hRoster hHanded
  exact ⟨hRoster, hHanded⟩

end Prospect

------------------------------------------------------------
-- Ends
------------------------------------------------------------

/- What a sink says of a result that it keeps. -/
def Result.stored (result : Result) : Stored :=
  { stem := result.fileStem
    window := result.window
    trades := result.trades.length }

/- A prospect of any walk, any look-up and any sink. -/
def Prospect.anything
    {σ κ : Type}
    (o : Office σ κ) : Prospect o True :=
  { OnWay := fun _ => True
    Ends := fun _ _ _ => True
    Found := fun _ _ _ => True
    Holds := fun _ => True
    Answered := fun result answer =>
      ∀ stored, answer = .ok stored → stored = result.stored
    starts := fun _ _ => trivial
    goesOn := fun _ _ _ _ _ => trivial
    ends := fun _ _ _ _ _ => trivial
    finds := fun _ _ _ => trivial
    canceled := fun _ _ _ => trivial
    lookupCanceled := fun _ _ _ => trivial
    overdue := fun _ _ _ _ => trivial
    keeps := by
      intro depot result _
      refine ⟨trivial, ?_⟩
      intro stored hStored
      unfold Depot.keep at hStored
      cases hAnswer : (o.sink.store depot.kept result).1 with
      | error reason =>
          simp only [hAnswer] at hStored
          cases hStored
      | ok _ =>
          simp only [hAnswer] at hStored
          exact (Except.ok.inj hStored).symm }

/-
  A run comes to an end, whatever a venue and a sink do, how
  long they take and when it is canceled.
-/
theorem Run.ends_toEnd
    {σ κ : Type}
    {o : Office σ κ}
    (hValid : o.settings.Valid)
    (venue : σ)
    (kept : κ)
    (cancelAt : Option Nat)
    (instruments : List Instrument) :
    let first := Run.start o venue kept cancelAt instruments
    Run.Reaches o first (Run.toEnd o first)
      ∧ (Run.toEnd o first).Done :=
  ⟨Run.reaches_toEnd o _,
    (Prospect.anything o).toEnd_done hValid venue kept
      (fun _ => trivial) trivial instruments⟩

end TradeTape
