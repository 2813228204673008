import TradeTape.Proofs.Run.Desks

/-
  The journal of a run: what came to pass at which desk, and
  when.

  A journal is kept beside a run and does not change it.  It
  names each look-up and each walk that has ended, with what
  came of it, each result that was offered to the sink, with
  its answer, and each report.

  Key statements include:
    * `Deed`
    * `Run.journal`
    * `Run.Told`
    * `Run.stepped_of_step?`
    * `Run.told_of_step?`
    * `Run.exists_advance_eq_toEnd`
    * `Run.recounted_journal`
    * `Run.Reaches.exists_recounted`
-/

namespace TradeTape

------------------------------------------------------------
-- Deeds
------------------------------------------------------------

/- What has come to pass at a desk. -/
inductive Deed where
  | found (latest : Except Fault (Option Int))
  | walked (w : Window) (r : Except Fault Haul)
  | offered (result : Result) (answer : Except String Stored)
  | closed (report : Report)

namespace Deed

/- What a look-up has found. -/
def find? : Deed → Option (Except Fault (Option Int))
  | .found latest => some latest
  | _ => none

/- What a walk has ended with. -/
def walk? : Deed → Option (Window × Except Fault Haul)
  | .walked w r => some (w, r)
  | _ => none

/- What a sink was given, and what it answered. -/
def offer? : Deed → Option (Result × Except String Stored)
  | .offered result answer => some (result, answer)
  | _ => none

/- What was reported. -/
def report? : Deed → Option Report
  | .closed report => some report
  | _ => none

end Deed

/- A deed, with the place of its desk and its instant. -/
structure Note where
  position : Nat
  instant : Nat
  deed : Deed

/- The deeds at a position, in the order of their instants. -/
def deedsAt
    (position : Nat)
    (journal : List Note) : List Deed :=
  (journal.filter fun n => n.position = position).map Note.deed

namespace Run

variable {σ κ : Type}

------------------------------------------------------------
-- What a step adds to the journal
------------------------------------------------------------

/- Deeds at a position, at the present instant. -/
def notes
    (r : Run σ κ)
    (position : Nat)
    (deeds : List Deed) : List Note :=
  deeds.map fun deed =>
    { position := position, instant := r.crew.now, deed := deed }

/- What comes of offering results to the sink. -/
def offers
    (o : Office σ κ)
    (r : Run σ κ)
    (results : List Result) : List Deed :=
  results.map fun result =>
    .offered result (r.depot.keep o.sink result).1

/- What a find comes to at the desk of its job. -/
def findDeeds
    (o : Office σ κ)
    (r : Run σ κ)
    (j : Job Errand Find)
    (f : Find) : List Deed :=
  match r.deskAt? j.group, j.task, f with
  | some _, _, .latest found => [.found found]
  | some d, .walk w, .haul walked =>
      .walked w.whole walked
        :: offers o r
          (Desk.windowResult? o.settings d.instrument w.whole
            walked).toList
  | _, _, _ => []

/- What serving a job comes to. -/
def serveDeeds
    (o : Office σ κ)
    (r : Run σ κ)
    (j : Job Errand Find) : List Note :=
  match (r.crew.serve (Errand.visit o.venue) j).2 with
  | none => []
  | some e => r.notes j.group (findDeeds o r j (findOf j e))

/- What closing a desk comes to. -/
def closeDeeds
    (o : Office σ κ)
    (r : Run σ κ)
    (d : Desk) : List Deed :=
  let f : File κ := { desk := d, depot := r.depot }
  offers o r (f.last o) ++ [.closed (f.report o)]

/- What the next step at a desk comes to. -/
def deskDeeds
    (o : Office σ κ)
    (r : Run σ κ)
    (d : Desk) : List Note :=
  if d.Untouched then []
  else
    match startable? o r d, r.crew.firstWokenOf? d.position with
    | some _, _ => []
    | none, some j => serveDeeds o r j
    | none, none => r.notes d.position (closeDeeds o r d)

/- What the next step away from a desk comes to. -/
def turnDeeds
    (o : Office σ κ)
    (r : Run σ κ) : List Note :=
  match openable? o r, r.nextDesk? with
  | none, some d => deskDeeds o { r with focus := some d.position } d
  | _, _ => []

/- What the next step comes to, if there is one. -/
def stepDeeds
    (o : Office σ κ)
    (r : Run σ κ) : List Note :=
  match r.focus.bind r.deskAt? with
  | none => turnDeeds o r
  | some d =>
      if (deskStep? o r d).isSome then deskDeeds o r d
      else turnDeeds o r

------------------------------------------------------------
-- Journals
------------------------------------------------------------

/- What up to a number of steps come to. -/
def advanceDeeds
    (o : Office σ κ) : Nat → Run σ κ → List Note
  | 0, _ => []
  | n + 1, r =>
      match step? o r with
      | none => []
      | some r' => stepDeeds o r ++ advanceDeeds o n r'

/- What up to a number of rounds come to. -/
def roundDeeds
    (o : Office σ κ) : Nat → Run σ κ → List Note
  | 0, _ => []
  | n + 1, r =>
      advanceDeeds o (r.effort o) r
        ++ roundDeeds o n (advance o (r.effort o) r)

/- The journal of a run up to its end. -/
def journal
    (o : Office σ κ)
    (r : Run σ κ) : List Note :=
  roundDeeds o (2 * r.queue.length + 1) r

------------------------------------------------------------
-- Moves with their deeds
------------------------------------------------------------

variable {o : Office σ κ}

/- What may be done next at a desk, and what it comes to. -/
inductive DeskTold
    (o : Office σ κ)
    (r : Run σ κ)
    (d : Desk) : List Note → Run σ κ → Prop where
  | plans
      (hUntouched : d.Untouched) :
      DeskTold o r d [] (planDesk o r d)
  | starts
      (w : Window)
      (rest : List Window)
      (hPending : d.pending = w :: rest) :
      DeskTold o r d [] (startWalk o r d w rest)
  | serves
      (j : Job Errand Find)
      (hJob : j ∈ r.crew.jobs)
      (hWoken : j.number ∈ r.crew.woken)
      (hGroup : j.group = d.position) :
      DeskTold o r d (serveDeeds o r j) (serve o r j)
  | closes
      (hTouched : ¬d.Untouched)
      (hPending : d.pending = [])
      (hJobs : r.crew.ofGroup d.position = []) :
      DeskTold o r d (r.notes d.position (closeDeeds o r d))
        (closeDesk o r d)

/- What may happen next in a run, and what it comes to. -/
inductive Told
    (o : Office σ κ)
    (r : Run σ κ) : List Note → Run σ κ → Prop where
  | opens
      (position : Nat)
      (i : Instrument)
      (rest : List (Nat × Instrument))
      (hQueue : r.queue = (position, i) :: rest) :
      Told o r [] (openDesk { r with queue := rest } position i)
  | works
      (d : Desk)
      (news : List Note)
      (r' : Run σ κ)
      (hDesk : d ∈ r.desks)
      (hWork : DeskTold o r d news r') :
      Told o r news r'
  | waits
      (t : Nat)
      (hNext : r.crew.nextInstant? = some t) :
      Told o r [] { r with crew := r.crew.advanceTo t }

theorem deskTold_of_deskStep?
    {r r' : Run σ κ}
    {d : Desk}
    (hStep : deskStep? o r d = some r') :
    DeskTold o r d (deskDeeds o r d) r' := by
  unfold deskDeeds
  rcases deskStep?_cases hStep with
    ⟨hUntouched, rfl⟩
      | ⟨hTouched, ⟨w, rest, hStart, rfl⟩
        | ⟨hStart, ⟨j, hFirst, rfl⟩
          | ⟨hFirst, hPending, hJobs, rfl⟩⟩⟩
  · rw [if_pos hUntouched]
    exact DeskTold.plans hUntouched
  · simp only [if_neg hTouched, hStart]
    exact DeskTold.starts w rest (startable?_eq_some hStart)
  · simp only [if_neg hTouched, hStart, hFirst]
    rcases awake_of_firstWokenOf? hFirst with
      ⟨hJob, hWoken, hGroup⟩
    exact DeskTold.serves j hJob hWoken hGroup
  · simp only [if_neg hTouched, hStart, hFirst]
    exact DeskTold.closes hTouched hPending hJobs

/-
  A step of a run, and what it comes to.  It is made at some
  desk, and time only moves on if there is none to turn to.
-/
inductive Stepped
    (o : Office σ κ)
    (r : Run σ κ) : List Note → Run σ κ → Prop where
  | opens
      (position : Nat)
      (i : Instrument)
      (rest : List (Nat × Instrument))
      (hQueue : r.queue = (position, i) :: rest) :
      Stepped o r [] (openDesk { r with queue := rest } position i)
  | works
      (d : Desk)
      (f : Option Nat)
      (news : List Note)
      (r' : Run σ κ)
      (hDesk : d ∈ r.desks)
      (hWork : DeskTold o { r with focus := f } d news r') :
      Stepped o r news r'
  | waits
      (t : Nat)
      (hNobody : r.nextDesk? = none)
      (hNext : r.crew.nextInstant? = some t) :
      Stepped o r []
        { r with crew := r.crew.advanceTo t, focus := none }

theorem stepped_of_turn?
    {r r' : Run σ κ}
    (hTurn : turn? o r = some r') :
    Stepped o r (turnDeeds o r) r' := by
  unfold turn? at hTurn
  unfold turnDeeds
  cases hOpen : openable? o r with
  | some next =>
      rcases next with ⟨⟨position, i⟩, rest⟩
      simp only [hOpen, Option.some.injEq] at hTurn
      rw [← hTurn]
      exact Stepped.opens position i rest (queue_of_openable? hOpen)
  | none =>
      cases hNext : r.nextDesk? with
      | some d =>
          simp only [hOpen, hNext] at hTurn
          exact
            Stepped.works d (some d.position) _ r'
              (mem_of_nextDesk? hNext) (deskTold_of_deskStep? hTurn)
      | none =>
          simp only [hOpen, hNext, Option.map_eq_some_iff] at hTurn
          rcases hTurn with ⟨t, hInstant, hEq⟩
          rw [← hEq]
          exact Stepped.waits t hNext hInstant

theorem stepped_of_step?
    {r r' : Run σ κ}
    (hStep : step? o r = some r') :
    Stepped o r (stepDeeds o r) r' := by
  unfold step? at hStep
  unfold stepDeeds
  cases hDesk : r.focus.bind r.deskAt? with
  | none =>
      rw [hDesk] at hStep
      exact stepped_of_turn? hStep
  | some d =>
      rw [hDesk, Option.bind_some] at hStep
      cases hNext : deskStep? o r d with
      | none =>
          rw [hNext] at hStep
          simp only [hNext, Option.isSome_none, Bool.false_eq_true,
            if_false]
          exact stepped_of_turn? hStep
      | some r'' =>
          rw [hNext, Option.some_or, Option.some.injEq] at hStep
          rcases Option.bind_eq_some_iff.mp hDesk with
            ⟨position, _, hAt⟩
          simp only [hNext, Option.isSome_some, if_true]
          rw [← hStep]
          exact
            Stepped.works d r.focus _ r'' (mem_of_deskAt? hAt).1
              (deskTold_of_deskStep? hNext)

/- A step is told as it is, after turning to some desk. -/
theorem told_of_step?
    {r r' : Run σ κ}
    (hStep : step? o r = some r') :
    ∃ f, Told o { r with focus := f } (stepDeeds o r) r' := by
  have hStepped := stepped_of_step? hStep
  generalize stepDeeds o r = news at hStepped ⊢
  cases hStepped with
  | opens position i rest hQueue =>
      exact ⟨r.focus, Told.opens position i rest hQueue⟩
  | works d f news r' hDesk hWork =>
      exact ⟨f, Told.works d news r' hDesk hWork⟩
  | waits t _ hNext => exact ⟨none, Told.waits t hNext⟩

------------------------------------------------------------
-- What journals tell of
------------------------------------------------------------

/-
  The runs that moves lead to, with all that came to pass, and
  with any turns to other desks in between.
-/
inductive Recounted
    (o : Office σ κ)
    (r : Run σ κ) : List Note → Run σ κ → Prop where
  | stays : Recounted o r [] r
  | turns
      {journal : List Note}
      {r' : Run σ κ}
      (f : Option Nat)
      (hSoFar : Recounted o r journal r') :
      Recounted o r journal { r' with focus := f }
  | moves
      {journal news : List Note}
      {r' r'' : Run σ κ}
      (hSoFar : Recounted o r journal r')
      (hTold : Told o r' news r'') :
      Recounted o r (journal ++ news) r''

theorem Recounted.advance
    {r r' : Run σ κ}
    {journal : List Note}
    (h : Recounted o r journal r')
    (n : Nat) :
    Recounted o r (journal ++ advanceDeeds o n r')
      (advance o n r') := by
  induction n generalizing journal r' with
  | zero =>
      rw [advanceDeeds, List.append_nil]
      exact h
  | succ n ih =>
      unfold advanceDeeds Run.advance
      cases hNext : step? o r' with
      | none =>
          rw [List.append_nil]
          exact h
      | some r'' =>
          rcases told_of_step? hNext with ⟨f, hTold⟩
          simp only
          rw [← List.append_assoc]
          exact ih ((h.turns f).moves hTold)

theorem Recounted.rounds
    {r r' : Run σ κ}
    {journal : List Note}
    (h : Recounted o r journal r')
    (n : Nat) :
    Recounted o r (journal ++ roundDeeds o n r')
      (rounds o n r') := by
  induction n generalizing journal r' with
  | zero =>
      rw [roundDeeds, List.append_nil]
      exact h
  | succ n ih =>
      unfold roundDeeds Run.rounds
      rw [← List.append_assoc]
      exact ih (h.advance _)

------------------------------------------------------------
-- Rounds as steps
------------------------------------------------------------

/- A run that cannot go on stays as it is. -/
theorem advance_of_stuck
    {r : Run σ κ}
    (hStuck : step? o r = none)
    (n : Nat) :
    advance o n r = r ∧ advanceDeeds o n r = [] := by
  cases n with
  | zero => exact ⟨rfl, rfl⟩
  | succ n =>
      unfold Run.advance advanceDeeds
      rw [hStuck]
      exact ⟨rfl, rfl⟩

theorem advance_succ
    {r r' : Run σ κ}
    (hStep : step? o r = some r')
    (n : Nat) :
    advance o (n + 1) r = advance o n r'
      ∧ advanceDeeds o (n + 1) r
        = stepDeeds o r ++ advanceDeeds o n r' := by
  constructor
  · simp only [Run.advance, hStep]
  · simp only [advanceDeeds, hStep]

/- Steps that follow on steps. -/
theorem advance_add
    (m n : Nat)
    (r : Run σ κ) :
    advance o (m + n) r = advance o n (advance o m r)
      ∧ advanceDeeds o (m + n) r
        = advanceDeeds o m r ++ advanceDeeds o n (advance o m r) := by
  induction m generalizing r with
  | zero =>
      rw [Nat.zero_add]
      exact ⟨rfl, rfl⟩
  | succ m ih =>
      rw [Nat.succ_add]
      cases hNext : step? o r with
      | none =>
          rcases advance_of_stuck hNext (m + n + 1) with
            ⟨hAll, hAllDeeds⟩
          rcases advance_of_stuck hNext (m + 1) with
            ⟨hFirst, hFirstDeeds⟩
          rcases advance_of_stuck hNext n with ⟨hThen, hThenDeeds⟩
          rw [hAll, hAllDeeds, hFirst, hFirstDeeds, hThen,
            hThenDeeds]
          exact ⟨rfl, rfl⟩
      | some r' =>
          rcases ih r' with ⟨hRun, hDeeds⟩
          rcases advance_succ hNext (m + n) with ⟨hAll, hAllDeeds⟩
          rcases advance_succ hNext m with ⟨hFirst, hFirstDeeds⟩
          rw [hAll, hAllDeeds, hFirst, hFirstDeeds, hRun, hDeeds,
            List.append_assoc]
          exact ⟨rfl, rfl⟩

/- One more step. -/
theorem advance_concat
    {n : Nat}
    {r a a' : Run σ κ}
    (hRun : advance o n r = a)
    (hStep : step? o a = some a') :
    advance o (n + 1) r = a'
      ∧ advanceDeeds o (n + 1) r
        = advanceDeeds o n r ++ stepDeeds o a := by
  rcases advance_add (o := o) n 1 r with ⟨hAll, hAllDeeds⟩
  rcases advance_succ hStep 0 with ⟨hLast, hLastDeeds⟩
  rw [hRun, hLast] at hAll
  rw [hRun, hLastDeeds] at hAllDeeds
  refine ⟨hAll, hAllDeeds.trans ?_⟩
  rw [advanceDeeds, List.append_nil]

/- Rounds are so many steps. -/
theorem exists_advance_eq_rounds
    (o : Office σ κ)
    (n : Nat)
    (r : Run σ κ) :
    ∃ steps,
      rounds o n r = advance o steps r
        ∧ roundDeeds o n r = advanceDeeds o steps r := by
  induction n generalizing r with
  | zero => exact ⟨0, rfl, rfl⟩
  | succ n ih =>
      rcases ih (advance o (r.effort o) r) with
        ⟨steps, hRun, hDeeds⟩
      rcases advance_add (o := o) (r.effort o) steps r with
        ⟨hAll, hAllDeeds⟩
      refine ⟨r.effort o + steps, ?_, ?_⟩
      · rw [hAll]
        exact hRun
      · rw [hAllDeeds, ← hDeeds]
        rfl

/- The end of a run is reached in so many steps. -/
theorem exists_advance_eq_toEnd
    (o : Office σ κ)
    (r : Run σ κ) :
    ∃ steps,
      toEnd o r = advance o steps r
        ∧ journal o r = advanceDeeds o steps r :=
  exists_advance_eq_rounds o _ r

/- The end of a run comes after any number of steps. -/
theorem exists_advance_of_stuck
    {r : Run σ κ}
    (hStuck : step? o (toEnd o r) = none)
    (n : Nat) :
    ∃ steps,
      toEnd o r = advance o steps (advance o n r)
        ∧ journal o r
          = advanceDeeds o n r
            ++ advanceDeeds o steps (advance o n r) := by
  rcases exists_advance_eq_toEnd o r with ⟨steps, hEnd, hDeeds⟩
  rw [hEnd] at hStuck
  rcases advance_of_stuck hStuck n with ⟨hStays, hSilent⟩
  rcases advance_add (o := o) steps n r with ⟨hMore, hMoreDeeds⟩
  rcases advance_add (o := o) n steps r with ⟨hRun, hRunDeeds⟩
  rw [Nat.add_comm, hMore] at hRun
  rw [Nat.add_comm, hMoreDeeds] at hRunDeeds
  refine ⟨steps, ?_, ?_⟩
  · rw [hEnd, ← hRun, hStays]
  · rw [hDeeds, ← hRunDeeds, hSilent, List.append_nil]

/- The journal of a run tells how it came to its end. -/
theorem recounted_journal
    (o : Office σ κ)
    (r : Run σ κ) :
    Recounted o r (journal o r) (toEnd o r) := by
  have hStart : Recounted o r [] r := Recounted.stays
  exact hStart.rounds (2 * r.queue.length + 1)

/- A move is told of, like a step. -/
theorem Move.exists_told
    {r r' : Run σ κ}
    (h : Move o r r') :
    ∃ news, Told o r news r' := by
  cases h with
  | opens position i rest hQueue =>
      exact ⟨_, Told.opens position i rest hQueue⟩
  | waits t hNext => exact ⟨_, Told.waits t hNext⟩
  | works d _ hDesk hWork =>
      have hTold : ∃ news, DeskTold o r d news r' := by
        cases hWork with
        | plans hUntouched => exact ⟨_, DeskTold.plans hUntouched⟩
        | starts w rest hPending =>
            exact ⟨_, DeskTold.starts w rest hPending⟩
        | serves j hJob hWoken hGroup =>
            exact ⟨_, DeskTold.serves j hJob hWoken hGroup⟩
        | closes hTouched hPending hJobs =>
            exact ⟨_, DeskTold.closes hTouched hPending hJobs⟩
      rcases hTold with ⟨news, hTold⟩
      exact ⟨news, Told.works d news r' hDesk hTold⟩

/- The moves that lead to a run have a journal. -/
theorem Reaches.exists_recounted
    {first r : Run σ κ}
    (h : Reaches o first r) :
    ∃ journal, Recounted o first journal r := by
  induction h with
  | stays => exact ⟨[], Recounted.stays⟩
  | turns f _ ih =>
      rcases ih with ⟨journal, hSoFar⟩
      exact ⟨journal, hSoFar.turns f⟩
  | moves _ hMove ih =>
      rcases ih with ⟨journal, hSoFar⟩
      rcases hMove.exists_told with ⟨news, hTold⟩
      exact ⟨journal ++ news, hSoFar.moves hTold⟩

end Run

end TradeTape
