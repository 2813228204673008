import Mathlib.Data.List.Induction
import Mathlib.Order.MinMax
import TradeTape.Proofs.Gate.Soundness

/-
  Whole histories of a gate.

  A history is any list of moves that are possible one after
  the other from a gate that nobody has asked yet.  No order
  of arrivals, grants, departures and drops loses a permit or
  lets one be used twice, whatever happens between the single
  moves of a request.

  Key statements include:
    * `Gate.run?`
    * `Gate.acquisitions`
    * `Gate.crest`
    * `Gate.EndsRefused`
    * `Gate.permits_conserved`
-/

namespace TradeTape

namespace Gate

------------------------------------------------------------
-- Histories
------------------------------------------------------------

/- The gate after moves each of which must be possible. -/
def run? (g : Gate) : List Move → Option Gate
  | [] => some g
  | m :: rest => (g.move? m).bind fun g' => g'.run? rest

/- How often a request took its permit. -/
def acquisitions (moves : List Move) : Nat :=
  moves.countP fun m =>
    match m with
    | .acquire _ => true
    | _ => false

/- The greatest number of requests in flight at once. -/
def crest (g : Gate) : List Move → Nat
  | [] => g.flying
  | m :: rest => max g.flying ((g.apply m).crest rest)

theorem run?_cons
    (g : Gate)
    (m : Move)
    (rest : List Move) :
    g.run? (m :: rest) =
      (g.move? m).bind fun g' => g'.run? rest := rfl

theorem run?_append
    (g : Gate)
    (moves later : List Move) :
    g.run? (moves ++ later) =
      (g.run? moves).bind fun g' => g'.run? later := by
  induction moves generalizing g with
  | nil => rfl
  | cons m rest ih =>
      rw [List.cons_append, run?_cons, run?_cons]
      cases g.move? m with
      | none => rfl
      | some g' => exact ih g'

/-
  What holds at first and is kept by every possible move holds
  after every history.
-/
theorem run?_induction
    {g₀ : Gate}
    {motive : List Move → Gate → Prop}
    (hStart : motive [] g₀)
    (hStep :
      ∀ moves g m g',
        motive moves g → g.move? m = some g' →
          motive (moves ++ [m]) g')
    {moves : List Move}
    {g : Gate}
    (hRun : g₀.run? moves = some g) :
    motive moves g := by
  induction moves using List.reverseRecOn generalizing g with
  | nil =>
      cases hRun
      exact hStart
  | append_singleton moves m ih =>
      rw [run?_append] at hRun
      rcases Option.bind_eq_some_iff.mp hRun with
        ⟨g', hBefore, hLast⟩
      apply hStep moves g' m g (ih hBefore)
      cases hMove : g'.move? m with
      | none => simp [run?, hMove] at hLast
      | some g'' => simpa [run?, hMove] using hLast

theorem Sound.run?
    {g g' : Gate}
    {moves : List Move}
    (h : g.Sound)
    (hRun : g.run? moves = some g') :
    g'.Sound :=
  run?_induction (motive := fun _ g => g.Sound) h
    (fun _ _ _ _ hSound hMove => hSound.move? hMove) hRun

theorem applyAll_eq_of_run?
    {g g' : Gate}
    {moves : List Move}
    (hRun : g.run? moves = some g') :
    g.applyAll moves = g' := by
  induction moves generalizing g with
  | nil =>
      cases hRun
      rfl
  | cons m rest ih =>
      rcases Option.bind_eq_some_iff.mp hRun with
        ⟨g'', hMove, hRest⟩
      change (g.apply m).applyAll rest = g'
      rw [apply, hMove]
      exact ih hRest

theorem crest_concat
    (g : Gate)
    (moves : List Move)
    (m : Move) :
    g.crest (moves ++ [m]) =
      max (g.crest moves)
        (g.applyAll (moves ++ [m])).flying := by
  induction moves generalizing g with
  | nil => rfl
  | cons m' rest ih =>
      change max g.flying ((g.apply m').crest (rest ++ [m])) = _
      rw [ih (g.apply m'), ← Nat.max_assoc]
      rfl

------------------------------------------------------------
-- Frames
------------------------------------------------------------

/- A move changes the phase of nobody but its own request. -/
theorem phase?_move?_of_ne
    {g g' : Gate}
    {m : Move}
    {n : Nat}
    (hMove : g.move? m = some g')
    (hOther : m.number? ≠ some n)
    (hOpen : m ≠ .close) :
    g'.phase? n = g.phase? n := by
  cases moves_of_move? hMove with
  | @ask k =>
      have hk : k ≠ n := fun h => hOther (congrArg some h)
      rw [phase?_asking]
      simp [hk]
  | @grant k | @acquire k | @count k | @raise k | @record k
  | @exit k =>
      have hk : n ≠ k := fun h => hOther (congrArg some h.symm)
      exact (phase?_setPhase g k n _).trans (if_neg hk)
  | @release k | @withdraw k | @giveBack k | @turnAway k =>
      have hk : n ≠ k := fun h => hOther (congrArg some h.symm)
      exact (phase?_remove g k n).trans (if_neg hk)
  | close => exact absurd rfl hOpen

/- A request of which only the end is missing. -/
theorem number?_ne_of_refused
    {g g' : Gate}
    {m : Move}
    {n : Nat}
    (hMove : g.move? m = some g')
    (hPhase : g.phase? n = some .refused)
    (hStays : m.fault? ≠ some Fault.gateClosed)
    (hDropped : m ≠ .withdraw n) :
    m.number? ≠ some n := by
  intro hNumber
  cases m <;> cases hNumber <;>
    simp [move?, hPhase, Move.fault?] at hMove hStays hDropped

/-
  A request that has raised the number in flight can only
  record the level it remembers.
-/
theorem number?_ne_of_raised
    {g g' : Gate}
    {m : Move}
    {n level : Nat}
    (hMove : g.move? m = some g')
    (hPhase : g.phase? n = some (.raised level))
    (hRecord : m ≠ .record n) :
    m.number? ≠ some n := by
  intro hNumber
  cases m <;> cases hNumber <;>
    simp [move?, hPhase] at hMove hRecord

/- Closing leaves everybody alone who is not in line. -/
theorem phase?_move?_of_not_inLine
    {g g' : Gate}
    {m : Move}
    {n : Nat}
    {p : Phase}
    (hMove : g.move? m = some g')
    (hPhase : g.phase? n = some p)
    (hLine : ¬p.InLine)
    (hOther : m.number? ≠ some n) :
    g'.phase? n = some p := by
  by_cases hOpen : m = .close
  · subst hOpen
    cases moves_of_move? hMove
    rw [phase?_closing, hPhase, Option.map_some, if_neg hLine]
  · rw [phase?_move?_of_ne hMove hOther hOpen]
    exact hPhase

------------------------------------------------------------
-- What is recorded
------------------------------------------------------------

/- The requests that took their permit but are not counted. -/
def uncounted (g : Gate) : Nat :=
  g.tally fun p => decide (p = .holding)

/-
  What the counters of a gate say about its history.  Whoever
  took a permit is counted or about to be, and the greatest
  number in flight is recorded or remembered by a request that
  is about to record it.
-/
structure Recorded
    (g₀ : Gate)
    (moves : List Move)
    (g : Gate) : Prop where
  reached : g₀.run? moves = some g
  sound : g.Sound
  ceiling : g.ceiling = g₀.ceiling
  admitted :
    g.admitted + g.uncounted = acquisitions moves
  inFlight_le : g.inFlight ≤ g₀.crest moves
  peak_le : g.peak ≤ g₀.crest moves
  levels_le :
    ∀ n level,
      g.phase? n = some (.raised level) →
        level ≤ g₀.crest moves
  crest_le :
    g₀.crest moves ≤ g.peak ∨
      ∃ n level,
        g.phase? n = some (.raised level) ∧
          g₀.crest moves ≤ level

/- No move changes the number of permits there are. -/
theorem ceiling_move?
    {g g' : Gate}
    {m : Move}
    (hMove : g.move? m = some g') :
    g'.ceiling = g.ceiling := by
  cases moves_of_move? hMove <;> rfl

/- A request is counted once after it took its permit. -/
theorem admitted_move?
    {g g' : Gate}
    {m : Move}
    (hDistinct : g.numbers.Nodup)
    (hMove : g.move? m = some g') :
    g'.admitted + g'.uncounted =
      g.admitted + g.uncounted + acquisitions [m] := by
  have hShift :=
    fun {n p} (q : Phase) (hPhase : g.phase? n = some p) =>
      tally_setPhase (fun p => decide (p = .holding)) q
        hDistinct hPhase
  have hGone :=
    fun {n p} (hPhase : g.phase? n = some p) =>
      tally_remove (fun p => decide (p = .holding))
        hDistinct hPhase
  cases moves_of_move? hMove with
  | @ask n =>
      have hTally :=
        g.tally_asking (fun p => decide (p = .holding)) n
      cases hClosed : g.closed <;>
        simp [hClosed, weigh] at hTally <;>
        simpa [asking, acquisitions, uncounted] using hTally
  | grant hPhase =>
      exact congrArg (g.admitted + ·) (hShift .granted hPhase)
  | acquire hPhase =>
      exact congrArg (g.admitted + ·) (hShift .holding hPhase)
  | @count n hPhase =>
      have hTally := hShift .counted hPhase
      change
        (g.setPhase n .counted).uncounted + 1 =
          g.uncounted + 0 at hTally
      change
        g.admitted + 1 + (g.setPhase n .counted).uncounted =
          g.admitted + g.uncounted + 0
      omega
  | raise hPhase =>
      exact congrArg (g.admitted + ·) (hShift (.raised _) hPhase)
  | record hPhase =>
      exact congrArg (g.admitted + ·) (hShift .inside hPhase)
  | exit hPhase =>
      exact congrArg (g.admitted + ·) (hShift .leaving hPhase)
  | release hPhase | giveBack hPhase | turnAway hPhase =>
      exact congrArg (g.admitted + ·) (hGone hPhase)
  | @withdraw n p hPhase hPermit =>
      have hTally := hGone hPhase
      have hHolding : p ≠ .holding := by
        rintro rfl
        exact hPermit True.intro
      simp only [weigh, hHolding, decide_false, if_false,
        Bool.false_eq_true] at hTally
      exact congrArg (g.admitted + ·) hTally
  | close =>
      unfold uncounted
      rw [tally_closing]
      have hSame :
          (fun p : Phase =>
            decide ((if p.InLine then .refused else p) =
              Phase.holding)) =
            fun p => decide (p = .holding) := by
        funext p
        cases p <;> rfl
      rw [hSame]
      rfl

/- The peak only takes over a level that was remembered. -/
theorem peak_move?
    {g g' : Gate}
    {m : Move}
    (hMove : g.move? m = some g') :
    g'.peak = g.peak ∨
      ∃ n level,
        m = .record n ∧ g.phase? n = some (.raised level) ∧
          g'.peak = max g.peak level := by
  cases moves_of_move? hMove with
  | record hPhase => exact Or.inr ⟨_, _, rfl, hPhase, rfl⟩
  | ask | grant | acquire | count | raise | exit | release
  | withdraw | giveBack | turnAway | close => exact Or.inl rfl

/-
  The number in flight only grows when a request raises it,
  and that request remembers to how many.
-/
theorem inFlight_move?
    {g g' : Gate}
    {m : Move}
    (hMove : g.move? m = some g') :
    g'.inFlight ≤ g.inFlight ∨
      ∃ n, g'.phase? n = some (.raised g'.inFlight) := by
  cases moves_of_move? hMove with
  | @raise n hPhase =>
      refine Or.inr ⟨n, ?_⟩
      refine (phase?_setPhase g n n _).trans ?_
      rw [if_pos rfl, hPhase]
      rfl
  | exit => exact Or.inl (Nat.sub_le _ _)
  | ask | grant | acquire | count | record | release | withdraw
  | giveBack | turnAway | close => exact Or.inl (Nat.le_refl _)

/- A level that is remembered was the number in flight. -/
theorem raised_move?
    {g g' : Gate}
    {m : Move}
    {n level : Nat}
    (hMove : g.move? m = some g')
    (hPhase : g'.phase? n = some (.raised level)) :
    g.phase? n = some (.raised level) ∨ level = g'.inFlight := by
  by_cases hOpen : m = .close
  · subst hOpen
    cases moves_of_move? hMove
    rw [phase?_closing] at hPhase
    rcases Option.map_eq_some_iff.mp hPhase with
      ⟨p, hOld, hRaised⟩
    by_cases hLine : p.InLine
    · simp [hLine] at hRaised
    · rw [if_neg hLine] at hRaised
      exact Or.inl (hRaised ▸ hOld)
  · by_cases hOther : m.number? = some n
    · cases moves_of_move? hMove with
      | @ask k hNew =>
          obtain rfl : k = n := Option.some.inj hOther
          rw [phase?_asking, hNew] at hPhase
          cases hClosed : g.closed <;> simp [hClosed] at hPhase
      | @raise k hCounted =>
          obtain rfl : k = n := Option.some.inj hOther
          have hNew := (phase?_setPhase g k k _).symm.trans hPhase
          rw [if_pos rfl, hCounted] at hNew
          cases hNew
          exact Or.inr rfl
      | @grant k hOld | @acquire k hOld | @count k hOld
      | @record k _ hOld | @exit k hOld =>
          obtain rfl : k = n := Option.some.inj hOther
          exact
            absurd ((phase?_setPhase g k k _).symm.trans hPhase)
              (by simp [hOld])
      | @release k | @withdraw k | @giveBack k | @turnAway k =>
          obtain rfl : k = n := Option.some.inj hOther
          exact
            absurd ((phase?_remove g k k).symm.trans hPhase)
              (by simp)
      | close => exact absurd rfl hOpen
    · rw [phase?_move?_of_ne hMove hOther hOpen] at hPhase
      exact Or.inl hPhase

/- One more move is recorded like those before it. -/
theorem Recorded.move?
    {g₀ g g' : Gate}
    {moves : List Move}
    {m : Move}
    (h : Recorded g₀ moves g)
    (hMove : g.move? m = some g') :
    Recorded g₀ (moves ++ [m]) g' := by
  have hSound := h.sound.move? hMove
  have hReached : g₀.run? (moves ++ [m]) = some g' := by
    rw [run?_append, h.reached, Option.bind_some, run?_cons,
      hMove]
    rfl
  have hCrest :
      g₀.crest (moves ++ [m]) =
        max (g₀.crest moves) g'.inFlight := by
    rw [crest_concat, applyAll_eq_of_run? hReached,
      hSound.flying]
  have hMono : g₀.crest moves ≤ g₀.crest (moves ++ [m]) :=
    hCrest ▸ Nat.le_max_left _ _
  refine
    { reached := hReached
      sound := hSound
      ceiling := (ceiling_move? hMove).trans h.ceiling
      admitted := ?_
      inFlight_le := hCrest ▸ Nat.le_max_right _ _
      peak_le := ?_
      levels_le := ?_
      crest_le := ?_ }
  · rw [admitted_move? h.sound.distinct hMove, h.admitted]
    exact (List.countP_append).symm
  · rcases peak_move? hMove with
      hSame | ⟨n, level, _, hRaised, hMax⟩
    · exact hSame ▸ h.peak_le.trans hMono
    · rw [hMax]
      exact
        (Nat.max_le.mpr
          ⟨h.peak_le, h.levels_le n level hRaised⟩).trans hMono
  · intro n level hRaised
    rcases raised_move? hMove hRaised with hOld | hNew
    · exact (h.levels_le n level hOld).trans hMono
    · rw [hNew, hCrest]
      exact Nat.le_max_right _ _
  · by_cases hLow : g'.inFlight ≤ g₀.crest moves
    · rw [hCrest, Nat.max_eq_left hLow]
      rcases h.crest_le with hPeak | ⟨n, level, hRaised, hLe⟩
      · rcases peak_move? hMove with
          hSame | ⟨_, _, _, _, hMax⟩
        · exact Or.inl (hSame ▸ hPeak)
        · exact
            Or.inl (hMax ▸ hPeak.trans (Nat.le_max_left _ _))
      · by_cases hRecord : m = .record n
        · subst hRecord
          cases moves_of_move? hMove with
          | record hPhase =>
              cases hRaised.symm.trans hPhase
              exact Or.inl (hLe.trans (Nat.le_max_right _ _))
        · refine Or.inr ⟨n, level, ?_, hLe⟩
          exact
            phase?_move?_of_not_inLine hMove hRaised id
              (number?_ne_of_raised hMove hRaised hRecord)
    · rcases inFlight_move? hMove with hLe | ⟨n, hRaised⟩
      · exact absurd (hLe.trans h.inFlight_le) hLow
      · rw [hCrest,
          Nat.max_eq_right (Nat.le_of_not_le hLow)]
        exact Or.inr ⟨n, _, hRaised, Nat.le_refl _⟩

/- Every history of a new gate is recorded. -/
theorem recorded_of_run?
    {ceiling : Nat}
    {moves : List Move}
    {g : Gate}
    (hRun : (make ceiling).run? moves = some g) :
    Recorded (make ceiling) moves g := by
  refine
    run?_induction (motive := Recorded (make ceiling)) ?_
      (fun _ _ _ _ hRecorded hMove => hRecorded.move? hMove)
      hRun
  refine
    { reached := rfl
      sound := sound_make ceiling
      ceiling := rfl
      admitted := rfl
      inFlight_le := Nat.zero_le _
      peak_le := Nat.zero_le _
      levels_le := ?_
      crest_le := Or.inl (Nat.le_refl _) }
  intro n level hRaised
  cases hRaised

------------------------------------------------------------
-- After closing
------------------------------------------------------------

/- A gate that is closed stays closed. -/
theorem closed_move?
    {g g' : Gate}
    {m : Move}
    (hClosed : g.closed = true)
    (hMove : g.move? m = some g') :
    g'.closed = true := by
  cases moves_of_move? hMove with
  | close => rfl
  | ask | grant | acquire | count | raise | record | exit | release
  | withdraw | giveBack | turnAway => exact hClosed

theorem closed_run?
    {g g' : Gate}
    {moves : List Move}
    (hClosed : g.closed = true)
    (hRun : g.run? moves = some g') :
    g'.closed = true :=
  run?_induction (motive := fun _ g => g.closed = true) hClosed
    (fun _ _ _ _ hBefore hMove => closed_move? hBefore hMove)
    hRun

/- Nobody takes a permit of a closed gate. -/
theorem not_mem_acquire_of_closed
    {g g' : Gate}
    {moves : List Move}
    (hSound : g.Sound)
    (hClosed : g.closed = true)
    (hRun : g.run? moves = some g')
    (n : Nat) :
    .acquire n ∉ moves := by
  induction moves generalizing g with
  | nil => simp
  | cons m rest ih =>
      rcases Option.bind_eq_some_iff.mp hRun with
        ⟨g'', hMove, hRest⟩
      intro hMem
      rcases List.mem_cons.mp hMem with hHead | hTail
      · subst hHead
        cases moves_of_move? hMove with
        | acquire hPhase =>
            exact hSound.closed hClosed n .granted hPhase True.intro
      · exact
          ih (hSound.move? hMove) (closed_move? hClosed hMove)
            hRest hTail

/-
  How a refused request ends: the first thing it does later is
  to go away with the fault of a closed gate or to be dropped.
  Until then it is there and can be turned away.
-/
def EndsRefused
    (n : Nat)
    (later : List Move)
    (g : Gate) : Prop :=
  match later.find? fun m => m.number? = some n with
  | none =>
      g.phase? n = some .refused
        ∧ (g.move? (.turnAway n)).isSome = true
  | some m =>
      m.fault? = some Fault.gateClosed ∨ m = .withdraw n

theorem endsRefused_of_refused
    {g g' : Gate}
    {n : Nat}
    {later : List Move}
    (hPhase : g.phase? n = some .refused)
    (hRun : g.run? later = some g') :
    EndsRefused n later g' := by
  induction later generalizing g with
  | nil =>
      cases hRun
      refine ⟨hPhase, ?_⟩
      simp [move?, hPhase]
  | cons m rest ih =>
      rcases Option.bind_eq_some_iff.mp hRun with
        ⟨g'', hMove, hRest⟩
      unfold EndsRefused
      by_cases hOwn : m.number? = some n
      · rw [List.find?_cons_of_pos (by simpa using hOwn)]
        by_contra hEnd
        rw [not_or] at hEnd
        exact
          number?_ne_of_refused hMove hPhase hEnd.1 hEnd.2 hOwn
      · rw [List.find?_cons_of_neg (by simpa using hOwn)]
        exact
          ih (phase?_move?_of_not_inLine hMove hPhase id hOwn)
            hRest

/- What a gate does to requests once it is closed. -/
theorem closed_history
    {g₀ g : Gate}
    {before after : List Move}
    (hSound : g₀.Sound)
    (hRun : g₀.run? (before ++ .close :: after) = some g) :
    (∀ n, .acquire n ∉ after)
      ∧ (∀ n p,
          (g₀.applyAll before).phase? n = some p → p.InLine →
            EndsRefused n after g)
      ∧ ∀ n between later,
          after = between ++ .ask n :: later →
            EndsRefused n later g := by
  rw [run?_append] at hRun
  rcases Option.bind_eq_some_iff.mp hRun with
    ⟨g₁, hBefore, hRest⟩
  rw [run?_cons] at hRest
  rcases Option.bind_eq_some_iff.mp hRest with
    ⟨g₂, hClose, hAfter⟩
  have hSound₁ := hSound.run? hBefore
  have hSound₂ := hSound₁.move? hClose
  cases moves_of_move? hClose
  have hClosed : g₁.closing.closed = true := rfl
  refine ⟨?_, ?_, ?_⟩
  · exact not_mem_acquire_of_closed hSound₂ hClosed hAfter
  · intro n p hPhase hLine
    rw [applyAll_eq_of_run? hBefore] at hPhase
    apply endsRefused_of_refused ?_ hAfter
    rw [phase?_closing, hPhase, Option.map_some, if_pos hLine]
  · intro n between later hSplit
    rw [hSplit, run?_append] at hAfter
    rcases Option.bind_eq_some_iff.mp hAfter with
      ⟨g₃, hBetween, hLater⟩
    rw [run?_cons] at hLater
    rcases Option.bind_eq_some_iff.mp hLater with
      ⟨g₄, hAsk, hLast⟩
    apply endsRefused_of_refused ?_ hLast
    have hClosed₃ := closed_run? hClosed hBetween
    cases moves_of_move? hAsk with
    | ask hNew =>
        rw [phase?_asking, hNew]
        simp [hClosed₃]

------------------------------------------------------------
-- Conservation
------------------------------------------------------------

/- No move takes back that a request was admitted. -/
theorem admitted_le_move?
    {g g' : Gate}
    {m : Move}
    (hMove : g.move? m = some g') :
    g.admitted ≤ g'.admitted := by
  cases moves_of_move? hMove with
  | count => exact Nat.le_succ _
  | ask | grant | acquire | raise | record | exit | release
  | withdraw | giveBack | turnAway | close => exact Nat.le_refl _

/- Nobody waits for a permit or has one. -/
def Idle (g : Gate) : Prop :=
  ∀ n p, g.phase? n = some p → p = .refused

/- At an idle gate all permits are back and all is recorded. -/
theorem Recorded.idle
    {g₀ g : Gate}
    {moves : List Move}
    (h : Recorded g₀ moves g)
    (hIdle : g.Idle) :
    g.inFlight = 0 ∧ g.available = g.ceiling
      ∧ g.admitted = acquisitions moves
      ∧ g.peak = g₀.crest moves := by
  have hRefused : ∀ r ∈ g.requests, r.phase = .refused :=
    fun r hr =>
      hIdle r.number r.phase (phase?_of_mem h.sound.distinct hr)
  have hHeld : g.held = 0 := by
    unfold held
    rw [List.countP_eq_zero]
    intro r hr
    simp [hRefused r hr, Phase.HasPermit]
  have hUncounted : g.uncounted = 0 := by
    unfold uncounted tally
    rw [List.countP_eq_zero]
    intro r hr
    simp [hRefused r hr]
  have hPermits := h.sound.permits
  have hFlying := h.sound.inFlight_le_held
  have hAdmitted := h.admitted
  refine ⟨by omega, by omega, by omega, ?_⟩
  apply Nat.le_antisymm h.peak_le
  rcases h.crest_le with hPeak | ⟨n, level, hRaised, _⟩
  · exact hPeak
  · exact absurd (hIdle n _ hRaised) (by simp)

/-
  Permits are conserved in every history of a gate, whatever
  the order of its moves: permits that are out and permits
  that are left add up to the ceiling, nothing in flight goes
  without a permit, a closed gate gives no permit and refuses
  whoever waits or comes later, and when nobody waits or has a
  permit any more, the counters tell the whole history.
-/
theorem permits_conserved
    {ceiling : Nat}
    {moves : List Move}
    {g : Gate}
    (hRun : (make ceiling).run? moves = some g) :
    g.held + g.available = ceiling
      ∧ g.inFlight = g.flying
      ∧ g.inFlight ≤ g.held
      ∧ g.held ≤ ceiling
      ∧ g.peak ≤ ceiling
      ∧ (∀ m g', g.move? m = some g' → g.admitted ≤ g'.admitted)
      ∧ g.admitted ≤ acquisitions moves
      ∧ (∀ before after,
          moves = before ++ .close :: after →
            (∀ n, .acquire n ∉ after)
              ∧ (∀ n p,
                  ((make ceiling).applyAll before).phase? n =
                      some p →
                    p.InLine → EndsRefused n after g)
              ∧ ∀ n between later,
                  after = between ++ .ask n :: later →
                    EndsRefused n later g)
      ∧ (g.Idle →
          g.inFlight = 0 ∧ g.available = ceiling
            ∧ g.admitted = acquisitions moves
            ∧ g.peak = (make ceiling).crest moves) := by
  have h := recorded_of_run? hRun
  have hCeiling : g.ceiling = ceiling := h.ceiling
  refine
    ⟨hCeiling ▸ h.sound.permits, h.sound.flying,
      h.sound.inFlight_le_held,
      hCeiling ▸ h.sound.held_le_ceiling,
      hCeiling ▸ h.sound.peak, ?_, ?_, ?_, ?_⟩
  · intro m g' hMove
    exact admitted_le_move? hMove
  · have hAdmitted := h.admitted
    omega
  · intro before after hSplit
    rw [hSplit] at hRun
    exact closed_history (sound_make ceiling) hRun
  · intro hIdle
    exact hCeiling ▸ h.idle hIdle

/-
  A gate with one permit is closed while a request is in
  flight and another one waits.
-/
theorem permits_conserved_closed_while_waiting :
    ∃ g,
      (make 1).run?
          [.ask 0, .ask 1, .grant 0, .acquire 0, .count 0,
            .raise 0, .record 0, .close, .ask 2, .turnAway 1,
            .exit 0, .release 0] =
        some g
        ∧ g.held + g.available = 1
        ∧ EndsRefused 1
          [.ask 2, .turnAway 1, .exit 0, .release 0] g
        ∧ EndsRefused 2 [.turnAway 1, .exit 0, .release 0] g
        ∧ g.admitted = 1 ∧ g.peak = 1 := by
  have hRun :
      (make 1).run?
          [.ask 0, .ask 1, .grant 0, .acquire 0, .count 0,
            .raise 0, .record 0, .close, .ask 2, .turnAway 1,
            .exit 0, .release 0] =
        some
          { ceiling := 1
            available := 1
            closed := true
            requests := [{ number := 2, phase := .refused }]
            inFlight := 0
            peak := 1
            admitted := 1 } := rfl
  rcases permits_conserved hRun with
    ⟨hPermits, _, _, _, _, _, _, hClosed, hIdle⟩
  have hAfter :=
    hClosed
      [.ask 0, .ask 1, .grant 0, .acquire 0, .count 0,
        .raise 0, .record 0]
      [.ask 2, .turnAway 1, .exit 0, .release 0] rfl
  have hQuiet :=
    hIdle (by
      intro n p hPhase
      by_cases hn : n = 2
      · subst hn
        cases hPhase
        rfl
      · simp [phase?, Ne.symm hn] at hPhase)
  exact
    ⟨_, hRun, hPermits, hAfter.2.1 1 .waiting rfl True.intro,
      hAfter.2.2 2 [] [.turnAway 1, .exit 0, .release 0] rfl,
      hQuiet.2.2.1, hQuiet.2.2.2⟩

end Gate

end TradeTape
