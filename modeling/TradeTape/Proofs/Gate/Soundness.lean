import TradeTape.Proofs.Gate.Phases

/-
  What holds of a gate in every state.

  Permits that are out and permits that are left add up to the
  ceiling, the counter of calls in flight is the number of
  requests in flight, and neither that number nor its recorded
  peak passes the ceiling.  Each single move keeps this, and
  with it every passage that is made of moves.

  Key statements include:
    * `Gate.Sound`
    * `Gate.sound_make`
    * `Gate.Sound.move?`
    * `Gate.Sound.applyAll`
-/

namespace TradeTape

namespace Gate

/-
  A gate whose counters agree with its requests.  The levels
  that requests remember do not pass the ceiling either, since
  they become the peak later.
-/
structure Sound (g : Gate) : Prop where
  distinct : g.numbers.Nodup
  permits : g.held + g.available = g.ceiling
  flying : g.inFlight = g.flying
  peak : g.peak ≤ g.ceiling
  levels :
    ∀ n level,
      g.phase? n = some (.raised level) → level ≤ g.ceiling
  closed :
    g.closed = true →
      ∀ n p, g.phase? n = some p → ¬p.InLine

theorem sound_make (ceiling : Nat) : (make ceiling).Sound := by
  refine ⟨?_, ?_, ?_, ?_, ?_, ?_⟩ <;>
    simp [make, numbers, held, Gate.flying, phase?]

/- Whoever is in flight has a permit. -/
theorem flying_le_held (g : Gate) : g.flying ≤ g.held := by
  unfold flying held
  apply List.countP_mono_left
  intro r _ hFlight
  exact decide_eq_true (of_decide_eq_true hFlight).hasPermit

namespace Sound

variable {g : Gate}

theorem held_le_ceiling (h : g.Sound) : g.held ≤ g.ceiling := by
  have := h.permits
  omega

theorem inFlight_le_held (h : g.Sound) :
    g.inFlight ≤ g.held := by
  rw [h.flying]
  exact g.flying_le_held

/-
  A request with a permit that is not in flight leaves room
  below the ceiling.
-/
theorem inFlight_lt_ceiling
    {n : Nat}
    (h : g.Sound)
    (hPhase : g.phase? n = some .counted) :
    g.inFlight < g.ceiling := by
  have hHeld := h.held_le_ceiling
  have hFlying := h.flying
  have hMore : g.flying < g.held := by
    rcases exists_split hPhase with ⟨before, after, hSplit, _⟩
    have hBefore :=
      List.countP_mono_left (l := before)
        (p := fun r => decide r.phase.InFlight)
        (q := fun r => decide r.phase.HasPermit)
        fun r _ hr =>
          decide_eq_true (of_decide_eq_true hr).hasPermit
    have hAfter :=
      List.countP_mono_left (l := after)
        (p := fun r => decide r.phase.InFlight)
        (q := fun r => decide r.phase.HasPermit)
        fun r _ hr =>
          decide_eq_true (of_decide_eq_true hr).hasPermit
    have hFlight : ¬Phase.InFlight .counted := id
    have hPermit : Phase.HasPermit .counted := True.intro
    unfold Gate.flying held
    rw [hSplit]
    simp only [List.countP_append, List.countP_cons, hFlight,
      hPermit, decide_true, decide_false, if_true,
      Bool.false_eq_true, if_false]
    omega
  omega

theorem inFlight_pos
    {n : Nat}
    (h : g.Sound)
    (hPhase : g.phase? n = some .inside) :
    0 < g.inFlight := by
  rw [h.flying]
  unfold Gate.flying
  rw [List.countP_pos_iff]
  exact
    ⟨_, mem_of_phase? hPhase,
      decide_eq_true (show Phase.InFlight .inside from trivial)⟩

/-
  A request that moves from one phase to another, where the
  counters are changed by what the phases differ in.
-/
theorem setPhase
    {n : Nat}
    {p : Phase}
    {available inFlight peak admitted : Nat}
    (h : g.Sound)
    (q : Phase)
    (hPhase : g.phase? n = some p)
    (hPermits :
      weigh (fun p => decide p.HasPermit) q + available =
        weigh (fun p => decide p.HasPermit) p + g.available)
    (hFlying :
      inFlight + weigh (fun p => decide p.InFlight) p =
        g.inFlight + weigh (fun p => decide p.InFlight) q)
    (hPeak : peak ≤ g.ceiling)
    (hLevel : ∀ level, q = .raised level → level ≤ g.ceiling)
    (hLine : q.InLine → g.closed = false) :
    Sound
      { g.setPhase n q with
        available := available
        inFlight := inFlight
        peak := peak
        admitted := admitted } := by
  have hHeld :=
    tally_setPhase (fun p => decide p.HasPermit) q
      h.distinct hPhase
  have hFlight :=
    tally_setPhase (fun p => decide p.InFlight) q
      h.distinct hPhase
  rw [← held_eq_tally, ← held_eq_tally] at hHeld
  rw [← flying_eq_tally, ← flying_eq_tally] at hFlight
  have hOldPermits := h.permits
  have hOldFlying := h.flying
  have hNew :
      ∀ m r, (g.setPhase n q).phase? m = some r →
        r = q ∨ g.phase? m = some r := by
    intro m r hr
    rw [phase?_setPhase] at hr
    by_cases hm : m = n
    · simp [hm, hPhase] at hr
      exact Or.inl hr.symm
    · simp [hm] at hr
      exact Or.inr hr
  refine ⟨?_, ?_, ?_, hPeak, ?_, ?_⟩
  · exact (numbers_setPhase g n q).symm ▸ h.distinct
  · change (g.setPhase n q).held + available = g.ceiling
    omega
  · change inFlight = (g.setPhase n q).flying
    omega
  · intro m level hm
    rcases hNew m _ hm with hq | hOld
    · exact hLevel level hq.symm
    · exact h.levels m level hOld
  · intro hClosed m r hm hr
    rcases hNew m r hm with hq | hOld
    · have hOpen : g.closed = false := hLine (hq ▸ hr)
      exact Bool.noConfusion (hOpen.symm.trans hClosed)
    · exact h.closed hClosed m r hOld hr

/- A request that goes away with or without a permit. -/
theorem remove
    {n : Nat}
    {p : Phase}
    {available : Nat}
    (h : g.Sound)
    (hPhase : g.phase? n = some p)
    (hPermits :
      available =
        weigh (fun p => decide p.HasPermit) p + g.available)
    (hFlying : ¬p.InFlight) :
    Sound { g.remove n with available := available } := by
  have hHeld :=
    tally_remove (fun p => decide p.HasPermit)
      h.distinct hPhase
  have hFlight :=
    tally_remove (fun p => decide p.InFlight)
      h.distinct hPhase
  rw [← held_eq_tally, ← held_eq_tally] at hHeld
  rw [← flying_eq_tally, ← flying_eq_tally] at hFlight
  have hNone : weigh (fun p => decide p.InFlight) p = 0 := by
    simp [weigh, hFlying]
  have hOldPermits := h.permits
  have hOldFlying := h.flying
  have hNew :
      ∀ m r, (g.remove n).phase? m = some r →
        g.phase? m = some r := by
    intro m r hr
    rw [phase?_remove] at hr
    by_cases hm : m = n
    · simp [hm] at hr
    · simpa [hm] using hr
  refine ⟨?_, ?_, ?_, h.peak, ?_, ?_⟩
  · exact (numbers_remove g n).symm ▸ h.distinct.filter _
  · change (g.remove n).held + available = g.ceiling
    omega
  · change g.inFlight = (g.remove n).flying
    omega
  · intro m level hm
    exact h.levels m level (hNew m _ hm)
  · intro hClosed m r hm
    exact h.closed hClosed m r (hNew m r hm)

theorem asking
    {n : Nat}
    (h : g.Sound)
    (hFresh : g.phase? n = none) :
    (g.asking n).Sound := by
  have hHeld := g.tally_asking (fun p => decide p.HasPermit) n
  have hFlight := g.tally_asking (fun p => decide p.InFlight) n
  rw [← held_eq_tally, ← held_eq_tally] at hHeld
  rw [← flying_eq_tally, ← flying_eq_tally] at hFlight
  have hOldPermits := h.permits
  have hOldFlying := h.flying
  refine ⟨?_, ?_, ?_, h.peak, ?_, ?_⟩
  · rw [numbers_asking, List.nodup_append]
    refine ⟨h.distinct, by simp, ?_⟩
    intro m hm k hk hEq
    rw [List.mem_singleton] at hk
    exact (g.phase?_eq_none_iff n).mp hFresh (hk ▸ hEq ▸ hm)
  · change (g.asking n).held + g.available = g.ceiling
    cases hClosed : g.closed <;>
      simp [hClosed, weigh, Phase.HasPermit] at hHeld <;> omega
  · change g.inFlight = (g.asking n).flying
    cases hClosed : g.closed <;>
      simp [hClosed, weigh, Phase.InFlight] at hFlight <;> omega
  · intro m level hm
    rw [phase?_asking] at hm
    cases hOld : g.phase? m with
    | some p =>
        rw [hOld, Option.some_or] at hm
        exact h.levels m level (hOld.trans hm)
    | none =>
        by_cases hn : n = m <;> cases hClosed : g.closed <;>
          simp [hOld, hn, hClosed] at hm
  · intro hClosed m p hm
    have hOldClosed : g.closed = true := hClosed
    rw [phase?_asking] at hm
    cases hOld : g.phase? m with
    | some r =>
        rw [hOld, Option.some_or] at hm
        exact h.closed hOldClosed m p (hOld.trans hm)
    | none =>
        by_cases hn : n = m
        · simp [hOld, hn, hOldClosed] at hm
          simp [← hm, Phase.InLine]
        · simp [hOld, hn] at hm

theorem closing (h : g.Sound) : g.closing.Sound := by
  have hHeld := g.tally_closing fun p => decide p.HasPermit
  have hFlight := g.tally_closing fun p => decide p.InFlight
  rw [← held_eq_tally] at hHeld
  rw [← flying_eq_tally] at hFlight
  have hSplit :
      g.closing.held + g.requests.countP
          (fun r => r.phase = .granted) =
        g.held := by
    rw [hHeld]
    unfold tally Gate.held
    generalize g.requests = requests
    induction requests with
    | nil => rfl
    | cons r rest ih =>
        have hOne := weigh_refused r.phase
        unfold weigh at hOne
        beta_reduce at hOne ih
        simp only [List.countP_cons]
        omega
  have hSame : g.closing.flying = g.flying := by
    rw [hFlight, flying_eq_tally]
    congr 1
    funext p
    cases p <;> rfl
  have hOldPermits := h.permits
  refine ⟨?_, ?_, ?_, h.peak, ?_, ?_⟩
  · exact g.numbers_closing.symm ▸ h.distinct
  · change
      g.closing.held
          + (g.available
            + g.requests.countP fun r => r.phase = .granted) =
        g.ceiling
    omega
  · exact h.flying.trans hSame.symm
  · intro m level hm
    rw [phase?_closing] at hm
    rcases Option.map_eq_some_iff.mp hm with ⟨p, hp, hRaised⟩
    by_cases hLine : p.InLine
    · simp [hLine] at hRaised
    · rw [if_neg hLine] at hRaised
      exact h.levels m level (hRaised ▸ hp)
  · intro _ m r hm
    rw [phase?_closing] at hm
    rcases Option.map_eq_some_iff.mp hm with ⟨p, _, hr⟩
    by_cases hLine : p.InLine
    · rw [if_pos hLine] at hr
      simp [← hr, Phase.InLine]
    · rw [if_neg hLine] at hr
      exact hr ▸ hLine

------------------------------------------------------------
-- Moves
------------------------------------------------------------

/- A single move keeps the counters in agreement. -/
theorem move?
    {m : Move}
    {g' : Gate}
    (h : g.Sound)
    (hMove : g.move? m = some g') :
    g'.Sound := by
  cases moves_of_move? hMove with
  | ask hNew => exact h.asking hNew
  | grant hPhase hLeft hOpen =>
      refine
        h.setPhase .granted hPhase ?_ rfl h.peak nofun
          fun _ => hOpen
      change 1 + (g.available - 1) = 0 + g.available
      omega
  | acquire hPhase =>
      exact
        h.setPhase .holding hPhase rfl rfl h.peak nofun False.elim
  | count hPhase =>
      exact
        h.setPhase .counted hPhase rfl rfl h.peak nofun False.elim
  | raise hPhase =>
      have hRoom := h.inFlight_lt_ceiling hPhase
      refine
        h.setPhase (.raised (g.inFlight + 1)) hPhase rfl rfl
          h.peak ?_ False.elim
      intro level hLevel
      cases hLevel
      exact hRoom
  | record hPhase =>
      have hLevel := h.levels _ _ hPhase
      exact
        h.setPhase .inside hPhase rfl rfl
          (Nat.max_le.mpr ⟨h.peak, hLevel⟩) nofun False.elim
  | exit hPhase =>
      have hSome := h.inFlight_pos hPhase
      refine
        h.setPhase .leaving hPhase rfl ?_ h.peak nofun False.elim
      change g.inFlight - 1 + 1 = g.inFlight + 0
      omega
  | release hPhase | giveBack hPhase =>
      exact h.remove hPhase (Nat.add_comm g.available 1) id
  | withdraw hPhase hPermit =>
      refine h.remove hPhase ?_ fun hFlight =>
        hPermit hFlight.hasPermit
      simp [weigh, hPermit]
  | turnAway hPhase =>
      exact h.remove hPhase (Nat.zero_add g.available).symm id
  | close => exact h.closing

theorem apply
    (h : g.Sound)
    (m : Move) :
    (g.apply m).Sound := by
  unfold Gate.apply
  cases hMove : g.move? m with
  | none => exact h
  | some g' => exact h.move? hMove

theorem applyAll
    (h : g.Sound)
    (moves : List Move) :
    (g.applyAll moves).Sound := by
  induction moves generalizing g with
  | nil => exact h
  | cons m rest ih => exact ih (h.apply m)

end Sound

end Gate

end TradeTape
