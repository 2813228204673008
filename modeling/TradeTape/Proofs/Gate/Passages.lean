import TradeTape.Proofs.Gate.Conservation

/-
  Whole passages through an open gate.

  Between passages a request waits, has a permit set aside or
  is inside, and nobody waits while a permit is left.  Asking,
  entering and leaving keep it so.  They leave other requests
  where they are, but for one that a permit is granted to.

  Key statements include:
    * `Gate.Steady`
    * `Gate.Steady.ask`
    * `Gate.Steady.enter`
    * `Gate.Steady.leave`
-/

namespace TradeTape

namespace Gate

------------------------------------------------------------
-- Steady gates
------------------------------------------------------------

/- The phases of requests between passages. -/
def Phase.Settled : Phase → Prop
  | .waiting | .granted | .inside => True
  | _ => False

/- An open gate at which no permit is left to who waits. -/
structure Steady (g : Gate) : Prop where
  sound : g.Sound
  opened : g.closed = false
  settled : ∀ n p, g.phase? n = some p → p.Settled
  tight :
    ∀ n, g.phase? n = some .waiting → g.available = 0

theorem steady_make (ceiling : Nat) : (make ceiling).Steady :=
  { sound := sound_make ceiling
    opened := rfl
    settled := by simp [make, phase?]
    tight := by simp [make, phase?] }

/- A request that is left where it is, or granted a permit. -/
def Follows
    (g g' : Gate)
    (n : Nat) : Prop :=
  g'.phase? n = g.phase? n
    ∨ (g.phase? n = some .waiting
        ∧ g'.phase? n = some .granted)

------------------------------------------------------------
-- Moves that are possible
------------------------------------------------------------

theorem apply_eq
    {g g' : Gate}
    {m : Move}
    (hMove : g.move? m = some g') :
    g.apply m = g' := by
  unfold apply
  rw [hMove]
  rfl

/- The phases after one request has changed its own. -/
theorem phase?_of_setPhase
    {g g' : Gate}
    {n : Nat}
    {p q : Phase}
    (hPhase : g.phase? n = some p)
    (hRequests : g'.requests = (g.setPhase n q).requests)
    (m : Nat) :
    g'.phase? m = if m = n then some q else g.phase? m := by
  have hSame : g'.phase? m = (g.setPhase n q).phase? m := by
    unfold phase?
    rw [hRequests]
  rw [hSame, phase?_setPhase, hPhase, Option.map_some]

/- A permit is set aside for a request that waits. -/
theorem grant_cases
    {g : Gate}
    (hDistinct : g.numbers.Nodup)
    (hOpened : g.closed = false) :
    (g.grant = g
        ∧ ∀ n, g.phase? n = some .waiting → g.available = 0)
      ∨ ∃ n,
          g.phase? n = some .waiting
            ∧ 0 < g.available
            ∧ g.grant =
              { g.setPhase n .granted with
                available := g.available - 1 } := by
  unfold grant
  cases hFirst : g.firstWaiting? with
  | none =>
      refine Or.inl ⟨rfl, ?_⟩
      intro n hWaiting
      have hNone := Option.map_eq_none_iff.mp hFirst
      have hMem := mem_of_phase? hWaiting
      have := List.find?_eq_none.mp hNone _ hMem
      simp at this
  | some n =>
      rcases Option.map_eq_some_iff.mp hFirst with
        ⟨r, hFind, hNumber⟩
      have hMem := List.mem_of_find?_eq_some hFind
      have hPhase := List.find?_some hFind
      have hWaiting : g.phase? n = some .waiting := by
        rw [← hNumber, phase?_of_mem hDistinct hMem]
        exact congrArg some (of_decide_eq_true hPhase)
      by_cases hLeft : 0 < g.available
      · refine Or.inr ⟨n, hWaiting, hLeft, ?_⟩
        exact
          apply_eq (if_pos ⟨hWaiting, hLeft, hOpened⟩)
      · refine Or.inl ⟨?_, fun _ _ => by omega⟩
        unfold apply
        have hNone : g.move? (.grant n) = none :=
          if_neg fun h => hLeft h.2.1
        simp only [hNone, Option.getD_none]

/- Granting settles a gate that may have one permit to give. -/
theorem steady_grant
    {g : Gate}
    (hSound : g.Sound)
    (hOpened : g.closed = false)
    (hSettled : ∀ n p, g.phase? n = some p → p.Settled)
    (hTight :
      ∀ m n,
        g.phase? m = some .waiting →
        g.phase? n = some .waiting →
        m ≠ n →
        g.available ≤ 1) :
    g.grant.Steady ∧ ∀ m, g.Follows g.grant m := by
  have hGranted : g.grant.Sound := by
    unfold grant
    split
    · exact hSound.apply _
    · exact hSound
  rcases grant_cases hSound.distinct hOpened with
    ⟨hSame, hNone⟩ | ⟨n, hWaiting, hLeft, hEq⟩
  · rw [hSame]
    refine ⟨⟨hSound, hOpened, hSettled, hNone⟩, ?_⟩
    exact fun m => Or.inl rfl
  · have hPhase (m : Nat) :
        g.grant.phase? m =
          if m = n then some .granted else g.phase? m := by
      rw [hEq]
      refine (phase?_setPhase g n m .granted).trans ?_
      rw [hWaiting, Option.map_some]
    refine
      ⟨{ sound := hGranted
         opened := by
           rw [hEq]
           exact hOpened
         settled := ?_
         tight := ?_ }, ?_⟩
    · intro m p hp
      rw [hPhase] at hp
      split at hp
      · cases hp
        exact trivial
      · exact hSettled m p hp
    · intro m hm
      rw [hPhase] at hm
      split at hm
      · cases hm
      · rename_i hNe
        have := hTight m n hm hWaiting hNe
        rw [hEq]
        change g.available - 1 = 0
        omega
    · intro m
      by_cases hm : m = n
      · subst hm
        exact Or.inr ⟨hWaiting, (hPhase m).trans (if_pos rfl)⟩
      · exact Or.inl ((hPhase m).trans (if_neg hm))

theorem ceiling_apply
    (g : Gate)
    (m : Move) :
    (g.apply m).ceiling = g.ceiling := by
  unfold apply
  cases hMove : g.move? m with
  | none => rfl
  | some g' => exact ceiling_move? hMove

theorem ceiling_applyAll
    (g : Gate)
    (moves : List Move) :
    (g.applyAll moves).ceiling = g.ceiling := by
  induction moves generalizing g with
  | nil => rfl
  | cons m rest ih => exact (ih (g.apply m)).trans (g.ceiling_apply m)

theorem ceiling_grant (g : Gate) : g.grant.ceiling = g.ceiling := by
  unfold grant
  split
  · exact g.ceiling_apply _
  · rfl

@[simp] theorem ceiling_ask
    (g : Gate)
    (n : Nat) :
    (g.ask n).ceiling = g.ceiling :=
  (ceiling_grant _).trans (g.ceiling_apply _)

@[simp] theorem ceiling_enter
    (g : Gate)
    (n : Nat) :
    (g.enter n).ceiling = g.ceiling :=
  g.ceiling_applyAll _

@[simp] theorem ceiling_leave
    (g : Gate)
    (n : Nat) :
    (g.leave n).ceiling = g.ceiling :=
  (ceiling_grant _).trans (g.ceiling_applyAll _)

------------------------------------------------------------
-- Passages
------------------------------------------------------------

namespace Steady

variable {g : Gate}

/- A new request waits or is granted a permit at once. -/
theorem ask
    (h : g.Steady)
    {n : Nat}
    (hNew : g.phase? n = none) :
    (g.ask n).Steady
      ∧ ((g.ask n).phase? n = some .waiting
          ∨ (g.ask n).phase? n = some .granted)
      ∧ ∀ m, m ≠ n → (g.ask n).phase? m = g.phase? m := by
  have hAsking : g.move? (.ask n) = some (g.asking n) :=
    if_pos hNew
  have hAsk : g.ask n = (g.asking n).grant := by
    unfold Gate.ask
    rw [apply_eq hAsking]
  have hPhase (m : Nat) :
      (g.asking n).phase? m =
        if m = n then some .waiting else g.phase? m := by
    rw [phase?_asking, h.opened]
    by_cases hm : m = n
    · subst hm
      simp [hNew]
    · simp [hm, Ne.symm hm]
  have hSettled :
      ∀ m p, (g.asking n).phase? m = some p → p.Settled := by
    intro m p hp
    rw [hPhase] at hp
    split at hp
    · cases hp
      exact trivial
    · exact h.settled m p hp
  have hTight :
      ∀ m, m ≠ n → (g.asking n).phase? m = some .waiting →
        (g.asking n).available = 0 := by
    intro m hm hWaiting
    rw [hPhase, if_neg hm] at hWaiting
    exact h.tight m hWaiting
  have hGrant :=
    steady_grant (h.sound.asking hNew) h.opened hSettled
      (by
        intro m k hm hk hNe
        by_cases hmn : m = n
        · have := hTight k (fun hkn => hNe (hmn.trans hkn.symm)) hk
          omega
        · have := hTight m hmn hm
          omega)
  rw [hAsk]
  refine ⟨hGrant.1, ?_, ?_⟩
  · rcases hGrant.2 n with hSame | ⟨_, hGranted⟩
    · exact Or.inl (hSame.trans ((hPhase n).trans (if_pos rfl)))
    · exact Or.inr hGranted
  · intro m hm
    have hOld := (hPhase m).trans (if_neg hm)
    rcases grant_cases (h.sound.asking hNew).distinct h.opened with
      ⟨hSame, _⟩ | ⟨k, hWaiting, hLeft, hEq⟩
    · rw [hSame]
      exact hOld
    · -- A permit was left, so nobody else was waiting.
      have hk : k = n := by
        by_contra hkn
        have := hTight k hkn hWaiting
        omega
      rw [hEq]
      refine (phase?_setPhase (g.asking n) k m .granted).trans ?_
      rw [hk, if_neg hm]
      exact hOld

/- A request that was granted a permit goes inside. -/
theorem enter
    (h : g.Steady)
    {n : Nat}
    (hGranted : g.phase? n = some .granted) :
    (g.enter n).Steady
      ∧ (g.enter n).phase? n = some .inside
      ∧ ∀ m, m ≠ n → (g.enter n).phase? m = g.phase? m := by
  have hSound : (g.enter n).Sound := h.sound.applyAll _
  let g₁ := g.setPhase n .holding
  have hPhase₁ := @phase?_of_setPhase g g₁ n _ _ hGranted rfl
  have hAcquire : g.move? (.acquire n) = some g₁ :=
    if_pos hGranted
  let g₂ :=
    { g₁.setPhase n .counted with admitted := g₁.admitted + 1 }
  have hHolding : g₁.phase? n = some .holding :=
    (hPhase₁ n).trans (if_pos rfl)
  have hPhase₂ := @phase?_of_setPhase g₁ g₂ n _ _ hHolding rfl
  have hCount : g₁.move? (.count n) = some g₂ :=
    if_pos hHolding
  let g₃ :=
    { g₂.setPhase n (.raised (g₂.inFlight + 1)) with
      inFlight := g₂.inFlight + 1 }
  have hCounted : g₂.phase? n = some .counted :=
    (hPhase₂ n).trans (if_pos rfl)
  have hPhase₃ := @phase?_of_setPhase g₂ g₃ n _ _ hCounted rfl
  have hRaise : g₂.move? (.raise n) = some g₃ :=
    if_pos hCounted
  let g₄ :=
    { g₃.setPhase n .inside with
      peak := max g₃.peak (g₂.inFlight + 1) }
  have hRaised : g₃.phase? n = some (.raised (g₂.inFlight + 1)) :=
    (hPhase₃ n).trans (if_pos rfl)
  have hPhase₄ := @phase?_of_setPhase g₃ g₄ n _ _ hRaised rfl
  have hRecord : g₃.move? (.record n) = some g₄ := by
    simp only [move?, hRaised]
    rfl
  have hEnter : g.enter n = g₄ := by
    change
      (((g.apply (.acquire n)).apply (.count n)).apply
        (.raise n)).apply (.record n) = g₄
    rw [apply_eq hAcquire, apply_eq hCount, apply_eq hRaise,
      apply_eq hRecord]
  have hPhase (m : Nat) :
      (g.enter n).phase? m =
        if m = n then some .inside else g.phase? m := by
    rw [hEnter, hPhase₄, hPhase₃, hPhase₂, hPhase₁]
    by_cases hm : m = n <;> simp [hm]
  refine
    ⟨{ sound := hSound
       opened := by
         rw [hEnter]
         exact h.opened
       settled := ?_
       tight := ?_ },
      (hPhase n).trans (if_pos rfl),
      fun m hm => (hPhase m).trans (if_neg hm)⟩
  · intro m p hp
    rw [hPhase] at hp
    split at hp
    · cases hp
      exact trivial
    · exact h.settled m p hp
  · intro m hm
    rw [hPhase] at hm
    split at hm
    · cases hm
    · rw [hEnter]
      exact h.tight m hm

/- A request that leaves gives its permit back, if it has one. -/
theorem farewell
    (h : g.Steady)
    (n : Nat) :
    let g' :=
      g.applyAll ((g.phase? n).elim [] (Gate.farewell n))
    g'.closed = g.closed
      ∧ g'.available ≤ g.available + 1
      ∧ ∀ m,
          g'.phase? m = if m = n then none else g.phase? m := by
  intro g'
  cases hn : g.phase? n with
  | none =>
      have hSame : g' = g := by
        simp only [g', hn]
        rfl
      rw [hSame]
      refine ⟨rfl, Nat.le_succ _, ?_⟩
      intro m
      by_cases hm : m = n
      · rw [if_pos hm, hm, hn]
      · rw [if_neg hm]
  | some p =>
      have hSettled := h.settled n p hn
      cases p with
      | refused | holding | counted | raised _ | leaving =>
          exact hSettled.elim
      | waiting =>
          have hMove : g.move? (.withdraw n) = some (g.remove n) := by
            simp only [move?, hn]
          have hLeft : g' = g.remove n := by
            simp only [g', hn]
            exact apply_eq hMove
          rw [hLeft]
          exact ⟨rfl, Nat.le_succ _, phase?_remove g n⟩
      | granted =>
          let back :=
            { g.remove n with available := g.available + 1 }
          have hMove : g.move? (.withdraw n) = some back := by
            simp only [move?, hn]
            rfl
          have hLeft : g' = back := by
            simp only [g', hn]
            exact apply_eq hMove
          rw [hLeft]
          exact ⟨rfl, Nat.le_refl _, phase?_remove g n⟩
      | inside =>
          let out :=
            { g.setPhase n .leaving with
              inFlight := g.inFlight - 1 }
          have hExit : g.move? (.exit n) = some out := if_pos hn
          have hPhase := @phase?_of_setPhase g out n _ _ hn rfl
          have hLeaving : out.phase? n = some .leaving :=
            (hPhase n).trans (if_pos rfl)
          let back :=
            { out.remove n with available := out.available + 1 }
          have hRelease : out.move? (.release n) = some back :=
            if_pos hLeaving
          have hLeft : g' = back := by
            simp only [g', hn]
            change (g.apply (.exit n)).apply (.release n) = back
            rw [apply_eq hExit, apply_eq hRelease]
          rw [hLeft]
          refine ⟨rfl, Nat.le_refl _, ?_⟩
          intro m
          refine (phase?_remove out n m).trans ?_
          rw [hPhase]
          by_cases hm : m = n <;> simp [hm]

/- A request leaves, and its permit goes to who waits next. -/
theorem leave
    (h : g.Steady)
    (n : Nat) :
    (g.leave n).Steady
      ∧ (g.leave n).phase? n = none
      ∧ ∀ m, m ≠ n → g.Follows (g.leave n) m := by
  let g' := g.applyAll ((g.phase? n).elim [] (Gate.farewell n))
  have hLeave : g.leave n = g'.grant := rfl
  rcases h.farewell n with ⟨hClosed, hLeft, hPhase⟩
  change g'.available ≤ g.available + 1 at hLeft
  have hSettled :
      ∀ m p, g'.phase? m = some p → p.Settled := by
    intro m p hp
    rw [hPhase] at hp
    split at hp
    · cases hp
    · exact h.settled m p hp
  have hWaiting :
      ∀ m, g'.phase? m = some .waiting → g'.available ≤ 1 := by
    intro m hm
    rw [hPhase] at hm
    split at hm
    · cases hm
    · have := h.tight m hm
      omega
  have hGrant :=
    steady_grant (h.sound.applyAll _) (hClosed.trans h.opened)
      hSettled (fun m _ hm _ _ => hWaiting m hm)
  rw [hLeave]
  refine ⟨hGrant.1, ?_, ?_⟩
  · have hGone := (hPhase n).trans (if_pos rfl)
    rcases hGrant.2 n with hSame | ⟨hWas, _⟩
    · exact hSame.trans hGone
    · rw [hGone] at hWas
      cases hWas
  · intro m hm
    have hSame := (hPhase m).trans (if_neg hm)
    have hFollows := hGrant.2 m
    unfold Follows at hFollows ⊢
    rwa [hSame] at hFollows

end Steady

end Gate

end TradeTape
