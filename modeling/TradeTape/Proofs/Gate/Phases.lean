import Mathlib.Data.List.Basic
import Mathlib.Data.List.Nodup
import TradeTape.Backfill.Gate

/-
  Requests at a gate, looked up and changed.

  A gate keeps its requests in a list, but what matters about
  a request is its phase.  Each change of the list is told
  here by what it does to the phase of every number, and by
  what it does to the number of requests in given phases.

  Key statements include:
    * `Gate.phase?_setPhase`
    * `Gate.phase?_remove`
    * `Gate.phase?_asking`
    * `Gate.phase?_closing`
    * `Gate.tally_setPhase`
    * `Gate.tally_remove`
    * `Gate.moves_of_move?`
-/

namespace TradeTape

namespace Gate

------------------------------------------------------------
-- Phases
------------------------------------------------------------

/- Whoever is in flight has a permit. -/
theorem Phase.InFlight.hasPermit
    {p : Phase}
    (hFlight : p.InFlight) :
    p.HasPermit := by
  cases p <;> simp [InFlight, HasPermit] at hFlight ⊢

/- One for a phase that has a property, and nothing else. -/
def weigh
    (f : Phase → Bool)
    (p : Phase) : Nat :=
  if f p then 1 else 0

/-
  Closing takes permits away from those for whom they were
  only set aside.
-/
theorem weigh_refused
    (p : Phase) :
    weigh (fun p => decide p.HasPermit)
        (if p.InLine then .refused else p)
      + weigh (fun p => decide (p = .granted)) p =
        weigh (fun p => decide p.HasPermit) p := by
  cases p <;> rfl

------------------------------------------------------------
-- Looking up
------------------------------------------------------------

/- The numbers of the requests at a gate. -/
def numbers (g : Gate) : List Nat :=
  g.requests.map Request.number

theorem phase?_eq_none_iff
    (g : Gate)
    (n : Nat) :
    g.phase? n = none ↔ n ∉ g.numbers := by
  simp [phase?, numbers, List.find?_eq_none]

/- A gate with a split list of requests finds the one between. -/
theorem exists_split
    {g : Gate}
    {n : Nat}
    {p : Phase}
    (hPhase : g.phase? n = some p) :
    ∃ before after,
      g.requests = before ++ { number := n, phase := p } :: after ∧
        ∀ r ∈ before, r.number ≠ n := by
  unfold phase? at hPhase
  rcases Option.map_eq_some_iff.mp hPhase with
    ⟨r, hFind, hPhase⟩
  rcases List.find?_eq_some_iff_append.mp hFind with
    ⟨hNumber, before, after, hSplit, hBefore⟩
  have hNumber : r.number = n := by simpa using hNumber
  refine ⟨before, after, ?_, ?_⟩
  · rw [hSplit, ← hNumber, ← hPhase]
  · intro s hs
    simpa using hBefore s hs

/- With distinct numbers there is no other such request. -/
theorem exists_split_of_nodup
    {g : Gate}
    {n : Nat}
    {p : Phase}
    (hDistinct : g.numbers.Nodup)
    (hPhase : g.phase? n = some p) :
    ∃ before after,
      g.requests = before ++ { number := n, phase := p } :: after ∧
        (∀ r ∈ before, r.number ≠ n) ∧
        ∀ r ∈ after, r.number ≠ n := by
  rcases exists_split hPhase with
    ⟨before, after, hSplit, hBefore⟩
  refine ⟨before, after, hSplit, hBefore, ?_⟩
  intro r hr hNumber
  rw [numbers, hSplit, List.map_append, List.map_cons,
    List.nodup_append] at hDistinct
  exact
    (List.nodup_cons.mp hDistinct.2.1).1
      (List.mem_map.mpr ⟨r, hr, hNumber⟩)

/- The request of a phase is at the gate. -/
theorem mem_of_phase?
    {g : Gate}
    {n : Nat}
    {p : Phase}
    (hPhase : g.phase? n = some p) :
    { number := n, phase := p } ∈ g.requests := by
  rcases exists_split hPhase with ⟨before, after, hSplit, _⟩
  simp [hSplit]

/- With distinct numbers a request is found by its number. -/
theorem phase?_of_mem
    {g : Gate}
    {r : Request}
    (hDistinct : g.numbers.Nodup)
    (hMem : r ∈ g.requests) :
    g.phase? r.number = some r.phase := by
  unfold phase?
  have hFind :
      g.requests.find? (fun s => s.number = r.number) =
        some r := by
    rw [List.find?_eq_some_iff_append]
    rcases List.append_of_mem hMem with
      ⟨before, after, hSplit⟩
    refine ⟨by simp, before, after, hSplit, ?_⟩
    intro s hs
    have hNodup := hDistinct
    rw [numbers, hSplit, List.map_append,
      List.map_cons] at hNodup
    have hApart :=
      (List.nodup_append.mp hNodup).2.2 s.number
        (List.mem_map_of_mem hs) r.number (by simp)
    simpa using hApart
  rw [hFind, Option.map_some]

------------------------------------------------------------
-- Changes of phases
------------------------------------------------------------

@[simp] theorem numbers_setPhase
    (g : Gate)
    (n : Nat)
    (p : Phase) :
    (g.setPhase n p).numbers = g.numbers := by
  unfold numbers setPhase
  rw [List.map_map]
  apply List.map_congr_left
  intro r _
  by_cases hNumber : r.number = n <;> simp [hNumber]

@[simp] theorem numbers_remove
    (g : Gate)
    (n : Nat) :
    (g.remove n).numbers = g.numbers.filter (· ≠ n) := by
  unfold numbers remove
  rw [List.filter_map]
  rfl

@[simp] theorem numbers_asking
    (g : Gate)
    (n : Nat) :
    (g.asking n).numbers = g.numbers ++ [n] := by
  simp [numbers, asking]

@[simp] theorem numbers_closing (g : Gate) :
    g.closing.numbers = g.numbers := by
  unfold numbers closing
  rw [List.map_map]
  apply List.map_congr_left
  intro r _
  by_cases hLine : r.phase.InLine <;> simp [hLine]

theorem phase?_setPhase
    (g : Gate)
    (n m : Nat)
    (p : Phase) :
    (g.setPhase n p).phase? m =
      if m = n then (g.phase? n).map fun _ => p
      else g.phase? m := by
  unfold phase? setPhase
  induction g.requests with
  | nil => simp
  | cons r rest ih =>
      by_cases hm : m = n
      · subst hm
        by_cases hr : r.number = m
        · simp [hr]
        · simpa [hr] using ih
      · by_cases hr : r.number = n
        · have hrm : r.number ≠ m := fun h => hm (h ▸ hr)
          simpa [hm, hr, hrm, Ne.symm hm] using ih
        · by_cases hrm : r.number = m
          · simp [hm, hrm]
          · simpa [hm, hr, hrm] using ih

theorem phase?_remove
    (g : Gate)
    (n m : Nat) :
    (g.remove n).phase? m =
      if m = n then none else g.phase? m := by
  unfold phase? remove
  rw [List.find?_filter]
  by_cases hm : m = n
  · subst hm
    simp [List.find?_eq_none]
  · simp only [hm, if_false]
    congr 2
    funext r
    by_cases hr : r.number = m
    · simp [hr, hm]
    · simp [hr]

theorem phase?_asking
    (g : Gate)
    (n m : Nat) :
    (g.asking n).phase? m =
      (g.phase? m).or
        (if n = m then
          some (if g.closed then .refused else .waiting)
        else none) := by
  unfold phase? asking
  rw [List.find?_append, Option.map_or]
  by_cases hm : n = m <;> simp [hm]

theorem phase?_closing
    (g : Gate)
    (m : Nat) :
    g.closing.phase? m =
      (g.phase? m).map fun p =>
        if p.InLine then .refused else p := by
  unfold phase? closing
  induction g.requests with
  | nil => simp
  | cons r rest ih =>
      by_cases hr : r.number = m
      · by_cases hLine : r.phase.InLine <;> simp [hr, hLine]
      · by_cases hLine : r.phase.InLine <;>
          simpa [hr, hLine] using ih

------------------------------------------------------------
-- Tallies
------------------------------------------------------------

/- The number of requests whose phases have a property. -/
def tally
    (g : Gate)
    (f : Phase → Bool) : Nat :=
  g.requests.countP fun r => f r.phase

theorem tally_setPhase
    {g : Gate}
    {n : Nat}
    {p : Phase}
    (f : Phase → Bool)
    (q : Phase)
    (hDistinct : g.numbers.Nodup)
    (hPhase : g.phase? n = some p) :
    (g.setPhase n q).tally f + weigh f p =
      g.tally f + weigh f q := by
  rcases exists_split_of_nodup hDistinct hPhase with
    ⟨before, after, hSplit, hBefore, hAfter⟩
  have hKeep :
      ∀ rs : List Request, (∀ r ∈ rs, r.number ≠ n) →
        rs.map (fun r =>
          if r.number = n then { r with phase := q } else r) =
          rs := by
    intro rs hrs
    rw [List.map_congr_left (g := id)]
    · simp
    · intro r hr
      simp [hrs r hr]
  unfold tally setPhase
  simp only [hSplit, List.map_append, List.map_cons,
    hKeep before hBefore, hKeep after hAfter,
    List.countP_append, List.countP_cons, weigh, if_true]
  omega

theorem tally_remove
    {g : Gate}
    {n : Nat}
    {p : Phase}
    (f : Phase → Bool)
    (hDistinct : g.numbers.Nodup)
    (hPhase : g.phase? n = some p) :
    (g.remove n).tally f + weigh f p = g.tally f := by
  rcases exists_split_of_nodup hDistinct hPhase with
    ⟨before, after, hSplit, hBefore, hAfter⟩
  have hKeep :
      ∀ rs : List Request, (∀ r ∈ rs, r.number ≠ n) →
        rs.filter (fun r => r.number ≠ n) = rs := by
    intro rs hrs
    rw [List.filter_eq_self]
    intro r hr
    simpa using hrs r hr
  unfold tally remove
  simp only [hSplit, List.filter_append, List.filter_cons,
    hKeep before hBefore, hKeep after hAfter,
    List.countP_append, List.countP_cons, weigh, ne_eq,
    not_true_eq_false, decide_false, Bool.false_eq_true,
    if_false]
  omega

theorem tally_asking
    (g : Gate)
    (f : Phase → Bool)
    (n : Nat) :
    (g.asking n).tally f =
      g.tally f
        + weigh f (if g.closed then .refused else .waiting) := by
  simp [tally, asking, weigh, List.countP_cons]

theorem tally_closing
    (g : Gate)
    (f : Phase → Bool) :
    g.closing.tally f =
      g.tally fun p => f (if p.InLine then .refused else p) := by
  unfold tally closing
  rw [List.countP_map]
  congr 1
  funext r
  by_cases hLine : r.phase.InLine <;> simp [hLine]

theorem held_eq_tally (g : Gate) :
    g.held = g.tally fun p => decide p.HasPermit := rfl

theorem flying_eq_tally (g : Gate) :
    g.flying = g.tally fun p => decide p.InFlight := rfl

------------------------------------------------------------
-- Moves
------------------------------------------------------------

/-
  What each move needs and what it does.  Whoever withdraws
  gives back the permit that was set aside, if there is one.
-/
inductive Moves (g : Gate) : Move → Gate → Prop where
  | ask
      {n : Nat}
      (hNew : g.phase? n = none) :
      Moves g (.ask n) (g.asking n)
  | grant
      {n : Nat}
      (hPhase : g.phase? n = some .waiting)
      (hLeft : 0 < g.available)
      (hOpen : g.closed = false) :
      Moves g (.grant n)
        { g.setPhase n .granted with available := g.available - 1 }
  | acquire
      {n : Nat}
      (hPhase : g.phase? n = some .granted) :
      Moves g (.acquire n) (g.setPhase n .holding)
  | count
      {n : Nat}
      (hPhase : g.phase? n = some .holding) :
      Moves g (.count n)
        { g.setPhase n .counted with admitted := g.admitted + 1 }
  | raise
      {n : Nat}
      (hPhase : g.phase? n = some .counted) :
      Moves g (.raise n)
        { g.setPhase n (.raised (g.inFlight + 1)) with
          inFlight := g.inFlight + 1 }
  | record
      {n level : Nat}
      (hPhase : g.phase? n = some (.raised level)) :
      Moves g (.record n)
        { g.setPhase n .inside with peak := max g.peak level }
  | exit
      {n : Nat}
      (hPhase : g.phase? n = some .inside) :
      Moves g (.exit n)
        { g.setPhase n .leaving with inFlight := g.inFlight - 1 }
  | release
      {n : Nat}
      (hPhase : g.phase? n = some .leaving) :
      Moves g (.release n)
        { g.remove n with available := g.available + 1 }
  | withdraw
      {n : Nat}
      {p : Phase}
      (hPhase : g.phase? n = some p)
      (hPermit : ¬p.HasPermit) :
      Moves g (.withdraw n) (g.remove n)
  | giveBack
      {n : Nat}
      (hPhase : g.phase? n = some .granted) :
      Moves g (.withdraw n)
        { g.remove n with available := g.available + 1 }
  | turnAway
      {n : Nat}
      (hPhase : g.phase? n = some .refused) :
      Moves g (.turnAway n) (g.remove n)
  | close : Moves g .close g.closing

theorem moves_of_move?
    {g g' : Gate}
    {m : Move}
    (hMove : g.move? m = some g') :
    g.Moves m g' := by
  cases m with
  | ask n | acquire n | count n | raise n | exit n | release n
  | turnAway n =>
      simp only [move?, Option.ite_none_right_eq_some,
        Option.some.injEq] at hMove
      rcases hMove with ⟨hPhase, rfl⟩
      constructor
      exact hPhase
  | grant n =>
      simp only [move?, Option.ite_none_right_eq_some,
        Option.some.injEq] at hMove
      rcases hMove with ⟨⟨hPhase, hLeft, hOpen⟩, rfl⟩
      exact .grant hPhase hLeft hOpen
  | record n =>
      simp only [move?] at hMove
      split at hMove
      · rename_i level hPhase
        cases hMove
        exact .record hPhase
      · cases hMove
  | withdraw n =>
      simp only [move?] at hMove
      split at hMove
      · rename_i hPhase
        cases hMove
        exact .withdraw hPhase id
      · rename_i hPhase
        cases hMove
        exact .withdraw hPhase id
      · rename_i hPhase
        cases hMove
        exact .giveBack hPhase
      · cases hMove
  | close =>
      cases hMove
      exact .close

end Gate

end TradeTape
