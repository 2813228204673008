import TradeTape.Proofs.Run.Alone

/-
  Tapes leave no choice to a run.

  What a walk over tapes ends with does not depend on when it
  takes place, and what a shelf answers does not depend on
  what it has kept before.  So without a deadline and without
  a cancellation, all that is known of a run is fixed.

  Key statements include:
    * `TapeVenue.walked`
    * `TapeVenue.walked_eq`
    * `Shelf.Keeps`
    * `Shelf.eq_of_stems`
    * `TapeVenue.determined_fixed`
-/

namespace TradeTape

------------------------------------------------------------
-- Walks over tapes
------------------------------------------------------------

namespace TapeVenue

/- The end of a walk over tapes, which comes at any time. -/
def walked
    (v : TapeVenue)
    (w : Walk) : Except Fault Haul :=
  (v.toVenue.walk 0 w).1

/- The number of calls that were made before does not matter. -/
theorem walk_eq_walked
    (v : TapeVenue)
    (n : Nat)
    (w : Walk) :
    (v.toVenue.walk n w).1 = v.walked w := by
  unfold walked Venue.walk Walk.run
  generalize w.allowance = left
  generalize 0 = m
  induction left generalizing n m w with
  | zero => rfl
  | succ left ih =>
      unfold Walk.follow toVenue
      simp only
      cases w.answer (v.page w.query) with
      | ends r => rfl
      | asks w' => exact ih (n + 1) w' (m + 1)

theorem walked_eq
    (v : TapeVenue)
    {w : Walk}
    (hMore : w.requests < w.rules.maxPages) :
    v.walked w =
      match w.answer (v.page w.query) with
      | .ends r => r
      | .asks w' => v.walked w' := by
  let ask (n : Nat) (q : PageQuery) := (v.page q, n + 1)
  have hLeft : w.allowance = w.allowance - 1 + 1 := by
    unfold Walk.allowance
    omega
  have hWhole :
      v.walked w
        = (Walk.follow ask (w.allowance - 1 + 1) 0 w).1 := by
    rw [← hLeft]
    rfl
  rw [hWhole]
  unfold Walk.follow
  simp only [ask]
  cases hAnswer : w.answer (v.page w.query) with
  | ends r => rfl
  | asks w' =>
      rcases Walk.asks_of_answer hAnswer with
        ⟨_, _, hRules, hCount, _⟩
      have hNext : w'.allowance = w.allowance - 1 := by
        unfold Walk.allowance
        rw [hRules, hCount]
        omega
      rw [← hNext]
      exact walk_eq_walked v 1 w'

end TapeVenue

------------------------------------------------------------
-- Shelves
------------------------------------------------------------

namespace Shelf

/- The results that a shelf is given and does not turn down. -/
def accepted
    (rejected : Option String)
    (results : List Result) : List Result :=
  results.filter fun r => ¬(make rejected).Rejects r.fileStem

/- A shelf that has kept what it was given, or turned it down. -/
def Keeps
    (rejected : Option String)
    (depot : Depot Shelf) : Prop :=
  depot.kept =
    { rejected := rejected
      results := accepted rejected depot.handed }

/- What a shelf answers depends on its rejected names only. -/
def answer
    (rejected : Option String)
    (result : Result) : Except String Stored :=
  (Depot.keep sink { kept := make rejected, handed := [] }
    result).1

theorem keeps_keep
    {rejected : Option String}
    {depot : Depot Shelf}
    (h : Keeps rejected depot)
    (result : Result) :
    Keeps rejected (depot.keep sink result).2
      ∧ (depot.keep sink result).1 = answer rejected result := by
  unfold Keeps at h ⊢
  unfold answer Depot.keep sink store
  simp only [h]
  have hSame (results : List Result) :
      ({ rejected := rejected, results := results } :
          Shelf).Rejects result.fileStem
        ↔ (make rejected).Rejects result.fileStem :=
    Iff.rfl
  unfold accepted
  by_cases hRejects : (make rejected).Rejects result.fileStem
  · rw [if_pos hRejects, if_pos ((hSame _).mpr hRejects),
      List.filter_append]
    simp [hRejects]
  · rw [if_neg hRejects, if_neg (mt (hSame _).mp hRejects),
      List.filter_append]
    simp [hRejects]

/- The order in which a shelf shows its results. -/
def stemLe (a b : Result) : Bool :=
  !(decide (b.fileStem < a.fileStem))

theorem stemLe_iff
    {a b : Result} :
    stemLe a b = true ↔ a.fileStem ≤ b.fileStem := by
  unfold stemLe
  rw [Bool.not_eq_true', decide_eq_false_iff_not]
  exact Iff.rfl

theorem pairwise_sorted (s : Shelf) :
    s.sorted.Pairwise fun a b => stemLe a b = true := by
  refine List.pairwise_mergeSort ?_ ?_ s.results
  · intro a b c hab hbc
    exact
      stemLe_iff.mpr
        (String.le_trans (stemLe_iff.mp hab) (stemLe_iff.mp hbc))
  · intro a b
    rw [Bool.or_eq_true]
    exact
      (String.le_total a.fileStem b.fileStem).imp stemLe_iff.mpr
        stemLe_iff.mpr

theorem sorted_perm (s : Shelf) : s.sorted.Perm s.results :=
  List.mergeSort_perm s.results stemLe

/- Results with different names are shown in one order only. -/
theorem eq_of_stems
    {xs ys : List Result}
    (hxs : xs.Pairwise fun a b => stemLe a b = true)
    (hys : ys.Pairwise fun a b => stemLe a b = true)
    (hPerm : xs.Perm ys)
    (hStems : (xs.map Result.fileStem).Nodup) :
    xs = ys := by
  refine List.Perm.eq_of_pairwise ?_ hxs hys hPerm
  intro a b ha hb hab hba
  have hSame :=
    String.le_antisymm (stemLe_iff.mp hab) (stemLe_iff.mp hba)
  exact
    List.inj_on_of_nodup_map hStems ha (hPerm.mem_iff.mpr hb) hSame

theorem sorted_eq_of_perm
    {x y : Shelf}
    (hPerm : x.results.Perm y.results)
    (hStems : (x.results.map Result.fileStem).Nodup) :
    x.sorted = y.sorted :=
  eq_of_stems x.pairwise_sorted y.pairwise_sorted
    ((x.sorted_perm.trans hPerm).trans y.sorted_perm.symm)
    ((x.sorted_perm.map Result.fileStem).nodup_iff.mpr hStems)

end Shelf

------------------------------------------------------------
-- What is fixed by tapes
------------------------------------------------------------

namespace TapeVenue

/-
  Without a deadline, tapes fix the end of each walk and the
  number that is looked up, and a shelf fixes its answers.
-/
def fixed
    (v : TapeVenue)
    (s : Settings)
    (hTimeout : s.taskTimeoutMs = none)
    (reference : Option Int)
    (rejected : Option String) :
    Prospect (v.office s reference Shelf.sink) False :=
  let first := Walk.start (WalkRules.ofSettings s)
  { OnWay := fun w =>
      w.requests < w.rules.maxPages
        ∧ v.walked w = v.walked (first w.instrument w.whole)
    Ends := fun name w r => r = v.walked (first name w)
    Found := fun name endMs r => r = v.latest name endMs
    Holds := Shelf.Keeps rejected
    Answered := fun result answer =>
      answer = Shelf.answer rejected result
    starts := by
      intro name w
      refine ⟨?_, rfl⟩
      change 0 < max s.maxPages 1
      omega
    goesOn := by
      rintro n w w' ⟨hMore, hSame⟩ hAsks
      change w.answer (v.page w.query) = .asks w' at hAsks
      rcases Walk.asks_of_answer hAsks with
        ⟨hInstrument, hWhole, hRules, hCount, hRoom⟩
      refine ⟨?_, ?_⟩
      · rw [hCount, hRules]
        exact hRoom
      · rw [hInstrument, hWhole, ← hSame, v.walked_eq hMore, hAsks]
    ends := by
      rintro n w r ⟨hMore, hSame⟩ hEnds
      change w.answer (v.page w.query) = .ends r at hEnds
      rw [← hSame, v.walked_eq hMore, hEnds]
    finds := fun _ _ _ => rfl
    canceled := False.elim
    lookupCanceled := False.elim
    overdue := by
      intro ms hSome
      change s.taskTimeoutMs = some ms at hSome
      rw [hTimeout] at hSome
      cases hSome
    keeps := fun _ result hKeeps =>
      Shelf.keeps_keep hKeeps result }

theorem determined_fixed
    (v : TapeVenue)
    (s : Settings)
    (hTimeout : s.taskTimeoutMs = none)
    (reference : Option Int)
    (rejected : Option String) :
    (v.fixed s hTimeout reference rejected).Determined :=
  { ends := fun _ _ _ _ h h' => h.trans h'.symm
    found := fun _ _ _ _ h h' => h.trans h'.symm
    answered := fun _ _ _ h h' => h.trans h'.symm }

end TapeVenue

end TradeTape
