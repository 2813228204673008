import Mathlib.Data.List.Destutter
import TradeTape.Proofs.Merge.Canonical

/-
  Merging windows drops a trade only next to one with its
  number.

  What is left is strictly ordered.  A number is left twice
  exactly if it comes back after another one: if a trade with
  another number stands between two trades that share theirs.

  Key statements include:
    * `Merge.Returns`
    * `Merge.inOrder_windows`
    * `Merge.exists_standsFor`
    * `Merge.seqsDiffer_windows_iff`
-/

namespace TradeTape

namespace Merge

open Trade

------------------------------------------------------------
-- Numbers that come back
------------------------------------------------------------

/- A number comes back after a trade with another number. -/
def Returns (trades : List Trade) : Prop :=
  ∃ t ∈ trades, ∃ u ∈ trades, ∃ v ∈ trades,
    Before t u ∧ Before u v ∧ t.seq = v.seq ∧ u.seq ≠ t.seq

theorem Returns.mono
    {trades others : List Trade}
    (h : Returns trades)
    (hMore : ∀ t ∈ trades, t ∈ others) :
    Returns others := by
  rcases h with ⟨t, ht, u, hu, v, hv, hApart⟩
  exact ⟨t, hMore t ht, u, hMore u hu, v, hMore v hv, hApart⟩

/- Numbers that are of one instant each do not come back. -/
theorem not_returns_of_timestamp_eq
    {trades : List Trade}
    (hInstant :
      ∀ t ∈ trades, ∀ u ∈ trades,
        t.seq = u.seq → t.timestamp = u.timestamp) :
    ¬Returns trades := by
  rintro ⟨t, ht, u, hu, v, hv, htu, huv, hSeq, _⟩
  have hSame := hInstant t ht v hv hSeq
  unfold Before at htu huv
  omega

------------------------------------------------------------
-- Neighbours
------------------------------------------------------------

/- Trades that do not share a number. -/
def Apart (t u : Trade) : Prop :=
  t.seq ≠ u.seq

instance : DecidableRel Apart := fun t u => by
  unfold Apart
  infer_instance

theorem cons_dropRepeats
    (t : Trade)
    (rest : List Trade) :
    t :: dropRepeats t.seq rest = rest.destutter' Apart t := by
  induction rest generalizing t with
  | nil => rfl
  | cons u rest ih =>
      unfold dropRepeats
      by_cases hSame : u.seq = t.seq
      · rw [if_pos hSame, List.destutter'_cons_neg, ih]
        exact not_not.mpr hSame.symm
      · rw [if_neg hSame, List.destutter'_cons_pos, ih]
        exact Ne.symm hSame

/- Dropping repeats keeps the first of each run of a number. -/
theorem firstOfNeighbours_eq (trades : List Trade) :
    firstOfNeighbours trades = trades.destutter Apart := by
  cases trades with
  | nil => rfl
  | cons t rest => exact cons_dropRepeats t rest

theorem firstOfNeighbours_sublist (trades : List Trade) :
    (firstOfNeighbours trades).Sublist trades := by
  rw [firstOfNeighbours_eq]
  exact List.destutter_sublist Apart trades

theorem isChain_firstOfNeighbours (trades : List Trade) :
    (firstOfNeighbours trades).IsChain Apart := by
  rw [firstOfNeighbours_eq]
  exact List.isChain_destutter Apart trades

/- A sorted list whose neighbours differ is strictly ordered. -/
theorem inOrder_of_isChain
    {trades : List Trade}
    (hSorted : trades.Pairwise fun t u => ¬Before u t)
    (hChain : trades.IsChain Apart) :
    InOrder trades := by
  induction trades with
  | nil => exact List.Pairwise.nil
  | cons t rest ih =>
      rcases List.pairwise_cons.mp hSorted with ⟨hFirst, hRest⟩
      have hOrder := ih hRest hChain.tail
      refine List.pairwise_cons.mpr ⟨?_, hOrder⟩
      cases rest with
      | nil => simp
      | cons u rest =>
          have hApart := (List.isChain_cons_cons.mp hChain).1
          have htu : Before t u :=
            (before_or_before_of_seq_ne hApart).resolve_right
              (hFirst u List.mem_cons_self)
          intro v hv
          rcases List.mem_cons.mp hv with rfl | hLater
          · exact htu
          · exact htu.trans ((List.pairwise_cons.mp hOrder).1 v hLater)

/- The trade that stands for another one of a list. -/
def StandsFor
    (trades : List Trade)
    (u t : Trade) : Prop :=
  u.seq = t.seq
    ∧ ¬Before t u
    ∧ ∀ v ∈ trades, Before u v → Before v t → v.seq = t.seq

theorem StandsFor.refl
    (trades : List Trade)
    (t : Trade) :
    StandsFor trades t t := by
  refine ⟨rfl, Before.irrefl t, ?_⟩
  intro v _ htv hvt
  exact absurd hvt htv.asymm

/- More trades, of the run of a number or not within it. -/
theorem StandsFor.extend
    {trades others : List Trade}
    {t u : Trade}
    (h : StandsFor trades u t)
    (hMore :
      ∀ v ∈ others, v ∈ trades ∨ ¬Before u v ∨ v.seq = t.seq) :
    StandsFor others u t := by
  refine ⟨h.1, h.2.1, ?_⟩
  intro v hv huv hvt
  rcases hMore v hv with hOld | hNot | hSame
  · exact h.2.2 v hOld huv hvt
  · exact absurd huv hNot
  · exact hSame

theorem dropRepeats_sublist
    (t : Trade)
    (rest : List Trade) :
    (dropRepeats t.seq rest).Sublist rest := by
  apply List.cons_sublist_cons.mp
  rw [cons_dropRepeats t rest]
  exact List.destutter'_sublist rest Apart t

/-
  Each trade is stood for by the first of its run, which bears
  its number, is not after it, and has no other number between
  itself and the trade.
-/
theorem exists_standsFor_cons
    {first : Trade}
    {rest : List Trade}
    (hSorted : (first :: rest).Pairwise fun t u => ¬Before u t)
    {t : Trade}
    (ht : t ∈ first :: rest) :
    ∃ u ∈ first :: dropRepeats first.seq rest,
      StandsFor (first :: rest) u t := by
  induction rest generalizing first t with
  | nil =>
      rw [List.mem_singleton.mp ht]
      exact ⟨first, List.mem_cons_self, StandsFor.refl _ first⟩
  | cons x rest ih =>
      rcases List.pairwise_cons.mp hSorted with ⟨hFirst, hRest⟩
      have hLater := (List.pairwise_cons.mp hRest).1
      rcases List.mem_cons.mp ht with rfl | ht
      · exact ⟨t, List.mem_cons_self, StandsFor.refl _ t⟩
      unfold dropRepeats
      by_cases hSame : x.seq = first.seq
      · -- The second trade is dropped, and the first stands for it.
        rw [if_pos hSame]
        rcases List.mem_cons.mp ht with rfl | ht
        · refine ⟨first, List.mem_cons_self, hSame.symm, ?_, ?_⟩
          · exact hFirst t List.mem_cons_self
          · intro v hv hfv hvt
            rcases List.mem_cons.mp hv with rfl | hv
            · exact absurd hfv (Before.irrefl v)
            · rcases List.mem_cons.mp hv with rfl | hv
              · rfl
              · exact absurd hvt (hLater v hv)
        · have hSkip :
              (first :: rest).Pairwise fun t u => ¬Before u t :=
            hSorted.sublist
              ((List.sublist_cons_self x rest).cons_cons first)
          rcases ih hSkip (List.mem_cons_of_mem first ht) with
            ⟨u, hu, hStands⟩
          refine ⟨u, hu, hStands.extend ?_⟩
          intro v hv
          rcases List.mem_cons.mp hv with rfl | hv
          · exact Or.inl List.mem_cons_self
          rcases List.mem_cons.mp hv with rfl | hv
          · rcases List.mem_cons.mp hu with rfl | hu
            · exact Or.inr (Or.inr (hSame.trans hStands.1))
            · have hRun := (dropRepeats_sublist first rest).mem hu
              exact Or.inr (Or.inl (hLater u hRun))
          · exact Or.inl (List.mem_cons_of_mem first hv)
      · -- The second trade is kept, and nothing stands before it.
        rw [if_neg hSame]
        rcases ih hRest ht with ⟨u, hu, hStands⟩
        refine ⟨u, List.mem_cons_of_mem first hu, hStands.extend ?_⟩
        intro v hv
        rcases List.mem_cons.mp hv with rfl | hv
        · refine Or.inr (Or.inl (hFirst u ?_))
          exact
            ((dropRepeats_sublist x rest).cons_cons x).mem hu
        · exact Or.inl hv

theorem exists_standsFor
    {trades : List Trade}
    (hSorted : trades.Pairwise fun t u => ¬Before u t)
    {t : Trade}
    (ht : t ∈ trades) :
    ∃ u ∈ firstOfNeighbours trades, StandsFor trades u t := by
  cases trades with
  | nil => cases ht
  | cons first rest => exact exists_standsFor_cons hSorted ht

------------------------------------------------------------
-- Numbers that are left twice
------------------------------------------------------------

/- Where neighbours differ, a number is twice only if it returns. -/
theorem seqsDiffer_of_isChain
    {trades : List Trade}
    (hOrder : InOrder trades)
    (hChain : trades.IsChain Apart)
    (hOnce : ¬Returns trades) :
    SeqsDiffer trades := by
  induction trades with
  | nil => exact List.nodup_nil
  | cons t rest ih =>
      rcases List.pairwise_cons.mp hOrder with ⟨hFirst, hRest⟩
      have hTail :=
        ih hRest hChain.tail fun h =>
          hOnce (h.mono fun u hu => List.mem_cons_of_mem t hu)
      refine List.nodup_cons.mpr ⟨?_, hTail⟩
      intro hAgain
      rcases List.mem_map.mp hAgain with ⟨v, hv, hSeq⟩
      cases rest with
      | nil => cases hv
      | cons u rest =>
          have hApart := (List.isChain_cons_cons.mp hChain).1
          rcases List.mem_cons.mp hv with rfl | hLater
          · exact hApart hSeq.symm
          · apply hOnce
            refine
              ⟨t, List.mem_cons_self, u, by simp, v, by simp [hLater],
                hFirst u List.mem_cons_self, ?_, hSeq.symm,
                Ne.symm hApart⟩
            exact (List.pairwise_cons.mp hRest).1 v hLater

/- A number that returns is left on both sides of the other. -/
theorem not_returns_of_seqsDiffer
    {trades : List Trade}
    (hSorted : trades.Pairwise fun t u => ¬Before u t)
    (hSeqs : SeqsDiffer (firstOfNeighbours trades)) :
    ¬Returns trades := by
  rintro ⟨t, ht, u, hu, v, hv, htu, huv, hSeq, hApart⟩
  rcases exists_standsFor hSorted ht with ⟨a, ha, hSeqA, hNotA, _⟩
  rcases exists_standsFor hSorted hv with ⟨b, hb, hSeqB, _, hRunB⟩
  have hSame : a = b :=
    hSeqs.eq_of_seq_eq ha hb (hSeqA.trans (hSeq.trans hSeqB.symm))
  -- What stands for the first trade is before the other number.
  have hau : Before a u := by
    unfold Before at htu hNotA ⊢
    omega
  have hRun := hRunB u hu (hSame ▸ hau) huv
  exact hApart (hRun.trans hSeq.symm)

------------------------------------------------------------
-- Windows
------------------------------------------------------------

variable {tapes : List (List Trade)}

theorem isChain_windows (tapes : List (List Trade)) :
    (Merge.windows tapes).IsChain Apart :=
  isChain_firstOfNeighbours _

theorem mem_of_mem_windows
    {t : Trade}
    (hMem : t ∈ Merge.windows tapes) :
    t ∈ tapes.flatten :=
  mem_sortTrades.mp ((firstOfNeighbours_sublist _).mem hMem)

theorem not_before_sortTrades (trades : List Trade) :
    (sortTrades trades).Pairwise fun t u => ¬Before u t := by
  refine (pairwise_sortTrades trades).imp ?_
  intro t u hLe
  simpa [le] using hLe

/- What windows are merged to is strictly ordered. -/
theorem inOrder_windows (tapes : List (List Trade)) :
    InOrder (Merge.windows tapes) :=
  inOrder_of_isChain
    ((not_before_sortTrades _).sublist
      (firstOfNeighbours_sublist _))
    (isChain_windows tapes)

/- No number is left twice if none of them returns, and only then. -/
theorem seqsDiffer_windows_iff :
    SeqsDiffer (Merge.windows tapes) ↔ ¬Returns tapes.flatten := by
  constructor
  · intro hSeqs hReturns
    apply
      not_returns_of_seqsDiffer
        (not_before_sortTrades tapes.flatten) hSeqs
    exact hReturns.mono fun t ht => mem_sortTrades.mpr ht
  · intro hOnce
    apply seqsDiffer_of_isChain
    · exact inOrder_windows tapes
    · exact isChain_windows tapes
    · intro hReturns
      exact hOnce (hReturns.mono fun t ht => mem_of_mem_windows ht)

end Merge

end TradeTape
