import Mathlib.Data.List.Permutation
import TradeTape.Backfill.Venue
import TradeTape.Proofs.Merge.Canonical
import TradeTape.Proofs.Trade.Windows

/-
  Merged pages are a digest of what they hold.

  A digest of some trades has one of the earliest trades of
  each number among them, in order.  Digests of the same
  trades have the same keys, whatever order the trades came
  in and however often, and a digest is its own digest.

  Key statements include:
    * `Merge.Digest`
    * `Merge.Digest.keys_eq`
    * `Merge.digest_pages`
    * `Merge.pages_eq_self`
    * `Merge.pages_canonical`
-/

namespace TradeTape

namespace Merge

open Trade

------------------------------------------------------------
-- Digests
------------------------------------------------------------

/- One of the earliest trades of each number, in order. -/
structure Digest (trades kept : List Trade) : Prop where
  inOrder : InOrder kept
  among : ∀ t ∈ kept, t ∈ trades
  earliest :
    ∀ t ∈ kept, ∀ u ∈ trades,
      u.seq = t.seq → t.timestamp ≤ u.timestamp
  once :
    ∀ u ∈ trades, (kept.countP fun t => t.seq = u.seq) = 1

/- The order of trades, as one of their keys. -/
def KeyBefore (a b : Int × Int) : Prop :=
  a.1 < b.1 ∨ (a.1 = b.1 ∧ a.2 < b.2)

theorem KeyBefore.asymm
    {a b : Int × Int}
    (hab : KeyBefore a b) :
    ¬KeyBefore b a := by
  unfold KeyBefore at *
  omega

theorem nodup_of_pairwise_keyBefore
    {keys : List (Int × Int)}
    (hKeys : keys.Pairwise KeyBefore) :
    keys.Nodup := by
  refine hKeys.imp ?_
  intro a b hBefore hEq
  exact (hEq ▸ hBefore).asymm (hEq ▸ hBefore)

namespace Digest

variable {trades others kept keptOthers : List Trade}

theorem pairwise_keys
    (h : Digest trades kept) :
    (kept.map key).Pairwise KeyBefore :=
  List.pairwise_map.mpr (h.inOrder.imp fun hBefore => hBefore)

theorem exists_mem
    (h : Digest trades kept)
    {u : Trade}
    (hu : u ∈ trades) :
    ∃ t ∈ kept, t.seq = u.seq := by
  have hSome : 0 < kept.countP fun t => t.seq = u.seq := by
    rw [h.once u hu]
    exact Nat.one_pos
  rcases List.countP_pos_iff.mp hSome with ⟨t, ht, hSeq⟩
  exact ⟨t, ht, of_decide_eq_true hSeq⟩

/- The keys of a digest are in each digest of the same trades. -/
theorem key_mem
    (h : Digest trades kept)
    (hOthers : Digest others keptOthers)
    (hSame : ∀ t, t ∈ trades ↔ t ∈ others)
    {k : Int × Int}
    (hKey : k ∈ kept.map key) :
    k ∈ keptOthers.map key := by
  rcases List.mem_map.mp hKey with ⟨t, ht, rfl⟩
  have hAmong := (hSame t).mp (h.among t ht)
  rcases hOthers.exists_mem hAmong with ⟨u, hu, hSeq⟩
  have hBack := (hSame u).mpr (hOthers.among u hu)
  have hLe : t.timestamp ≤ u.timestamp :=
    h.earliest t ht u hBack hSeq
  have hGe : u.timestamp ≤ t.timestamp :=
    hOthers.earliest u hu t hAmong hSeq.symm
  have hKeys : u.key = t.key :=
    Prod.ext (Int.le_antisymm hGe hLe) hSeq
  exact hKeys ▸ List.mem_map_of_mem hu

/- Digests of the same trades have the same keys. -/
theorem keys_eq
    (h : Digest trades kept)
    (hOthers : Digest others keptOthers)
    (hSame : ∀ t, t ∈ trades ↔ t ∈ others) :
    kept.map key = keptOthers.map key := by
  have hPerm : (kept.map key).Perm (keptOthers.map key) := by
    refine
      (List.perm_ext_iff_of_nodup
        (nodup_of_pairwise_keyBefore h.pairwise_keys)
        (nodup_of_pairwise_keyBefore hOthers.pairwise_keys)).mpr
        fun k => ⟨?_, ?_⟩
    · exact h.key_mem hOthers hSame
    · exact hOthers.key_mem h fun t => (hSame t).symm
  refine
    hPerm.eq_of_pairwise ?_ h.pairwise_keys hOthers.pairwise_keys
  intro a b _ _ hab hba
  exact absurd hba hab.asymm

end Digest

------------------------------------------------------------
-- The first of each number
------------------------------------------------------------

/- The first of a number in a sorted list is not after others. -/
theorem le_of_mem_firstOfEachSeq
    {seen : List Int}
    {trades : List Trade}
    (hSorted : trades.Pairwise fun t u => t.le u = true)
    {t u : Trade}
    (ht : t ∈ firstOfEachSeq seen trades)
    (hu : u ∈ trades)
    (hSeq : u.seq = t.seq) :
    t.le u = true := by
  have hFresh := seq_notMem_of_mem_firstOfEachSeq ht
  induction trades generalizing seen with
  | nil => cases hu
  | cons v rest ih =>
      rcases List.pairwise_cons.mp hSorted with ⟨hFirst, hRest⟩
      unfold firstOfEachSeq at ht
      by_cases hSeen : v.seq ∈ seen
      · rw [if_pos hSeen] at ht
        have hNe : u ≠ v := by
          rintro rfl
          exact hFresh (hSeq ▸ hSeen)
        exact
          ih hRest ht ((List.mem_cons.mp hu).resolve_left hNe)
            hFresh
      · rw [if_neg hSeen] at ht
        rcases List.mem_cons.mp ht with rfl | ht
        · rcases List.mem_cons.mp hu with rfl | hu
          · simpa using Trade.le_total u u
          · exact hFirst u hu
        · have hLater := seq_notMem_of_mem_firstOfEachSeq ht
          have hNe : u ≠ v := by
            rintro rfl
            exact hLater (hSeq ▸ List.mem_cons_self)
          exact
            ih hRest ht ((List.mem_cons.mp hu).resolve_left hNe)
              hLater

/- Where numbers differ and none was seen, all are the first. -/
theorem firstOfEachSeq_eq_self
    {seen : List Int}
    {trades : List Trade}
    (hSeqs : SeqsDiffer trades)
    (hFresh : ∀ t ∈ trades, t.seq ∉ seen) :
    firstOfEachSeq seen trades = trades := by
  induction trades generalizing seen with
  | nil => rfl
  | cons t rest ih =>
      have hSplit := List.nodup_cons.mp hSeqs
      unfold firstOfEachSeq
      rw [if_neg (hFresh t List.mem_cons_self), ih hSplit.2]
      intro u hu hSeen
      rcases List.mem_cons.mp hSeen with hEq | hOld
      · exact hSplit.1 (hEq ▸ List.mem_map_of_mem hu)
      · exact hFresh u (List.mem_cons_of_mem t hu) hOld

/- A number that a list without repeats has is there once. -/
theorem countP_seq_eq_one
    {trades : List Trade}
    (hSeqs : SeqsDiffer trades)
    {t : Trade}
    (ht : t ∈ trades) :
    (trades.countP fun u => u.seq = t.seq) = 1 := by
  have hCount :=
    List.count_eq_one_of_mem hSeqs (List.mem_map_of_mem ht)
  rw [List.count, List.countP_map] at hCount
  refine Eq.trans (List.countP_congr ?_) hCount
  intro u _
  simp

------------------------------------------------------------
-- Pages
------------------------------------------------------------

variable {w : Window}

theorem mem_inside_of_mem_pages
    {ps : List (List Trade)}
    {t : Trade}
    (ht : t ∈ Merge.pages ps w) :
    t ∈ w.inside ps.flatten :=
  Window.mem_inside.mpr (mem_of_mem_pages ht)

/- Merging makes a digest of what the pages have in the window. -/
theorem digest_pages
    (ps : List (List Trade))
    (w : Window) :
    Digest (w.inside ps.flatten) (Merge.pages ps w) := by
  have hSorted := pairwise_sortTrades (w.inside ps.flatten)
  refine
    { inOrder := inOrder_pages ps w
      among := fun t ht => mem_inside_of_mem_pages ht
      earliest := ?_
      once := ?_ }
  · intro t ht u hu hSeq
    have hLe : t.le u = true :=
      le_of_mem_firstOfEachSeq hSorted ht
        (mem_sortTrades.mpr hu) hSeq
    unfold Trade.le Before at hLe
    have hNot := of_decide_eq_true hLe
    omega
  · intro u hu
    rcases
      exists_mem_firstOfEachSeq (mem_sortTrades.mpr hu)
        (List.not_mem_nil (a := u.seq)) with
      ⟨t, ht, hSeq⟩
    rw [← hSeq]
    exact countP_seq_eq_one (seqsDiffer_pages ps w) ht

/- What is merged already stays as it is. -/
theorem pages_eq_self
    {kept : List Trade}
    (hOrder : InOrder kept)
    (hSeqs : SeqsDiffer kept)
    (hHolds : ∀ t ∈ kept, w.Holds t) :
    Merge.pages [kept] w = kept := by
  have hInside : w.inside [kept].flatten = kept := by
    rw [List.flatten_singleton]
    exact List.filter_eq_self.mpr fun t ht =>
      decide_eq_true (hHolds t ht)
  have hSort : sortTrades kept = kept := by
    refine List.mergeSort_of_pairwise (hOrder.imp ?_)
    intro t u hBefore
    exact decide_eq_true hBefore.asymm
  change firstOfEachSeq [] (sortTrades (w.inside _)) = kept
  rw [hInside, hSort]
  exact
    firstOfEachSeq_eq_self hSeqs fun t _ => List.not_mem_nil

/-
  Merging brings pages into a form of their own: the digest
  of what they have in the window.  Its keys are those of any
  other pages with the same trades in the window, and to
  merge it again changes nothing.
-/
theorem pages_canonical
    (ps : List (List Trade))
    (w : Window) :
    Digest (w.inside ps.flatten) (Merge.pages ps w)
      ∧ (∀ others : List (List Trade),
          (∀ t,
            t ∈ w.inside ps.flatten
              ↔ t ∈ w.inside others.flatten) →
          (Merge.pages ps w).map key
            = (Merge.pages others w).map key)
      ∧ Merge.pages [Merge.pages ps w] w = Merge.pages ps w := by
  have hDigest := digest_pages ps w
  refine ⟨hDigest, ?_, ?_⟩
  · intro others hSame
    exact hDigest.keys_eq (digest_pages others w) hSame
  · refine
      pages_eq_self (inOrder_pages ps w) (seqsDiffer_pages ps w) ?_
    intro t ht
    exact (mem_of_mem_pages ht).2

/-
  Two pages with two trades of number 3, one of them twice
  and of another instrument, and one that is not in the
  window.
-/
def strayPages : List (List Trade) :=
  [ [ Trade.synthetic "BTC" 3 7, Trade.synthetic "BTC" 1 9 ],
    [ Trade.synthetic "BTC" 3 5, Trade.synthetic "ETH" 3 5,
      Trade.synthetic "BTC" 2 20 ] ]

/-
  One page with the same trades in the window, turned round:
  the trade that is kept of number 3 is another one, its key
  is the same.
-/
theorem pages_canonical_of_strays :
    let w := Window.time ⟨0, 10⟩
    let turned := [strayPages.flatten.reverse ++ strayPages.flatten]
    Merge.pages strayPages w
          = [Trade.synthetic "BTC" 3 5, Trade.synthetic "BTC" 1 9]
      ∧ Merge.pages turned w
          = [Trade.synthetic "ETH" 3 5, Trade.synthetic "BTC" 1 9]
      ∧ (Merge.pages strayPages w).map key
          = (Merge.pages turned w).map key := by
  intro w turned
  have hSame :
      ∀ t,
        t ∈ w.inside strayPages.flatten
          ↔ t ∈ w.inside turned.flatten := by
    intro t
    simp [turned]
  have hCanonical := pages_canonical strayPages w
  exact ⟨by cbv, by cbv, hCanonical.2.1 turned hSame⟩

end Merge

end TradeTape
