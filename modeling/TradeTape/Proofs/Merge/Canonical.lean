import TradeTape.Backfill.Merge
import TradeTape.Proofs.Trade.Order

/-
  What merging keeps.

  Merging pages gives an ordered list without a repeated
  number, whatever the pages hold.  Where the pages agree on
  what a number stands for, nothing inside the window is lost.
  Merging windows whose trades all have different numbers only
  sorts them.

  Key statements include:
    * `Merge.inOrder_pages`
    * `Merge.seqsDiffer_pages`
    * `Merge.mem_pages_iff`
    * `Merge.windows_eq_sortTrades`
-/

namespace TradeTape

namespace Merge

open Trade

------------------------------------------------------------
-- Sorting
------------------------------------------------------------

/- Lists with the same members are sorted to the same list. -/
theorem mergeSort_eq_of_perm
    {α : Type}
    {le : α → α → Bool}
    (hTrans : ∀ a b c, le a b = true → le b c = true → le a c = true)
    (hTotal : ∀ a b, (le a b || le b a) = true)
    {xs ys : List α}
    (hPerm : xs.Perm ys)
    (hTies :
      ∀ a ∈ xs, ∀ b ∈ xs,
        le a b = true → le b a = true → a = b) :
    xs.mergeSort le = ys.mergeSort le := by
  have hSorted :
      (xs.mergeSort le).Perm (ys.mergeSort le) :=
    (List.mergeSort_perm xs le).trans
      (hPerm.trans (List.mergeSort_perm ys le).symm)
  refine
    List.Perm.eq_of_pairwise ?_
      (List.pairwise_mergeSort hTrans hTotal xs)
      (List.pairwise_mergeSort hTrans hTotal ys) hSorted
  intro a b ha hb
  exact
    hTies a (List.mem_mergeSort.mp ha) b
      (hPerm.mem_iff.mpr (List.mem_mergeSort.mp hb))

theorem sortTrades_perm (trades : List Trade) :
    (sortTrades trades).Perm trades :=
  List.mergeSort_perm trades Trade.le

@[simp] theorem mem_sortTrades
    {trades : List Trade}
    {t : Trade} :
    t ∈ sortTrades trades ↔ t ∈ trades :=
  (sortTrades_perm trades).mem_iff

theorem pairwise_sortTrades (trades : List Trade) :
    (sortTrades trades).Pairwise fun t u => t.le u = true :=
  List.pairwise_mergeSort Trade.le_trans Trade.le_total trades

/- Sorting trades with different numbers orders them strictly. -/
theorem inOrder_sortTrades
    {trades : List Trade}
    (hSeqs : SeqsDiffer trades) :
    InOrder (sortTrades trades) :=
  inOrder_of_sorted (pairwise_sortTrades trades)
    (hSeqs.perm (sortTrades_perm trades).symm)

------------------------------------------------------------
-- The first of each number
------------------------------------------------------------

theorem firstOfEachSeq_sublist
    (seen : List Int)
    (trades : List Trade) :
    (firstOfEachSeq seen trades).Sublist trades := by
  induction trades generalizing seen with
  | nil => exact List.Sublist.slnil
  | cons t rest ih =>
      unfold firstOfEachSeq
      by_cases hSeen : t.seq ∈ seen
      · rw [if_pos hSeen]
        exact (ih seen).cons t
      · rw [if_neg hSeen]
        exact (ih (t.seq :: seen)).cons_cons t

/- What was seen does not come again. -/
theorem seq_notMem_of_mem_firstOfEachSeq
    {seen : List Int}
    {trades : List Trade}
    {t : Trade}
    (hMem : t ∈ firstOfEachSeq seen trades) :
    t.seq ∉ seen := by
  induction trades generalizing seen with
  | nil => simp [firstOfEachSeq] at hMem
  | cons u rest ih =>
      unfold firstOfEachSeq at hMem
      by_cases hSeen : u.seq ∈ seen
      · rw [if_pos hSeen] at hMem
        exact ih hMem
      · rw [if_neg hSeen] at hMem
        rcases List.mem_cons.mp hMem with hHead | hTail
        · exact hHead ▸ hSeen
        · exact fun h => ih hTail (List.mem_cons_of_mem _ h)

theorem seqsDiffer_firstOfEachSeq
    (seen : List Int)
    (trades : List Trade) :
    SeqsDiffer (firstOfEachSeq seen trades) := by
  induction trades generalizing seen with
  | nil => exact List.nodup_nil
  | cons t rest ih =>
      unfold firstOfEachSeq
      by_cases hSeen : t.seq ∈ seen
      · rw [if_pos hSeen]
        exact ih seen
      · rw [if_neg hSeen]
        refine List.nodup_cons.mpr ⟨?_, ih (t.seq :: seen)⟩
        intro hMem
        rcases List.mem_map.mp hMem with ⟨u, hu, hSeq⟩
        exact
          seq_notMem_of_mem_firstOfEachSeq hu
            (hSeq ▸ List.mem_cons_self)

/- Each number that was not seen keeps one of its trades. -/
theorem exists_mem_firstOfEachSeq
    {seen : List Int}
    {trades : List Trade}
    {t : Trade}
    (hMem : t ∈ trades)
    (hSeen : t.seq ∉ seen) :
    ∃ u ∈ firstOfEachSeq seen trades, u.seq = t.seq := by
  induction trades generalizing seen with
  | nil => exact absurd hMem List.not_mem_nil
  | cons v rest ih =>
      unfold firstOfEachSeq
      by_cases hHead : v.seq ∈ seen
      · rw [if_pos hHead]
        rcases List.mem_cons.mp hMem with hEq | hRest
        · exact absurd (hEq ▸ hHead) hSeen
        · exact ih hRest hSeen
      · rw [if_neg hHead]
        by_cases hSame : v.seq = t.seq
        · exact ⟨v, List.mem_cons_self, hSame⟩
        · have hRest : t ∈ rest :=
            (List.mem_cons.mp hMem).resolve_left
              fun h => hSame (h ▸ rfl)
          have hFresh : t.seq ∉ v.seq :: seen := by
            intro h
            rcases List.mem_cons.mp h with hEq | hOld
            · exact hSame hEq.symm
            · exact hSeen hOld
          rcases ih hRest hFresh with ⟨u, hu, hSeq⟩
          exact ⟨u, List.mem_cons_of_mem v hu, hSeq⟩

------------------------------------------------------------
-- Pages
------------------------------------------------------------

/- What merging keeps was on a page and lies in the window. -/
theorem mem_of_mem_pages
    {ps : List (List Trade)}
    {w : Window}
    {t : Trade}
    (hMem : t ∈ Merge.pages ps w) :
    t ∈ ps.flatten ∧ w.Holds t := by
  have hSorted :=
    (firstOfEachSeq_sublist [] _).mem hMem
  rw [mem_sortTrades, List.mem_filter] at hSorted
  exact ⟨hSorted.1, of_decide_eq_true hSorted.2⟩

theorem seqsDiffer_pages
    (ps : List (List Trade))
    (w : Window) :
    SeqsDiffer (Merge.pages ps w) :=
  seqsDiffer_firstOfEachSeq [] _

theorem inOrder_pages
    (ps : List (List Trade))
    (w : Window) :
    InOrder (Merge.pages ps w) :=
  inOrder_of_sorted
    ((pairwise_sortTrades _).sublist
      (firstOfEachSeq_sublist [] _))
    (seqsDiffer_pages ps w)

/-
  Where no number stands for two trades, merging keeps all
  that lies in the window.
-/
theorem mem_pages_iff
    {ps : List (List Trade)}
    {w : Window}
    (hSeqs :
      ∀ t ∈ ps.flatten, ∀ u ∈ ps.flatten,
        t.seq = u.seq → t = u)
    (t : Trade) :
    t ∈ Merge.pages ps w ↔ t ∈ ps.flatten ∧ w.Holds t := by
  constructor
  · exact mem_of_mem_pages
  · rintro ⟨hMem, hHolds⟩
    have hSorted :
        t ∈ sortTrades (ps.flatten.filter fun t => w.Holds t) := by
      rw [mem_sortTrades, List.mem_filter]
      exact ⟨hMem, decide_eq_true hHolds⟩
    rcases exists_mem_firstOfEachSeq hSorted List.not_mem_nil with
      ⟨u, hu, hSeq⟩
    have hEq : u = t :=
      hSeqs u (mem_of_mem_pages hu).1 t hMem hSeq
    exact hEq ▸ hu

------------------------------------------------------------
-- Windows
------------------------------------------------------------

/- Nothing is dropped where no number is repeated. -/
theorem dropRepeats_eq_self
    {last : Int}
    {trades : List Trade}
    (hSeqs : SeqsDiffer trades)
    (hLast : ∀ t ∈ trades, t.seq ≠ last) :
    dropRepeats last trades = trades := by
  induction trades generalizing last with
  | nil => rfl
  | cons t rest ih =>
      have hSplit := List.nodup_cons.mp hSeqs
      unfold dropRepeats
      rw [if_neg (hLast t List.mem_cons_self), ih hSplit.2]
      intro u hu hEq
      exact hSplit.1 (hEq ▸ List.mem_map_of_mem hu)

theorem windows_eq_sortTrades
    {tapes : List (List Trade)}
    (hSeqs : SeqsDiffer tapes.flatten) :
    Merge.windows tapes = sortTrades tapes.flatten := by
  unfold Merge.windows
  have hSorted :=
    hSeqs.perm (sortTrades_perm tapes.flatten).symm
  cases hTapes : sortTrades tapes.flatten with
  | nil => rfl
  | cons t rest =>
      rw [hTapes] at hSorted
      have hSplit := List.nodup_cons.mp hSorted
      change t :: dropRepeats t.seq rest = t :: rest
      rw [dropRepeats_eq_self hSplit.2]
      intro u hu hEq
      exact hSplit.1 (hEq ▸ List.mem_map_of_mem hu)

end Merge

end TradeTape
