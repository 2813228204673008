import Mathlib.Data.List.Nodup
import TradeTape.Trade.Record

/-
  The order of trades and lists that follow it.

  Trades are ordered by instant and then by number.  Two
  trades with different numbers always stand in one order or
  the other, so a sorted list without a repeated number is
  strictly ordered.

  Key statements include:
    * `Trade.before_or_before_of_seq_ne`
    * `Trade.InOrder`
    * `Trade.inOrder_of_sorted`
    * `Trade.InOrder.ext`
-/

namespace TradeTape

namespace Trade

------------------------------------------------------------
-- The order
------------------------------------------------------------

theorem Before.irrefl (t : Trade) : ¬Before t t := by
  unfold Before
  omega

theorem Before.asymm
    {t u : Trade}
    (htu : Before t u) :
    ¬Before u t := by
  unfold Before at *
  omega

theorem Before.trans
    {t u v : Trade}
    (htu : Before t u)
    (huv : Before u v) :
    Before t v := by
  unfold Before at *
  omega

/- Trades with different numbers are in one order or the other. -/
theorem before_or_before_of_seq_ne
    {t u : Trade}
    (hSeq : t.seq ≠ u.seq) :
    Before t u ∨ Before u t := by
  unfold Before
  omega

theorem le_trans
    (t u v : Trade)
    (htu : t.le u = true)
    (huv : u.le v = true) :
    t.le v = true := by
  unfold le Before at *
  simp only [decide_eq_true_eq] at *
  omega

theorem le_total
    (t u : Trade) :
    (t.le u || u.le t) = true := by
  unfold le Before
  simp only [Bool.or_eq_true, decide_eq_true_eq]
  omega

------------------------------------------------------------
-- Ordered lists
------------------------------------------------------------

/- A list in which each trade stands before all later ones. -/
def InOrder (trades : List Trade) : Prop :=
  trades.Pairwise Before

instance (trades : List Trade) : Decidable (InOrder trades) := by
  unfold InOrder
  infer_instance

theorem InOrder.nodup
    {trades : List Trade}
    (h : InOrder trades) :
    trades.Nodup := by
  refine List.Pairwise.imp ?_ h
  intro t u hBefore hEq
  exact Before.irrefl t (hEq ▸ hBefore)

/- A sorted list whose numbers differ is strictly ordered. -/
theorem inOrder_of_sorted
    {trades : List Trade}
    (hSorted : trades.Pairwise fun t u => t.le u = true)
    (hSeqs : (trades.map Trade.seq).Nodup) :
    InOrder trades := by
  have hApart := List.pairwise_map.mp hSeqs
  refine (hSorted.and hApart).imp ?_
  intro t u hBoth
  have hLe : ¬Before u t := by
    simpa [le] using hBoth.1
  exact
    (before_or_before_of_seq_ne hBoth.2).resolve_right hLe

/- Ordered lists with the same trades are equal. -/
theorem InOrder.ext
    {trades others : List Trade}
    (hTrades : InOrder trades)
    (hOthers : InOrder others)
    (hSame : ∀ t, t ∈ trades ↔ t ∈ others) :
    trades = others := by
  have hPerm : trades.Perm others :=
    (List.perm_ext_iff_of_nodup hTrades.nodup
      hOthers.nodup).mpr hSame
  refine hPerm.eq_of_pairwise ?_ hTrades hOthers
  intro t u _ _ htu hut
  exact absurd hut htu.asymm

------------------------------------------------------------
-- Lists without a repeated number
------------------------------------------------------------

/- A list in which no two trades share a number. -/
def SeqsDiffer (trades : List Trade) : Prop :=
  (trades.map Trade.seq).Nodup

instance (trades : List Trade) : Decidable (SeqsDiffer trades) := by
  unfold SeqsDiffer
  infer_instance

theorem SeqsDiffer.nodup
    {trades : List Trade}
    (h : SeqsDiffer trades) :
    trades.Nodup :=
  List.Nodup.of_map _ h

/- Where numbers differ, a trade is known by its number. -/
theorem SeqsDiffer.eq_of_seq_eq
    {trades : List Trade}
    {t u : Trade}
    (h : SeqsDiffer trades)
    (ht : t ∈ trades)
    (hu : u ∈ trades)
    (hSeq : t.seq = u.seq) :
    t = u :=
  List.inj_on_of_nodup_map h ht hu hSeq

theorem SeqsDiffer.perm
    {trades others : List Trade}
    (h : SeqsDiffer trades)
    (hPerm : trades.Perm others) :
    SeqsDiffer others :=
  (hPerm.map Trade.seq).nodup_iff.mp h

end Trade

end TradeTape
