import Mathlib.Data.Finset.Card
import Mathlib.Data.Int.Interval
import TradeTape.Backfill.Desk
import TradeTape.Proofs.Plan.Partition
import TradeTape.Proofs.Walk.Safety
import TradeTape.Proofs.Walk.Steps

/-
  Windows of numbers that one page holds.

  Different numbers of a window are no more than the window
  is long.  So a page that is full holds the last number of a
  window that is no longer than a page, and the walk over it
  makes one request, whatever the page leaves out.

  Key statements include:
    * `PageQuery.Met`
    * `Answers.met`
    * `Window.Short`
    * `Walk.next_of_short`
    * `Walk.run_of_short`
    * `Desk.short_of_mem_seqPlan`
    * `Desk.length_seqPlan`
-/

namespace TradeTape

open Trade

------------------------------------------------------------
-- Pages
------------------------------------------------------------

/-
  A page that may answer a query: it has no more trades than
  were asked for, all of them in the window and none of them
  with the number of another.
-/
structure PageQuery.Met
    (q : PageQuery)
    (page : List Trade) : Prop where
  atMost : page.length ≤ q.count
  once : SeqsDiffer page
  within : ∀ t ∈ page, q.window.Holds t

/- An answer from a tape whose numbers differ is such a page. -/
theorem Answers.met
    {tape : List Trade}
    {q : PageQuery}
    {page : List Trade}
    (h : Answers tape q.window q.count page)
    (hSeqs : SeqsDiffer tape) :
    q.Met page :=
  { atMost := h.length_le
    once := by
      refine List.Nodup.map_on ?_ h.nodup
      intro t ht u hu hSeq
      exact
        hSeqs.eq_of_seq_eq (h.within t ht).1 (h.within u hu).1 hSeq
    within := fun t ht => (h.within t ht).2 }

/- Different numbers of a range are no more than it is long. -/
theorem Trade.SeqsDiffer.length_le
    {trades : List Trade}
    (hSeqs : SeqsDiffer trades)
    {low high : Int}
    (hBetween : ∀ t ∈ trades, low ≤ t.seq ∧ t.seq ≤ high) :
    trades.length ≤ (high + 1 - low).toNat := by
  have hCard :
      (trades.map Trade.seq).toFinset.card = trades.length := by
    rw [List.toFinset_card_of_nodup hSeqs, List.length_map]
  have hSubset :
      (trades.map Trade.seq).toFinset ⊆ Finset.Icc low high := by
    intro n hn
    rcases List.mem_map.mp (List.mem_toFinset.mp hn) with
      ⟨t, ht, rfl⟩
    exact Finset.mem_Icc.mpr (hBetween t ht)
  rw [← hCard, ← Int.card_Icc]
  exact Finset.card_le_card hSubset

/- A window of numbers that is no longer than a page. -/
def Window.Short
    (count : Nat) : Window → Prop
  | .seq w => w.endSeq < w.startSeq + count
  | .time _ => False

------------------------------------------------------------
-- Walks
------------------------------------------------------------

namespace Walk

/- A full page of a short window holds its last number. -/
theorem next_of_short
    {rules : WalkRules}
    {name : String}
    {window : SeqWindow}
    (hShort : (Window.seq window).Short rules.pageSize)
    {page : List Trade}
    (hMet :
      (Walk.start rules name (.seq window)).query.Met page) :
    (Walk.start rules name (.seq window)).next page = .ok none := by
  change nextSeq _ window window page = .ok none
  unfold nextSeq
  cases hGreatest : greatest? (page.map Trade.seq) with
  | none => rfl
  | some newest =>
      rcases greatest?_eq_some hGreatest with ⟨hMem, hNewest⟩
      rcases List.mem_map.mp hMem with ⟨last, hLast, hSeq⟩
      have hStart : window.startSeq ≤ last.seq :=
        (hMet.within last hLast).1
      have hLength :
          page.length ≤ (newest + 1 - window.startSeq).toNat :=
        hMet.once.length_le fun t ht =>
          ⟨(hMet.within t ht).1,
            hNewest t.seq (List.mem_map_of_mem ht)⟩
      refine if_pos ?_
      by_contra hMore
      rw [not_or, not_not] at hMore
      rcases hMore with ⟨hFull, hBelow⟩
      change rules.pageSize ≤ page.length at hFull
      change window.endSeq < window.startSeq + _ at hShort
      omega

/- A page is all that a walk over a short window asks for. -/
theorem answer_of_short
    {rules : WalkRules}
    {name : String}
    {window : SeqWindow}
    (hShort : (Window.seq window).Short rules.pageSize)
    {page : List Trade}
    (hMet :
      (Walk.start rules name (.seq window)).query.Met page) :
    (Walk.start rules name (.seq window)).answer (.ok page)
      = .ends
        (.ok
          { window := .seq window
            trades := Merge.pages [page] (.seq window)
            requests := 1 }) := by
  change receive _ page = _
  unfold receive
  rw [next_of_short hShort hMet]
  rfl

/- A walk over a short window makes one request. -/
theorem run_of_short
    {σ : Type}
    (ask : σ → PageQuery → Except Fault (List Trade) × σ)
    {rules : WalkRules}
    (hMaxPages : 0 < rules.maxPages)
    {name : String}
    {window : SeqWindow}
    (hShort : (Window.seq window).Short rules.pageSize)
    (s : σ)
    {page : List Trade}
    (hReply :
      (ask s (Walk.start rules name (.seq window)).query).1
        = .ok page)
    (hMet :
      (Walk.start rules name (.seq window)).query.Met page) :
    let w := Walk.start rules name (.seq window)
    w.run ask s =
      (.ok
          { window := .seq window
            trades := Merge.pages [page] (.seq window)
            requests := 1 },
        [w.query], (ask s w.query).2) := by
  intro w
  have hLeft : w.allowance = rules.maxPages - 1 + 1 := by
    change rules.maxPages - 0 = _
    omega
  unfold run
  rw [hLeft, follow]
  simp only [w, hReply, answer_of_short hShort hMet]

end Walk

------------------------------------------------------------
-- Plans
------------------------------------------------------------

namespace Plan

variable {span : Int} {range : SeqWindow}

theorem cuts_seqWindows
    (hRange : range.startSeq ≤ range.endSeq) :
    Cuts range.endSeq (max span 1) range.startSeq
      ((seqWindows span range).map fun w =>
        (w.startSeq, w.endSeq)) := by
  have hSame :
      ((seqWindows span range).map fun w =>
          (w.startSeq, w.endSeq))
        = pieces range.startSeq range.endSeq span := by
    simp [seqWindows, List.map_map, Function.comp_def]
  rw [hSame]
  exact cuts_pieces hRange

/- No window of a plan is longer than its span. -/
theorem short_of_mem_seqWindows
    {count : Nat}
    (hCount : max span 1 = count)
    (hRange : range.startSeq ≤ range.endSeq)
    {w : SeqWindow}
    (hw : w ∈ seqWindows span range) :
    (Window.seq w).Short count := by
  have hAtMost :=
    (cuts_seqWindows hRange).atMost _ (List.mem_map_of_mem hw)
  simp only [hCount] at hAtMost
  change w.endSeq < w.startSeq + count
  omega

/- A range has a window for each span, rounded up. -/
theorem length_seqWindows
    {count : Nat}
    (hCount : max span 1 = count)
    (hRange : range.startSeq ≤ range.endSeq) :
    ((seqWindows span range).length : Int)
      = (range.endSeq - range.startSeq + 1 + (count - 1))
        / count := by
  have hLength :=
    (cuts_seqWindows hRange).length_eq (Int.le_max_right span 1)
  rw [List.length_map, hCount] at hLength
  exact hLength

end Plan

namespace Settings

/- A valid page is as long as the span of a window. -/
theorem Valid.seqSpan_eq
    {s : Settings}
    (h : s.Valid) :
    max s.seqSpan 1 = s.pageSize := by
  have hSize := h.pageSize
  have hFits : (s.pageSize : Int) ≤ Word.int64Max := by
    unfold maxPageSize at hSize
    unfold Word.int64Max
    omega
  unfold seqSpan
  rw [if_pos hFits]
  omega

end Settings

namespace Desk

/- A tape whose last number is at least one has a plan. -/
theorem seqPlan_eq
    (s : Settings)
    {n : Int}
    (hSome : 1 ≤ n) :
    seqPlan s (some n)
      = (Plan.seqWindows s.seqSpan ⟨1, n⟩).map .seq := by
  unfold seqPlan
  rw [Option.bind_some, SeqWindow.make?, if_pos hSome]

/- The plan of a tape has windows that one page holds. -/
theorem short_of_mem_seqPlan
    {s : Settings}
    (hValid : s.Valid)
    {latest : Option Int}
    {w : Window}
    (hw : w ∈ seqPlan s latest) :
    w.Short s.pageSize := by
  cases latest with
  | none => cases hw
  | some n =>
      by_cases hSome : 1 ≤ n
      · rw [seqPlan_eq s hSome] at hw
        rcases List.mem_map.mp hw with ⟨v, hv, rfl⟩
        exact
          Plan.short_of_mem_seqWindows hValid.seqSpan_eq hSome hv
      · unfold seqPlan at hw
        rw [Option.bind_some, SeqWindow.make?, if_neg hSome] at hw
        cases hw

/- It has one for each page that its numbers fill, rounded up. -/
theorem length_seqPlan
    {s : Settings}
    (hValid : s.Valid)
    {n : Int}
    (hSome : 1 ≤ n) :
    ((seqPlan s (some n)).length : Int)
      = (n + (s.pageSize - 1)) / s.pageSize := by
  have hLength :=
    @Plan.length_seqWindows s.seqSpan ⟨1, n⟩ _ hValid.seqSpan_eq
      hSome
  rw [seqPlan_eq s hSome, List.length_map, hLength]
  simp only
  congr 1
  omega

end Desk

end TradeTape
