import TradeTape.Backfill.Venue
import TradeTape.Proofs.Walk.Answers

/-
  A venue that serves tapes answers its queries.

  Of a window of instants it serves the newest trades, of a
  window of numbers those with the smallest ones.

  Key statements include:
    * `TapeVenue.answers_select`
    * `TapeVenue.Works.page_eq`
    * `TapeVenue.answers_page`
    * `TapeVenue.latest_eq_ok`
-/

namespace TradeTape

open Trade

/- What is not in the first part of a list is in the rest. -/
theorem mem_take_or_mem_drop
    {α : Type}
    {l : List α}
    {a : α}
    (ha : a ∈ l)
    (n : Nat) :
    a ∈ l.take n ∨ a ∈ l.drop n := by
  rw [← List.take_append_drop n l] at ha
  exact List.mem_append.mp ha

namespace TapeVenue

------------------------------------------------------------
-- Tapes
------------------------------------------------------------

theorem pairwise_tape
    (v : TapeVenue)
    (name : String) :
    (v.tape name).Pairwise fun t u => t.le u = true :=
  Merge.pairwise_sortTrades _

------------------------------------------------------------
-- Pages
------------------------------------------------------------

/- The newest trades of a window of instants answer a query. -/
theorem answers_selectTime
    {tape : List Trade}
    (hSorted : tape.Pairwise fun t u => t.le u = true)
    (hNodup : tape.Nodup)
    (w : TimeWindow)
    (count : Nat) :
    Answers tape (.time w) count
      (select tape (.time w) count) := by
  let matching := Window.inside (.time w) tape
  have hNodup : matching.Nodup := hNodup.filter _
  have hSorted :
      matching.Pairwise fun t u => t.le u = true :=
    hSorted.filter _
  refine
    { nodup := hNodup.sublist (List.drop_sublist _ _)
      within := fun t ht =>
        Window.mem_inside.mp (List.mem_of_mem_drop ht)
      length := ?_
      preferred := ?_ }
  · change (matching.drop (matching.length - count)).length
      = min count matching.length
    rw [List.length_drop]
    omega
  · intro t hTape hHolds hLeft u hServed
    have ht : t ∈ matching :=
      Window.mem_inside.mpr ⟨hTape, hHolds⟩
    have hTake :=
      (mem_take_or_mem_drop ht _).resolve_right hLeft
    have hLe :=
      hSorted.rel_of_mem_take_of_mem_drop hTake hServed
    have hLe : ¬Before u t := of_decide_eq_true hLe
    unfold Before at hLe
    change t.timestamp ≤ u.timestamp
    omega

/- The first trades of a window of numbers answer a query. -/
theorem answers_selectSeq
    {tape : List Trade}
    (hNodup : tape.Nodup)
    (w : SeqWindow)
    (count : Nat) :
    Answers tape (.seq w) count
      (select tape (.seq w) count) := by
  let bySeq (t u : Trade) : Bool := decide (t.seq ≤ u.seq)
  let matching := Window.inside (.seq w) tape
  let sorted := matching.mergeSort bySeq
  have hPerm : sorted.Perm matching :=
    List.mergeSort_perm matching bySeq
  have hNodup : sorted.Nodup :=
    hPerm.nodup_iff.mpr (hNodup.filter _)
  have hSorted : sorted.Pairwise fun t u => bySeq t u = true := by
    apply List.pairwise_mergeSort
    · intro t u v htu huv
      simp only [bySeq, decide_eq_true_eq] at *
      omega
    · intro t u
      simp only [bySeq, Bool.or_eq_true, decide_eq_true_eq]
      omega
  refine
    { nodup := hNodup.sublist (List.take_sublist _ _)
      within := fun t ht =>
        Window.mem_inside.mp
          (hPerm.mem_iff.mp (List.mem_of_mem_take ht))
      length := ?_
      preferred := ?_ }
  · change (sorted.take count).length
      = min count matching.length
    rw [List.length_take, hPerm.length_eq]
  · intro t hTape hHolds hLeft u hServed
    have ht : t ∈ sorted :=
      hPerm.mem_iff.mpr (Window.mem_inside.mpr ⟨hTape, hHolds⟩)
    have hDrop :=
      (mem_take_or_mem_drop ht _).resolve_left hLeft
    have hLe :=
      hSorted.rel_of_mem_take_of_mem_drop hServed hDrop
    have hLe : u.seq ≤ t.seq := of_decide_eq_true hLe
    exact hLe

theorem answers_select
    {tape : List Trade}
    (hSorted : tape.Pairwise fun t u => t.le u = true)
    (hSeqs : SeqsDiffer tape)
    (w : Window)
    (count : Nat) :
    Answers tape w count (select tape w count) := by
  cases w with
  | time w => exact answers_selectTime hSorted hSeqs.nodup w count
  | seq w => exact answers_selectSeq hSeqs.nodup w count

/- A page is the part of the tape that is asked for. -/
theorem page_eq_ok
    {v : TapeVenue}
    {q : PageQuery}
    {page : List Trade}
    (hPage : v.page q = .ok page) :
    page = select (v.tape q.instrument) q.window q.count := by
  unfold TapeVenue.page at hPage
  cases hFault : v.failingInstruments.lookup q.instrument with
  | some f =>
      rw [hFault] at hPage
      cases hPage
  | none =>
      rw [hFault] at hPage
      cases hWindow : q.window with
      | seq w =>
          rw [hWindow] at hPage
          exact (Except.ok.inj hPage).symm
      | time w =>
          rw [hWindow] at hPage
          simp only at hPage
          cases hRange : v.rangeFault? q.instrument w.startMs with
          | some f =>
              rw [hRange] at hPage
              cases hPage
          | none =>
              rw [hRange] at hPage
              exact (Except.ok.inj hPage).symm

/- A venue that never fails for a name. -/
structure Works
    (v : TapeVenue)
    (name : String) : Prop where
  working : v.failingInstruments.lookup name = none
  unbroken : ∀ r ∈ v.failingRanges, r.instrument ≠ name

/- It answers all queries under that name. -/
theorem Works.page_eq
    {v : TapeVenue}
    {q : PageQuery}
    (h : v.Works q.instrument) :
    v.page q
      = .ok (select (v.tape q.instrument) q.window q.count) := by
  have hRanges (ms : Int) :
      v.rangeFault? q.instrument ms = none := by
    unfold rangeFault?
    rw [List.find?_eq_none.mpr]
    · rfl
    · intro r hr hBoth
      exact h.unbroken r hr (of_decide_eq_true hBoth).1
  unfold TapeVenue.page
  rw [h.working]
  cases q.window with
  | seq w => rfl
  | time w => simp only [hRanges]

theorem answers_page
    {v : TapeVenue}
    {q : PageQuery}
    {page : List Trade}
    (hSeqs : SeqsDiffer (v.tape q.instrument))
    (hPage : v.page q = .ok page) :
    Answers (v.tape q.instrument) q.window q.count page := by
  rw [page_eq_ok hPage]
  exact
    answers_select (v.pairwise_tape q.instrument) hSeqs q.window
      q.count

/- A page holds trades of the tape only. -/
theorem mem_tape_of_mem_page
    {v : TapeVenue}
    {q : PageQuery}
    {page : List Trade}
    (hPage : v.page q = .ok page)
    {t : Trade}
    (ht : t ∈ page) :
    t ∈ v.tape q.instrument := by
  rw [page_eq_ok hPage] at ht
  unfold select at ht
  cases hWindow : q.window with
  | time w =>
      rw [hWindow] at ht
      exact List.mem_of_mem_filter (List.mem_of_mem_drop ht)
  | seq w =>
      rw [hWindow] at ht
      have hSorted := List.mem_of_mem_take ht
      exact List.mem_of_mem_filter (List.mem_mergeSort.mp hSorted)

------------------------------------------------------------
-- The latest number
------------------------------------------------------------

/- What a look-up that succeeds has found. -/
theorem latest_eq_ok
    {v : TapeVenue}
    {name : String}
    {endMs : Int}
    {found : Option Int}
    (hLatest : v.latest name endMs = .ok found) :
    found =
      greatest?
        (((v.tape name).filter fun t =>
          t.timestamp ≤ endMs).map Trade.seq) := by
  unfold TapeVenue.latest at hLatest
  cases hFault : v.failingInstruments.lookup name with
  | some f =>
      rw [hFault] at hLatest
      cases hLatest
  | none =>
      rw [hFault] at hLatest
      exact (Except.ok.inj hLatest).symm

end TapeVenue

end TradeTape
