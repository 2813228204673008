import Mathlib.Data.List.Perm.Subperm
import TradeTape.Backfill.Walk
import TradeTape.Proofs.Merge.Canonical
import TradeTape.Proofs.Trade.Windows

/-
  Answers that a venue may give to a query.

  A venue that cuts a page short decides which trades it
  leaves out.  All that is asked of it is that it leaves out
  no newer trade of a window of instants, and no smaller
  number of a window of numbers, than it serves.  Ties at the
  cut may be broken in any way.

  Key statements include:
    * `Answers`
    * `Answers.mem_of_short`
    * `Answers.length_le_count`
    * `Exact`
-/

namespace TradeTape

open Trade

------------------------------------------------------------
-- Least and greatest
------------------------------------------------------------

theorem foldl_min_le
    (n : Int)
    (rest : List Int) :
    rest.foldl min n ≤ n ∧ ∀ m ∈ rest, rest.foldl min n ≤ m := by
  induction rest generalizing n with
  | nil => simp
  | cons k rest ih =>
      have hRest := ih (min n k)
      rw [List.foldl_cons]
      refine ⟨by omega, ?_⟩
      intro m hm
      rcases List.mem_cons.mp hm with hHead | hTail
      · omega
      · exact hRest.2 m hTail

theorem foldl_min_mem
    (n : Int)
    (rest : List Int) :
    rest.foldl min n ∈ n :: rest := by
  induction rest generalizing n with
  | nil => simp
  | cons k rest ih =>
      rw [List.foldl_cons]
      rcases List.mem_cons.mp (ih (min n k)) with hHead | hTail
      · rw [hHead]
        rcases Int.le_total n k with hnk | hkn
        · simp [Int.min_eq_left hnk]
        · simp [Int.min_eq_right hkn]
      · exact
          List.mem_cons_of_mem _ (List.mem_cons_of_mem _ hTail)

theorem foldl_max_eq_neg
    (n : Int)
    (rest : List Int) :
    rest.foldl max n = -(rest.map (-·)).foldl min (-n) := by
  induction rest generalizing n with
  | nil => simp
  | cons k rest ih =>
      rw [List.foldl_cons, List.map_cons, List.foldl_cons, ih]
      congr 2
      omega

/- The least of a list is in it and nothing in it is smaller. -/
theorem least?_eq_some
    {ns : List Int}
    {n : Int}
    (hLeast : least? ns = some n) :
    n ∈ ns ∧ ∀ m ∈ ns, n ≤ m := by
  cases ns with
  | nil => cases hLeast
  | cons k rest =>
      have hLeast : rest.foldl min k = n :=
        Option.some.inj hLeast
      rw [← hLeast]
      refine ⟨foldl_min_mem k rest, ?_⟩
      intro m hm
      rcases List.mem_cons.mp hm with hHead | hTail
      · exact hHead ▸ (foldl_min_le k rest).1
      · exact (foldl_min_le k rest).2 m hTail

theorem least?_eq_none
    {ns : List Int}
    (hNone : least? ns = none) :
    ns = [] := by
  cases ns with
  | nil => rfl
  | cons k rest => cases hNone

/- The greatest of a list is in it and nothing is greater. -/
theorem greatest?_eq_some
    {ns : List Int}
    {n : Int}
    (hGreatest : greatest? ns = some n) :
    n ∈ ns ∧ ∀ m ∈ ns, m ≤ n := by
  have hLeast : least? (ns.map (-·)) = some (-n) := by
    cases ns with
    | nil => cases hGreatest
    | cons k rest =>
        have hMax : rest.foldl max k = n :=
          Option.some.inj hGreatest
        rw [foldl_max_eq_neg] at hMax
        simp only [List.map_cons, least?, Option.some.injEq]
        omega
  rcases least?_eq_some hLeast with ⟨hMem, hLe⟩
  refine ⟨?_, ?_⟩
  · rcases List.mem_map.mp hMem with ⟨m, hm, hEq⟩
    have hmn : m = n := by omega
    exact hmn ▸ hm
  · intro m hm
    have hNeg := hLe (-m) (List.mem_map_of_mem hm)
    omega

theorem greatest?_eq_none
    {ns : List Int}
    (hNone : greatest? ns = none) :
    ns = [] := by
  cases ns with
  | nil => rfl
  | cons k rest => cases hNone

------------------------------------------------------------
-- Answers
------------------------------------------------------------

namespace Window

/-
  Whether a trade may be served while another one is left out:
  it is not older, or its number is not greater.
-/
def Prefers : Window → Trade → Trade → Prop
  | .time _, u, t => t.timestamp ≤ u.timestamp
  | .seq _, u, t => u.seq ≤ t.seq

end Window

/-
  A page that answers a query about a tape: as many different
  trades of the window as there are, up to a count, chosen so
  that nothing preferred is left out.
-/
structure Answers
    (tape : List Trade)
    (w : Window)
    (count : Nat)
    (page : List Trade) : Prop where
  nodup : page.Nodup
  within : ∀ t ∈ page, t ∈ tape ∧ w.Holds t
  length : page.length = min count (w.inside tape).length
  preferred :
    ∀ t ∈ tape, w.Holds t → t ∉ page →
      ∀ u ∈ page, w.Prefers u t

namespace Answers

variable {tape : List Trade} {w : Window}
variable {count : Nat} {page : List Trade}

theorem length_le
    (h : Answers tape w count page) :
    page.length ≤ count := by
  have := h.length
  omega

/- A page that was not cut holds all there is. -/
theorem mem_of_short
    (h : Answers tape w count page)
    (hShort : page.length < count)
    {t : Trade}
    (hTape : t ∈ tape)
    (hHolds : w.Holds t) :
    t ∈ page := by
  have hLength := h.length
  have hSubperm : page.Subperm (w.inside tape) :=
    h.nodup.subperm fun u hu =>
      Window.mem_inside.mpr (h.within u hu)
  have hPerm : page.Perm (w.inside tape) :=
    hSubperm.perm_of_length_le (by omega)
  exact
    hPerm.mem_iff.mpr (Window.mem_inside.mpr ⟨hTape, hHolds⟩)

/- A page of one instant shows how many trades share it. -/
theorem length_le_count
    (h : Answers tape w count page)
    {ms : Int}
    (hSame : ∀ t ∈ page, t.timestamp = ms) :
    page.length ≤ tape.countP fun t => t.timestamp = ms := by
  have hAll :
      page.countP (fun t => decide (t.timestamp = ms))
        = page.length := by
    apply List.countP_eq_length.mpr
    intro t ht
    exact decide_eq_true (hSame t ht)
  have hSubperm : page.Subperm tape :=
    h.nodup.subperm fun t ht => (h.within t ht).1
  rw [← hAll]
  exact hSubperm.countP_le _

end Answers

------------------------------------------------------------
-- Exact results
------------------------------------------------------------

/- The trades of a tape in a window, all of them, in order. -/
structure Exact
    (tape : List Trade)
    (w : Window)
    (trades : List Trade) : Prop where
  inOrder : InOrder trades
  mem_iff : ∀ t, t ∈ trades ↔ t ∈ tape ∧ w.Holds t

/- Pages of a tape that leave nothing out merge to all of it. -/
theorem exact_pages
    {tape : List Trade}
    {ps : List (List Trade)}
    {w : Window}
    (hSeqs : SeqsDiffer tape)
    (hKnown : ∀ t ∈ ps.flatten, t ∈ tape)
    (hAll : ∀ t ∈ tape, w.Holds t → t ∈ ps.flatten) :
    Exact tape w (Merge.pages ps w) := by
  refine ⟨Merge.inOrder_pages ps w, ?_⟩
  intro t
  rw [Merge.mem_pages_iff ?_ t]
  · constructor
    · rintro ⟨hMem, hHolds⟩
      exact ⟨hKnown t hMem, hHolds⟩
    · rintro ⟨hTape, hHolds⟩
      exact ⟨hAll t hTape hHolds, hHolds⟩
  · intro u hu v hv hSeq
    exact hSeqs.eq_of_seq_eq (hKnown u hu) (hKnown v hv) hSeq

end TradeTape
