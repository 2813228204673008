import Mathlib.Data.List.Chain
import Mathlib.Data.List.Count
import TradeTape.Backfill.Plan
import TradeTape.Number.Word

/-
  The windows of a plan partition its range.

  A range is cut at its front: the first piece has the full
  size and the rest of the range is cut in turn, until what
  is left fits in one piece.  `Cuts` is this recursion as a
  relation.  The windows of a plan follow it, and so does a
  cutter that holds nothing but machine words, up to the
  ends of their range.

  Key statements include:
    * `Plan.cuts_pieces`
    * `Plan.Cuts.partitions`
    * `Plan.Cuts.wordPieces_eq`
    * `Plan.windows_partition`
-/

namespace TradeTape

namespace Word

/- An integer, where a signed word of 64 bits holds it. -/
def checked (n : Int) : Option Int :=
  if FitsInt64 n then some n else none

theorem checked_of_fits
    {n : Int}
    (h : FitsInt64 n) :
    checked n = some n :=
  if_pos h

end Word

namespace Plan

------------------------------------------------------------
-- Cutting at the front
------------------------------------------------------------

/- The pieces of a size that a range falls into. -/
inductive Cuts
    (high size : Int) : Int → List (Int × Int) → Prop
  | last
      {low : Int}
      (hLow : low ≤ high)
      (hFits : high < low + size) :
      Cuts high size low [(low, high)]
  | next
      {low : Int}
      {ps : List (Int × Int)}
      (hMore : low + size ≤ high)
      (hRest : Cuts high size (low + size) ps) :
      Cuts high size low ((low, low + size - 1) :: ps)

theorem piece_succ
    (low high size : Int)
    (i : Nat) :
    piece low high size (i + 1)
      = piece (low + size) high size i := by
  have hStart :
      low + ((i + 1 : Nat) : Int) * size
        = low + size + i * size := by
    push_cast
    rw [Int.add_mul]
    omega
  simp only [piece, hStart]

theorem pieceCount_of_fits
    {low high size : Int}
    (hLow : low ≤ high)
    (hFits : high < low + size) :
    pieceCount low high size = 1 := by
  have hZero : (high - low) / size = 0 :=
    Int.ediv_eq_zero_of_lt (by omega) (by omega)
  simp [pieceCount, hZero]

/- A range that is longer than a piece has one piece more. -/
theorem pieceCount_of_more
    {low high size : Int}
    (hSize : 1 ≤ size)
    (hMore : low + size ≤ high) :
    pieceCount low high size
      = pieceCount (low + size) high size + 1 := by
  have hSplit :
      (high - low) / size
        = (high - (low + size)) / size + 1 := by
    have hSum : high - low = high - (low + size) + size := by
      omega
    rw [hSum, Int.add_ediv_of_dvd_right (Int.dvd_refl size),
      Int.ediv_self (by omega)]
  have hRest : 0 ≤ (high - (low + size)) / size :=
    Int.ediv_nonneg (by omega) (by omega)
  unfold pieceCount
  omega

/- The pieces of a plan are those cut at the front. -/
theorem cuts_pieces
    {low high size : Int}
    (hRange : low ≤ high) :
    Cuts high (max size 1) low (pieces low high size) := by
  have hSize : 1 ≤ max size 1 := Int.le_max_right size 1
  change
    Cuts high (max size 1) low
      ((List.range (pieceCount low high (max size 1))).map
        (piece low high (max size 1)))
  generalize max size 1 = width at hSize ⊢
  -- The induction is on the number of pieces of what is left.
  generalize hCount : pieceCount low high width = count
  induction count generalizing low with
  | zero => simp [pieceCount] at hCount
  | succ count ih =>
      by_cases hMore : low + width ≤ high
      · have hFewer :
            pieceCount (low + width) high width = count := by
          have := pieceCount_of_more hSize hMore
          omega
        have hHead :
            piece low high width 0 = (low, low + width - 1) := by
          simp only [piece]
          congr 1 <;> omega
        rw [List.range_succ_eq_map, List.map_cons, List.map_map,
          hHead]
        have hRest :
            piece low high width ∘ Nat.succ
              = piece (low + width) high width :=
          funext (piece_succ low high width)
        rw [hRest]
        exact Cuts.next hMore (ih hMore hFewer)
      · have hOne :=
          pieceCount_of_fits hRange (Int.not_le.mp hMore)
        obtain rfl : count = 0 := by omega
        have hHead : piece low high width 0 = (low, high) := by
          simp only [piece]
          congr 1 <;> omega
        change Cuts high width low [piece low high width 0]
        rw [hHead]
        exact Cuts.last hRange (Int.not_le.mp hMore)

------------------------------------------------------------
-- What the pieces make up
------------------------------------------------------------

/- A number lies in a piece. -/
def Within (n : Int) (p : Int × Int) : Prop :=
  p.1 ≤ n ∧ n ≤ p.2

instance (n : Int) : DecidablePred (Within n) := by
  intro p
  unfold Within
  infer_instance

/-
  A range shared out into pieces of a size.  `once` counts
  the pieces that a number lies in; `count` is the length of
  the range over the size, rounded up.
-/
structure Partitions
    (low high size : Int)
    (ps : List (Int × Int)) : Prop where
  first : ps.head?.map Prod.fst = some low
  last : ps.getLast?.map Prod.snd = some high
  adjoin : ps.IsChain fun p q => q.1 = p.2 + 1
  nonempty : ∀ p ∈ ps, p.1 ≤ p.2
  full : ∀ p ∈ ps.dropLast, p.2 - p.1 + 1 = size
  atMost : ∀ p ∈ ps, p.2 - p.1 + 1 ≤ size
  once :
    ∀ n,
      (ps.countP fun p => Within n p)
        = if low ≤ n ∧ n ≤ high then 1 else 0
  count :
    (ps.length : Int)
      = (high - low + 1 + (size - 1)) / size

namespace Cuts

variable {low high size : Int} {ps : List (Int × Int)}

theorem head?_eq
    (h : Cuts high size low ps) :
    ps.head?.map Prod.fst = some low := by
  cases h <;> rfl

theorem ne_nil
    (h : Cuts high size low ps) :
    ps ≠ [] := by
  cases h <;> exact List.cons_ne_nil _ _

theorem getLast?_eq
    (h : Cuts high size low ps) :
    ps.getLast?.map Prod.snd = some high := by
  induction h with
  | last => rfl
  | next hMore hRest ih =>
      rw [List.getLast?_cons_of_ne_nil hRest.ne_nil]
      exact ih

theorem isChain
    (h : Cuts high size low ps) :
    ps.IsChain fun p q => q.1 = p.2 + 1 := by
  induction h with
  | last => exact List.isChain_singleton _
  | next hMore hRest ih =>
      refine List.isChain_cons.mpr ⟨?_, ih⟩
      intro q hq
      have hStart := hRest.head?_eq
      rw [Option.mem_def.mp hq] at hStart
      have hEq := Option.some.inj hStart
      omega

/- The pieces are not empty and lie in the range. -/
theorem bounds
    (hSize : 1 ≤ size)
    (h : Cuts high size low ps) :
    ∀ p ∈ ps, low ≤ p.1 ∧ p.1 ≤ p.2 ∧ p.2 ≤ high := by
  induction h with
  | last hLow => simpa using hLow
  | next hMore hRest ih =>
      refine List.forall_mem_cons.mpr ⟨?_, ?_⟩
      · simp only
        omega
      · intro p hp
        have hLater := ih p hp
        omega

/- Each piece ends before the next one starts. -/
theorem pairwise
    (hSize : 1 ≤ size)
    (h : Cuts high size low ps) :
    ps.Pairwise fun p q => p.2 < q.1 := by
  induction h with
  | last => exact List.pairwise_singleton _ _
  | next hMore hRest ih =>
      refine List.pairwise_cons.mpr ⟨?_, ih⟩
      intro q hq
      have hLater := (hRest.bounds hSize q hq).1
      simp only
      omega

theorem full
    (h : Cuts high size low ps) :
    ∀ p ∈ ps.dropLast, p.2 - p.1 + 1 = size := by
  induction h with
  | last => simp
  | next hMore hRest ih =>
      rw [List.dropLast_cons_of_ne_nil hRest.ne_nil]
      refine List.forall_mem_cons.mpr ⟨?_, ih⟩
      simp only
      omega

theorem atMost
    (h : Cuts high size low ps) :
    ∀ p ∈ ps, p.2 - p.1 + 1 ≤ size := by
  induction h with
  | last hLow hFits =>
      refine List.forall_mem_singleton.mpr ?_
      simp only
      omega
  | next hMore hRest ih =>
      refine List.forall_mem_cons.mpr ⟨?_, ih⟩
      simp only
      omega

theorem countP_eq
    (hSize : 1 ≤ size)
    (h : Cuts high size low ps)
    (n : Int) :
    (ps.countP fun p => Within n p)
      = if low ≤ n ∧ n ≤ high then 1 else 0 := by
  induction h with
  | last =>
      simp only [List.countP_singleton, decide_eq_true_eq]
      rfl
  | @next low ps hMore hRest ih =>
      -- What lies in the first piece is not in the rest.
      rw [List.countP_cons, ih]
      simp only [decide_eq_true_eq]
      by_cases hHead : Within n (low, low + size - 1)
      · have hFrom := hHead.1
        have hTo := hHead.2
        simp only at hFrom hTo
        rw [if_pos hHead, if_neg (by omega), if_pos (by omega)]
      · have hOut : ¬(low ≤ n ∧ n ≤ low + size - 1) := hHead
        rw [if_neg hHead]
        split_ifs <;> omega

/- The pieces leave no number of the range out. -/
theorem exists_within
    (hSize : 1 ≤ size)
    (h : Cuts high size low ps)
    {n : Int}
    (hLow : low ≤ n)
    (hHigh : n ≤ high) :
    ∃ p ∈ ps, Within n p := by
  have hOne := h.countP_eq hSize n
  rw [if_pos ⟨hLow, hHigh⟩] at hOne
  rcases List.countP_pos_iff.mp (hOne ▸ Nat.one_pos) with
    ⟨p, hp, hWithin⟩
  exact ⟨p, hp, of_decide_eq_true hWithin⟩

theorem length_eq
    (hSize : 1 ≤ size)
    (h : Cuts high size low ps) :
    (ps.length : Int)
      = (high - low + 1 + (size - 1)) / size := by
  induction h with
  | @last low hLow hFits =>
      have hSum :
          high - low + 1 + (size - 1) = high - low + size := by
        omega
      rw [hSum, Int.add_ediv_of_dvd_right (Int.dvd_refl size),
        Int.ediv_self (by omega),
        Int.ediv_eq_zero_of_lt (by omega) (by omega)]
      rfl
  | @next low ps hMore hRest ih =>
      have hSum :
          high - low + 1 + (size - 1)
            = high - (low + size) + 1 + (size - 1) + size := by
        omega
      rw [hSum, Int.add_ediv_of_dvd_right (Int.dvd_refl size),
        Int.ediv_self (by omega), List.length_cons]
      push_cast
      rw [ih]

theorem partitions
    (hSize : 1 ≤ size)
    (h : Cuts high size low ps) :
    Partitions low high size ps :=
  { first := h.head?_eq
    last := h.getLast?_eq
    adjoin := h.isChain
    nonempty := fun p hp => (h.bounds hSize p hp).2.1
    full := h.full
    atMost := h.atMost
    once := h.countP_eq hSize
    count := h.length_eq hSize }

end Cuts

------------------------------------------------------------
-- Cutting in words
------------------------------------------------------------

/-
  The pieces of a range, cut one after another in words of
  64 bits.  The end of a piece stops at the greatest word.
  Every other number is computed in full, and there is no
  result where a word cannot hold it, or where the pieces
  are not cut within the given number of steps.
-/
def wordPieces
    (high size : Int) :
    Nat → Int → Option (List (Int × Int))
  | 0, _ => none
  | steps + 1, low => do
      let reach ← Word.checked (size - 1)
      let stop := min (Word.addSat low reach) high
      if high ≤ stop then
        return [(low, stop)]
      else
        let next ← Word.checked (stop + 1)
        let rest ← wordPieces high size steps next
        return (low, stop) :: rest

/- Words are enough for the pieces of a range of words. -/
theorem Cuts.wordPieces_eq
    {low high size : Int}
    {ps : List (Int × Int)}
    (hSize : 1 ≤ size)
    (hSizeFits : Word.FitsInt64 size)
    (hLow : Word.FitsInt64 low)
    (hHigh : Word.FitsInt64 high)
    (h : Cuts high size low ps)
    {steps : Nat}
    (hSteps : ps.length ≤ steps) :
    wordPieces high size steps low = some ps := by
  have hReach : Word.FitsInt64 (size - 1) := by
    unfold Word.FitsInt64 Word.int64Min Word.int64Max at *
    omega
  induction h generalizing steps with
  | @last low hRange hFits =>
      obtain ⟨k, rfl⟩ : ∃ k, steps = k + 1 :=
        Nat.exists_eq_add_of_le' hSteps
      have hStop :
          min (Word.addSat low (size - 1)) high = high := by
        unfold Word.FitsInt64 at hHigh
        unfold Word.addSat Word.clamp
        omega
      simp only [wordPieces, Word.checked_of_fits hReach, hStop,
        Option.bind_eq_bind, Option.bind_some]
      exact if_pos (Int.le_refl high)
  | @next low ps hMore hRest ih =>
      rw [List.length_cons] at hSteps
      obtain ⟨k, rfl⟩ : ∃ k, steps = k + 1 :=
        ⟨steps - 1, by omega⟩
      have hSum : Word.FitsInt64 (low + (size - 1)) := by
        unfold Word.FitsInt64 at *
        omega
      have hStop :
          min (Word.addSat low (size - 1)) high
            = low + size - 1 := by
        unfold Word.addSat
        rw [Word.clamp_of_fits hSum]
        omega
      have hNext : Word.FitsInt64 (low + size) := by
        unfold Word.FitsInt64 at *
        omega
      have hAfter : low + size - 1 + 1 = low + size := by
        omega
      have hRestEq :=
        ih hNext (Nat.le_of_succ_le_succ hSteps)
      have hNotLast : ¬high ≤ low + size - 1 := by
        omega
      simp only [wordPieces, Word.checked_of_fits hReach, hStop,
        hAfter, Word.checked_of_fits hNext, hRestEq,
        Option.bind_eq_bind, Option.bind_some]
      exact if_neg hNotLast

------------------------------------------------------------
-- Windows
------------------------------------------------------------

/-
  The windows of a range of words, cut into chunks or spans
  of a size, of which one below one counts as one: they are
  cut in words without an overflow, in as many steps as
  there are windows, and partition the range.
-/
theorem windows_partition
    {low high size : Int}
    (hLow : Word.FitsInt64 low)
    (hHigh : Word.FitsInt64 high)
    (hSize : Word.FitsInt64 size)
    (hRange : low ≤ high) :
    ∃ ps,
      Partitions low high (max size 1) ps
        ∧ (∀ steps, ps.length ≤ steps →
            wordPieces high (max size 1) steps low = some ps)
        ∧ (timeWindows (some size) ⟨low, high⟩).map
            (fun w => (w.startMs, w.endMs)) = ps
        ∧ (seqWindows size ⟨low, high⟩).map
            (fun w => (w.startSeq, w.endSeq)) = ps := by
  have hCuts :
      Cuts high (max size 1) low (pieces low high size) :=
    cuts_pieces hRange
  have hWidth : 1 ≤ max size 1 := Int.le_max_right size 1
  have hWidthFits : Word.FitsInt64 (max size 1) := by
    unfold Word.FitsInt64 Word.int64Min Word.int64Max at *
    omega
  refine ⟨pieces low high size, hCuts.partitions hWidth, ?_, ?_, ?_⟩
  · intro steps hSteps
    exact hCuts.wordPieces_eq hWidth hWidthFits hLow hHigh hSteps
  · simp [timeWindows, List.map_map, Function.comp_def]
  · simp [seqWindows, List.map_map, Function.comp_def]

/-
  All instants that there are, in chunks of a third of them:
  the last instant is left for a window of its own.
-/
theorem windows_partition_of_all_words :
    let third := 6148914691236517205
    let cut :=
      [ (Word.int64Min, Word.int64Min + third - 1),
        (Word.int64Min + third, Word.int64Min + 2 * third - 1),
        (Word.int64Min + 2 * third, Word.int64Max - 1),
        (Word.int64Max, Word.int64Max) ]
    Word.FitsInt64 third
      ∧ (timeWindows (some third)
            ⟨Word.int64Min, Word.int64Max⟩).map
          (fun w => (w.startMs, w.endMs)) = cut
      ∧ Partitions Word.int64Min Word.int64Max third cut
      ∧ ∀ steps, 4 ≤ steps →
          wordPieces Word.int64Max third steps Word.int64Min
            = some cut := by
  intro third cut
  have hThird : Word.FitsInt64 third := by decide
  rcases
    @windows_partition Word.int64Min Word.int64Max third
      (by decide) (by decide) hThird (by decide) with
    ⟨ps, hParts, hWords, hTime, -⟩
  have hCut : ps = cut := hTime.symm.trans (by decide)
  subst hCut
  exact ⟨hThird, hTime, hParts, hWords⟩

end Plan

end TradeTape
