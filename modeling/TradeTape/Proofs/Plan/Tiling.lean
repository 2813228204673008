import Mathlib.Data.List.Pairwise
import TradeTape.Backfill.Desk
import TradeTape.Proofs.Plan.Partition
import TradeTape.Proofs.Trade.Windows

/-
  The windows of a plan tile its range.

  No window is empty, each ends before the next one starts,
  and together they hold what the range holds.  So a trade of
  the range is in one window and in no other.

  Key statements include:
    * `Tiles`
    * `Tiles.eq_of_holds`
    * `Desk.tiles_timePlan`
    * `Desk.tiles_seqPlan`
-/

namespace TradeTape

------------------------------------------------------------
-- Windows that tile a range
------------------------------------------------------------

/- Windows, in order, that share out what a range holds. -/
structure Tiles
    (range : Option Window)
    (windows : List Window) : Prop where
  nonempty : ∀ w ∈ windows, w.Nonempty
  apart : windows.Pairwise Window.Precedes
  covers :
    ∀ t,
      (∃ w ∈ windows, w.Holds t) ↔ ∃ w ∈ range, w.Holds t

namespace Tiles

variable {range : Option Window} {windows : List Window}

theorem nodup (h : Tiles range windows) : windows.Nodup := by
  refine h.apart.imp_of_mem ?_
  intro v w hv _ hPrecedes hEq
  have hNonempty := h.nonempty v hv
  have hApart := hPrecedes.2
  rw [← hEq] at hApart
  unfold Window.Nonempty at hNonempty
  omega

/- Of two windows of a plan one precedes the other. -/
theorem precedes_or_precedes
    (h : Tiles range windows)
    {v w : Window}
    (hv : v ∈ windows)
    (hw : w ∈ windows)
    (hNe : v ≠ w) :
    v.Precedes w ∨ w.Precedes v := by
  have hEither :
      windows.Pairwise fun v w =>
        v.Precedes w ∨ w.Precedes v :=
    h.apart.imp Or.inl
  have : Std.Symm fun v w : Window =>
      v.Precedes w ∨ w.Precedes v :=
    { symm := fun _ _ hOr => hOr.symm }
  exact hEither.forall hv hw hNe

/- A trade is in one window of a plan at most. -/
theorem eq_of_holds
    (h : Tiles range windows)
    {v w : Window}
    (hv : v ∈ windows)
    (hw : w ∈ windows)
    {t : Trade}
    (hvt : v.Holds t)
    (hwt : w.Holds t) :
    v = w := by
  by_contra hNe
  rcases h.precedes_or_precedes hv hw hNe with hvw | hwv
  · exact hvw.not_holds hvt hwt
  · exact hwv.not_holds hwt hvt

/- Windows of a plan with the same bounds are the same. -/
theorem eq_of_bounds_eq
    (h : Tiles range windows)
    {v w : Window}
    (hv : v ∈ windows)
    (hw : w ∈ windows)
    (hBounds : v.bounds = w.bounds) :
    v = w := by
  by_contra hNe
  rcases h.precedes_or_precedes hv hw hNe with hvw | hwv
  · exact hNe (hvw.1.eq_of_bounds_eq hBounds)
  · exact hNe (hwv.1.eq_of_bounds_eq hBounds.symm).symm

theorem nil : Tiles none [] :=
  { nonempty := by simp
    apart := List.Pairwise.nil
    covers := by simp }

end Tiles

------------------------------------------------------------
-- Plans
------------------------------------------------------------

namespace Desk

/- The windows of pieces tile the range that is cut. -/
theorem tiles_pieces
    {low high size : Int}
    (hRange : low ≤ high)
    {window : Int × Int → Window}
    (hBounds : ∀ p, (window p).bounds = p)
    (hSpace : ∀ p q, (window p).SameSpace (window q)) :
    Tiles (some (window (low, high)))
      ((Plan.pieces low high size).map window) := by
  have hHolds (p : Int × Int) (t : Trade) :
      (window p).Holds t ↔
        p.1 ≤ (window (low, high)).place t
          ∧ (window (low, high)).place t ≤ p.2 := by
    rw [Window.holds_iff, hBounds,
      (hSpace p (low, high)).place_eq t]
  have hSize : 1 ≤ max size 1 := Int.le_max_right size 1
  have hCuts := @Plan.cuts_pieces low high size hRange
  refine
    { nonempty := ?_
      apart := ?_
      covers := ?_ }
  · intro w hw
    rcases List.mem_map.mp hw with ⟨p, hp, rfl⟩
    unfold Window.Nonempty
    rw [hBounds]
    exact (hCuts.bounds hSize p hp).2.1
  · refine List.pairwise_map.mpr ?_
    refine (hCuts.pairwise hSize).imp ?_
    intro p q hApart
    refine ⟨hSpace p q, ?_⟩
    rw [hBounds, hBounds]
    exact hApart
  · intro t
    constructor
    · rintro ⟨w, hw, hHeld⟩
      rcases List.mem_map.mp hw with ⟨p, hp, rfl⟩
      have hWithin := hCuts.bounds hSize p hp
      have hBetween := (hHolds p t).mp hHeld
      refine ⟨window (low, high), rfl, ?_⟩
      exact (hHolds (low, high) t).mpr (by simp only; omega)
    · rintro ⟨w, hw, hHeld⟩
      rw [Option.mem_some.mp hw.symm] at hHeld
      rcases (hHolds (low, high) t).mp hHeld with ⟨hLow, hHigh⟩
      rcases hCuts.exists_within hSize hLow hHigh with
        ⟨p, hp, hBetween⟩
      exact
        ⟨window p, List.mem_map_of_mem hp,
          (hHolds p t).mpr hBetween⟩

theorem tiles_timePlan
    {s : Settings}
    {range : TimeWindow}
    (hRange : range.startMs ≤ range.endMs) :
    Tiles (some (.time range)) (timePlan s range) := by
  unfold timePlan Plan.timeWindows
  cases s.chunkMs with
  | none =>
      exact
        { nonempty := by
            intro w hw
            rw [List.mem_singleton.mp hw]
            exact hRange
          apart := List.pairwise_singleton _ _
          covers := by simp }
  | some chunk =>
      simp only [List.map_map]
      exact
        @tiles_pieces range.startMs range.endMs chunk hRange
          (fun p => .time ⟨p.1, p.2⟩) (fun _ => rfl)
          (fun _ _ => trivial)

/- The numbers of a tape that ends with a number. -/
def seqRange (latest : Option Int) : Option Window :=
  (latest.bind (SeqWindow.make? 1)).map .seq

theorem tiles_seqPlan
    (s : Settings)
    (latest : Option Int) :
    Tiles (seqRange latest) (seqPlan s latest) := by
  unfold seqRange seqPlan
  cases hMake : latest.bind (SeqWindow.make? 1) with
  | none => exact Tiles.nil
  | some range =>
      have hRange : range.startSeq ≤ range.endSeq := by
        rcases Option.bind_eq_some_iff.mp hMake with ⟨n, _, hn⟩
        unfold SeqWindow.make? at hn
        split at hn
        · cases hn
          assumption
        · cases hn
      simp only [Plan.seqWindows, List.map_map, Option.map_some]
      exact
        @tiles_pieces range.startSeq range.endSeq s.seqSpan hRange
          (fun p => .seq ⟨p.1, p.2⟩) (fun _ => rfl)
          (fun _ _ => trivial)

end Desk

end TradeTape
