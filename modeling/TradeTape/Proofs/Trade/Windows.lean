import Mathlib.Data.List.Nodup
import TradeTape.Trade.Window

/-
  Windows of one space, and trades in them.

  Key statements include:
    * `Window.inside`
    * `Window.holds_iff`
    * `Window.SameSpace`
    * `Window.Precedes`
-/

namespace TradeTape

namespace Window

/- The trades of a tape that lie in a window. -/
def inside
    (w : Window)
    (tape : List Trade) : List Trade :=
  tape.filter fun t => w.Holds t

@[simp] theorem mem_inside
    {w : Window}
    {tape : List Trade}
    {t : Trade} :
    t ∈ w.inside tape ↔ t ∈ tape ∧ w.Holds t := by
  simp [inside]

/- A window that holds something. -/
def Nonempty (w : Window) : Prop :=
  w.bounds.1 ≤ w.bounds.2

theorem holds_iff
    {w : Window}
    {t : Trade} :
    w.Holds t ↔
      w.bounds.1 ≤ w.place t ∧ w.place t ≤ w.bounds.2 := by
  cases w <;> exact Iff.rfl

theorem boundsLe_trans
    {u v w : Window}
    (huv : u.boundsLe v = true)
    (hvw : v.boundsLe w = true) :
    u.boundsLe w = true := by
  simp only [boundsLe, decide_eq_true_eq] at huv hvw ⊢
  omega

theorem boundsLe_total (v w : Window) :
    (v.boundsLe w || w.boundsLe v) = true := by
  simp only [boundsLe, Bool.or_eq_true, decide_eq_true_eq]
  omega

theorem bounds_eq_of_boundsLe
    {v w : Window}
    (hvw : v.boundsLe w = true)
    (hwv : w.boundsLe v = true) :
    v.bounds = w.bounds := by
  simp only [boundsLe, decide_eq_true_eq] at hvw hwv
  refine Prod.ext ?_ ?_ <;> omega

------------------------------------------------------------
-- Spaces
------------------------------------------------------------

/- Windows of instants, or of numbers, both of them. -/
def SameSpace : Window → Window → Prop
  | .time _, .time _ | .seq _, .seq _ => True
  | _, _ => False

theorem SameSpace.place_eq
    {v w : Window}
    (h : v.SameSpace w)
    (t : Trade) :
    v.place t = w.place t := by
  cases v <;> cases w <;> first | rfl | exact h.elim

theorem SameSpace.eq_of_bounds_eq
    {v w : Window}
    (h : v.SameSpace w)
    (hBounds : v.bounds = w.bounds) :
    v = w := by
  cases v with
  | time v =>
      cases w with
      | time w =>
          rcases Prod.mk.inj hBounds with ⟨hStart, hEnd⟩
          cases v
          cases w
          simp_all
      | seq w => exact h.elim
  | seq v =>
      cases w with
      | time w => exact h.elim
      | seq w =>
          rcases Prod.mk.inj hBounds with ⟨hStart, hEnd⟩
          cases v
          cases w
          simp_all

/- A window of the same space that ends before another one. -/
def Precedes (v w : Window) : Prop :=
  v.SameSpace w ∧ v.bounds.2 < w.bounds.1

theorem Precedes.not_holds
    {v w : Window}
    (h : v.Precedes w)
    {t : Trade}
    (hv : v.Holds t) :
    ¬w.Holds t := by
  intro hw
  have hPlace := h.1.place_eq t
  have hApart := h.2
  have hLow := (holds_iff.mp hw).1
  have hHigh := (holds_iff.mp hv).2
  omega

end Window

end TradeTape
