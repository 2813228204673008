/-
  The ranges of machine words and the arithmetic that
  stops at their ends.

  Timestamps and trade numbers are integers of 64 bits.
  They are kept as `Int`, the bounds are stated where they
  matter, and every sum that could leave the range is
  written with `Word.addSat` or `Word.subSat`.

  Key definitions include:
    * `Word.FitsInt64`
    * `Word.addSat`
    * `Word.subSat`
    * `Word.mulSat`
-/

namespace TradeTape

namespace Word

------------------------------------------------------------
-- Ranges
------------------------------------------------------------

/- The least signed integer of 64 bits. -/
def int64Min : Int := -9223372036854775808

/- The greatest signed integer of 64 bits. -/
def int64Max : Int := 9223372036854775807

/- The greatest unsigned integer of 32 bits. -/
def uint32Max : Nat := 4294967295

/- The greatest unsigned integer of 64 bits. -/
def uint64Max : Nat := 18446744073709551615

/- The integers that a signed word of 64 bits holds. -/
def FitsInt64 (n : Int) : Prop :=
  int64Min ≤ n ∧ n ≤ int64Max

instance (n : Int) : Decidable (FitsInt64 n) := by
  unfold FitsInt64
  infer_instance

------------------------------------------------------------
-- Saturating arithmetic
------------------------------------------------------------

/- The nearest integer that a signed word of 64 bits holds. -/
def clamp (n : Int) : Int :=
  max int64Min (min n int64Max)

/- A sum that stops at the ends of the range. -/
def addSat (a b : Int) : Int :=
  clamp (a + b)

/- A difference that stops at the ends of the range. -/
def subSat (a b : Int) : Int :=
  clamp (a - b)

/- A product of counts that stops at the greatest count. -/
def mulSat (a b : Nat) : Nat :=
  min (a * b) uint64Max

theorem clamp_fits (n : Int) : FitsInt64 (clamp n) := by
  unfold FitsInt64 clamp int64Min int64Max
  omega

theorem clamp_of_fits
    {n : Int}
    (h : FitsInt64 n) :
    clamp n = n := by
  unfold FitsInt64 int64Min int64Max at h
  unfold clamp int64Min int64Max
  omega

/- One less, where there is room for it. -/
theorem subSat_one
    {n : Int}
    (h : n ≤ int64Max) :
    subSat n 1 = max int64Min (n - 1) := by
  unfold subSat clamp
  omega

end Word

end TradeTape
