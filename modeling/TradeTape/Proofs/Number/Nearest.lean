import Mathlib.Algebra.Order.Field.Power
import Mathlib.Tactic.FieldSimp
import Mathlib.Tactic.Linarith
import Mathlib.Tactic.NormNum
import Mathlib.Tactic.Positivity
import Mathlib.Tactic.Ring
import TradeTape.Number.Binary64

/-
  Rounding a fraction to the nearest number of the format.

  The fraction is divided by a power of two with which it has
  53 bits before the point, and then rounded to an integer.
  The fraction is one of those that the result stands for:
  they reach half a unit of its last place up and down, and
  down only a quarter where the places of the numbers below
  are twice as fine.

  Key statements include:
    * `Binary64.divNearest_isNearest`
    * `Binary64.powerOf_normal`
    * `Binary64.round_covers`
-/

namespace TradeTape

namespace Binary64

------------------------------------------------------------
-- Powers
------------------------------------------------------------

theorem zpow_of_nonneg
    {p : Int}
    (hPower : 0 ≤ p)
    (b : ℚ) :
    b ^ p = b ^ p.toNat := by
  rw [← zpow_natCast, Int.toNat_of_nonneg hPower]

theorem zpow_of_neg
    {p : Int}
    (hPower : p < 0)
    (b : ℚ) :
    b ^ p = (b ^ (-p).toNat)⁻¹ := by
  rw [← zpow_natCast, Int.toNat_of_nonneg (by omega), zpow_neg, inv_inv]

theorem two_zpow_pos (p : Int) : (0 : ℚ) < 2 ^ p :=
  zpow_pos (by norm_num) p

------------------------------------------------------------
-- Fractions
------------------------------------------------------------

theorem unscale_snd_pos
    {den : Nat}
    (hDen : 0 < den)
    (num : Nat)
    (p : Int) :
    0 < (unscale num den p).2 := by
  unfold unscale
  split
  · exact Nat.mul_pos hDen (Nat.pow_pos (by decide))
  · exact hDen

theorem unscale_eq
    {den : Nat}
    (hDen : 0 < den)
    (num : Nat)
    (p : Int) :
    ((unscale num den p).1 : ℚ) / (unscale num den p).2
      = num / den / 2 ^ p := by
  have hDen' : (den : ℚ) ≠ 0 := by exact_mod_cast hDen.ne'
  unfold unscale
  split
  · rename_i hPower
    rw [zpow_of_nonneg hPower]
    push_cast [Nat.pow_eq]
    rw [div_div]
  · rename_i hPower
    rw [zpow_of_neg (by omega)]
    push_cast [Nat.pow_eq]
    field_simp

------------------------------------------------------------
-- Nearest integers
------------------------------------------------------------

/- An integer nearest to a number, and even on a tie. -/
structure IsNearest (m : Nat) (x : ℚ) : Prop where
  low : (m : ℚ) - 1 / 2 ≤ x
  high : x ≤ m + 1 / 2
  low_of_odd : m % 2 = 1 → (m : ℚ) - 1 / 2 < x
  high_of_odd : m % 2 = 1 → x < m + 1 / 2

theorem divNearest_cases
    {n d : Nat}
    (hDen : 0 < d) :
    let m := divNearest n d
    2 * (m * d) ≤ 2 * n + d
      ∧ 2 * n ≤ 2 * (m * d) + d
      ∧ (m % 2 = 1 → 2 * (m * d) < 2 * n + d ∧ 2 * n < 2 * (m * d) + d) := by
  have hDivMod := Nat.div_add_mod n d
  have hRest := Nat.mod_lt n hDen
  have hNext : (n / d + 1) * d = d * (n / d) + d := by ring
  have hSame : n / d * d = d * (n / d) := by ring
  unfold divNearest
  simp only
  split
  · rw [hSame]
    omega
  · split
    · rw [hNext]
      omega
    · split
      · rw [hSame]
        omega
      · rw [hNext]
        omega

theorem divNearest_isNearest
    {n d : Nat}
    (hDen : 0 < d) :
    IsNearest (divNearest n d) ((n : ℚ) / d) := by
  have hDen' : (0 : ℚ) < d := by exact_mod_cast hDen
  rcases divNearest_cases (n := n) hDen with ⟨hLow, hHigh, hOdd⟩
  have hLow' : 2 * ((divNearest n d : ℚ) * d) ≤ 2 * n + d := by
    exact_mod_cast hLow
  have hHigh' : 2 * (n : ℚ) ≤ 2 * (divNearest n d * d) + d := by
    exact_mod_cast hHigh
  constructor
  · rw [le_div_iff₀ hDen']
    linarith
  · rw [div_le_iff₀ hDen']
    linarith
  · intro h
    have hLow'' : 2 * ((divNearest n d : ℚ) * d) < 2 * n + d := by
      exact_mod_cast (hOdd h).1
    rw [lt_div_iff₀ hDen']
    linarith
  · intro h
    have hHigh'' : 2 * (n : ℚ) < 2 * (divNearest n d * d) + d := by
      exact_mod_cast (hOdd h).2
    rw [div_lt_iff₀ hDen']
    linarith

------------------------------------------------------------
-- The power of a fraction
------------------------------------------------------------

/- The power that the sizes of a fraction suggest. -/
def roughPower (num den : Nat) : Int :=
  (num.log2 : Int) - den.log2 - 53

/- With it there are 53 bits before the point, or 54. -/
theorem roughPower_bounds
    {num den : Nat}
    (hNum : 0 < num)
    (hDen : 0 < den) :
    (2 : ℚ) ^ 52 < num / den / 2 ^ roughPower num den
      ∧ (num : ℚ) / den / 2 ^ roughPower num den < 2 ^ 54 := by
  have hDen' : (0 : ℚ) < den := by exact_mod_cast hDen
  have hNumLow : (2 : ℚ) ^ num.log2 ≤ num := by
    exact_mod_cast Nat.log2_self_le hNum.ne'
  have hNumHigh : (num : ℚ) < 2 ^ (num.log2 + 1) := by
    exact_mod_cast Nat.lt_log2_self
  have hDenLow : (2 : ℚ) ^ den.log2 ≤ den := by
    exact_mod_cast Nat.log2_self_le hDen.ne'
  have hDenHigh : (den : ℚ) < 2 ^ (den.log2 + 1) := by
    exact_mod_cast Nat.lt_log2_self
  have hScale :
      (2 : ℚ) ^ roughPower num den = 2 ^ num.log2 / 2 ^ den.log2 / 2 ^ 53 := by
    unfold roughPower
    rw [zpow_sub₀ (by norm_num), zpow_sub₀ (by norm_num), zpow_natCast,
      zpow_natCast]
    norm_num
  have hPosNum : (0 : ℚ) < 2 ^ num.log2 := by positivity
  have hPosDen : (0 : ℚ) < 2 ^ den.log2 := by positivity
  rw [hScale]
  rw [pow_succ] at hNumHigh hDenHigh
  constructor
  · rw [lt_div_iff₀ (by positivity), lt_div_iff₀ hDen']
    calc
      (2 : ℚ) ^ 52 * (2 ^ num.log2 / 2 ^ den.log2 / 2 ^ 53) * den
          = 2 ^ num.log2 * (den / (2 ^ den.log2 * 2)) := by
            field_simp
      _ < 2 ^ num.log2 * 1 := by
            refine mul_lt_mul_of_pos_left ?_ hPosNum
            rwa [div_lt_one (by positivity)]
      _ ≤ num := by rwa [mul_one]
  · rw [div_lt_iff₀ (by positivity), div_lt_iff₀ hDen']
    calc
      (num : ℚ) < 2 ^ num.log2 * 2 := hNumHigh
      _ = 2 ^ num.log2 * 2 * 1 := (mul_one _).symm
      _ ≤ 2 ^ num.log2 * 2 * (den / 2 ^ den.log2) := by
            refine mul_le_mul_of_nonneg_left ?_ (by positivity)
            rwa [one_le_div hPosDen]
      _ = 2 ^ 54 * (2 ^ num.log2 / 2 ^ den.log2 / 2 ^ 53) * den := by
            field_simp

theorem natDiv_lt_iff
    {n d k : Nat}
    (hDen : 0 < d) :
    n / d < k ↔ (n : ℚ) / d < k := by
  have hDen' : (0 : ℚ) < d := by exact_mod_cast hDen
  rw [Nat.div_lt_iff_lt_mul hDen, div_lt_iff₀ hDen']
  exact_mod_cast Iff.rfl

/- Above the least power there are 53 bits before the point. -/
theorem powerOf_normal
    {num den : Nat}
    (hNum : 0 < num)
    (hDen : 0 < den)
    (hLow : minPower ≤ roughPower num den) :
    (2 : ℚ) ^ 52 ≤ num / den / 2 ^ powerOf num den
      ∧ (num : ℚ) / den / 2 ^ powerOf num den < 2 ^ 53
      ∧ roughPower num den ≤ powerOf num den
      ∧ powerOf num den ≤ roughPower num den + 1 := by
  rcases roughPower_bounds hNum hDen with ⟨hLeast, hMost⟩
  have hDen' := unscale_snd_pos hDen num (roughPower num den)
  have hFloor :=
    natDiv_lt_iff (n := (unscale num den (roughPower num den)).1)
      (k := significandLimit) hDen'
  rw [unscale_eq hDen] at hFloor
  have hLimit : (significandLimit : ℚ) = 2 ^ 53 := by
    norm_num [significandLimit]
  rw [hLimit] at hFloor
  have hPower :
      powerOf num den
        = if (num : ℚ) / den / 2 ^ roughPower num den < 2 ^ 53 then
            roughPower num den
          else roughPower num den + 1 := by
    have hShape :
        powerOf num den
          = max
              (if (unscale num den (roughPower num den)).1
                  / (unscale num den (roughPower num den)).2
                  < significandLimit then
                roughPower num den
              else roughPower num den + 1)
              minPower :=
      rfl
    rw [hShape]
    simp only [hFloor]
    split <;> omega
  rw [hPower]
  split
  · rename_i hFew
    exact ⟨hLeast.le, hFew, le_refl _, by omega⟩
  · rename_i hMany
    have hHalf :
        (num : ℚ) / den / 2 ^ (roughPower num den + 1)
          = num / den / 2 ^ roughPower num den / 2 := by
      rw [zpow_add_one₀ (by norm_num), ← div_div]
    rw [hHalf]
    refine ⟨?_, ?_, by omega, le_refl _⟩
    · linarith
    · linarith

------------------------------------------------------------
-- What a number stands for
------------------------------------------------------------

/-
  The lower end of the numbers that round to a finite one.  The
  gap below is half as wide at a power of two.
-/
def lowEnd
    (m : Nat)
    (p : Int) : ℚ :=
  (m - if m = 4503599627370496 ∧ minPower < p then 1 / 4 else 1 / 2) * 2 ^ p

/- The upper end of the numbers that round to a finite one. -/
def highEnd
    (m : Nat)
    (p : Int) : ℚ :=
  (m + 1 / 2) * 2 ^ p

/- The ends belong to it when the significand is even. -/
structure Covers
    (m : Nat)
    (p : Int)
    (x : ℚ) : Prop where
  low : lowEnd m p ≤ x
  high : x ≤ highEnd m p
  low_of_odd : m % 2 = 1 → lowEnd m p < x
  high_of_odd : m % 2 = 1 → x < highEnd m p

/- What a finite number stands for is close to it. -/
theorem Covers.close
    {m : Nat}
    {p : Int}
    {x : ℚ}
    (hCovers : Covers m p x) :
    ((m : ℚ) - 1 / 2) * 2 ^ p ≤ x ∧ x ≤ (m + 1 / 2) * 2 ^ p := by
  refine ⟨le_trans ?_ hCovers.low, hCovers.high⟩
  unfold lowEnd
  refine mul_le_mul_of_nonneg_right ?_ (two_zpow_pos p).le
  split <;> linarith

/- A fraction within the range is covered by what it rounds to. -/
theorem round_covers
    {num den : Nat}
    (hNum : 0 < num)
    (hDen : 0 < den)
    (hLow : minPower ≤ roughPower num den)
    (hHigh : roughPower num den + 2 ≤ maxPower)
    (negative : Bool) :
    ∃ m p, round negative num den = .finite negative m p
      ∧ 4503599627370496 ≤ m ∧ Covers m p (num / den) := by
  rcases powerOf_normal hNum hDen hLow with
    ⟨hLeast, hMost, hRough, hRough'⟩
  have hNearest :=
    divNearest_isNearest
      (n := (unscale num den (powerOf num den)).1)
      (unscale_snd_pos hDen num (powerOf num den))
  rw [unscale_eq hDen] at hNearest
  have hRound :
      round negative num den
        = let m :=
            divNearest (unscale num den (powerOf num den)).1
              (unscale num den (powerOf num den)).2
          let r :=
            if m = significandLimit then (m / 2, powerOf num den + 1)
            else (m, powerOf num den)
          if maxPower < r.2 then .infinite negative
          else .finite negative r.1 r.2 := by
    unfold round
    rw [if_neg hNum.ne']
  generalize divNearest (unscale num den (powerOf num den)).1
    (unscale num den (powerOf num den)).2 = m at hNearest hRound
  generalize powerOf num den = p at *
  generalize (num : ℚ) / den = x at *
  have hUnit := two_zpow_pos p
  have hWhole : x = x / 2 ^ p * 2 ^ p := by
    field_simp
  generalize x / 2 ^ p = y at *
  have hFull : 4503599627370496 ≤ m := by
    have hLeast' : (2 : ℚ) ^ 53 ≤ (2 * m + 1 : ℕ) := by
      push_cast
      linarith [hNearest.high]
    have hLeast'' : 2 ^ 53 ≤ 2 * m + 1 := by exact_mod_cast hLeast'
    omega
  by_cases hCarry : m = significandLimit
  · -- One unit short of the next power of two was rounded up to it.
    have hPower : minPower < p + 1 := by omega
    have hTop : (m : ℚ) = 2 ^ 53 := by
      rw [hCarry]
      norm_num [significandLimit]
    refine ⟨4503599627370496, p + 1, ?_, le_refl _, ?_⟩
    · rw [hRound, hCarry]
      simp only [if_true]
      rw [if_neg (by omega)]
      rfl
    · have hNext : (2 : ℚ) ^ (p + 1) = 2 ^ p * 2 :=
        zpow_add_one₀ (by norm_num) p
      have hLowNext : lowEnd 4503599627370496 (p + 1) ≤ x := by
        unfold lowEnd
        rw [if_pos ⟨rfl, hPower⟩, hNext, hWhole]
        push_cast
        nlinarith [hNearest.low]
      have hHighNext : x ≤ highEnd 4503599627370496 (p + 1) := by
        unfold highEnd
        rw [hNext, hWhole]
        push_cast
        nlinarith
      exact ⟨hLowNext, hHighNext, fun h => (nomatch h), fun h => (nomatch h)⟩
  · refine ⟨m, p, ?_, hFull, ?_⟩
    · rw [hRound]
      simp only [if_neg hCarry]
      rw [if_neg (by omega)]
    · have hTop (hNarrow : m = 4503599627370496 ∧ minPower < p) :
          (m : ℚ) - 1 / 4 ≤ y := by
        have hEven : (m : ℚ) = 2 ^ 52 := by
          rw [hNarrow.1]
          norm_num
        linarith
      rw [hWhole]
      constructor
      · unfold lowEnd
        refine mul_le_mul_of_nonneg_right ?_ hUnit.le
        split
        · exact hTop ‹_›
        · exact hNearest.low
      · exact mul_le_mul_of_nonneg_right hNearest.high hUnit.le
      · intro hOdd
        unfold lowEnd
        rw [if_neg (by omega)]
        exact mul_lt_mul_of_pos_right (hNearest.low_of_odd hOdd) hUnit
      · intro hOdd
        exact mul_lt_mul_of_pos_right (hNearest.high_of_odd hOdd) hUnit

end Binary64

end TradeTape
