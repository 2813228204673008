import TradeTape.Number.Shortest
import TradeTape.Proofs.Number.Nearest
import TradeTape.Proofs.Text.Digits

/-
  Short decimals are found again.

  The numbers that a finite one stands for reach over less than
  a quarter of any grid on which a decimal of at most fifteen
  digits among them stands.  So this decimal is the only point
  of its grid among them, and on coarser grids there is none:
  the first grid that has one is its own.

  Key statements include:
    * `Shortest.contains_iff`
    * `Shortest.hit_eq_none`
    * `Shortest.hit_eq_some`
    * `Shortest.grid_within`
    * `Shortest.ofFinite_eq`
-/

namespace TradeTape

namespace Shortest

open Binary64 (Covers)

------------------------------------------------------------
-- Units
------------------------------------------------------------

theorem fraction_pos (p : Int) :
    0 < (Binary64.fraction 1 p).1 ∧ 0 < (Binary64.fraction 1 p).2 := by
  unfold Binary64.fraction
  split
  · exact ⟨Nat.mul_pos Nat.one_pos (Nat.pow_pos Nat.two_pos), Nat.one_pos⟩
  · exact ⟨Nat.one_pos, Nat.pow_pos Nat.two_pos⟩

theorem fraction_eq (p : Int) :
    ((Binary64.fraction 1 p).1 : ℚ) / (Binary64.fraction 1 p).2 = 2 ^ p := by
  unfold Binary64.fraction
  split
  · rename_i hPower
    rw [Binary64.zpow_of_nonneg hPower]
    push_cast [Nat.pow_eq]
    ring
  · rename_i hPower
    rw [Binary64.zpow_of_neg (by omega)]
    push_cast [Nat.pow_eq]
    ring

theorem tenPower_pos (e : Int) :
    0 < (tenPower e).1 ∧ 0 < (tenPower e).2 := by
  unfold tenPower
  split
  · exact ⟨Nat.pow_pos (Nat.succ_pos 9), Nat.one_pos⟩
  · exact ⟨Nat.one_pos, Nat.pow_pos (Nat.succ_pos 9)⟩

theorem tenPower_eq (e : Int) :
    ((tenPower e).1 : ℚ) / (tenPower e).2 = 10 ^ e := by
  unfold tenPower
  split
  · rename_i hPower
    rw [Binary64.zpow_of_nonneg hPower]
    push_cast [Nat.pow_eq]
    ring
  · rename_i hPower
    rw [Binary64.zpow_of_neg (by omega)]
    push_cast [Nat.pow_eq]
    ring

theorem ten_zpow_pos (e : Int) : (0 : ℚ) < 10 ^ e :=
  zpow_pos (by norm_num) e

------------------------------------------------------------
-- Intervals
------------------------------------------------------------

section Intervals

variable {m : Nat}
variable {p : Int}

/- Quarters of a last place as bounds of a fraction. -/
theorem quarter_le_iff
    {num den : Nat}
    (hDen : 0 < den)
    (k : Nat)
    (p : Int) :
    k * (Binary64.fraction 1 p).1 * den
        ≤ num * (4 * (Binary64.fraction 1 p).2)
      ↔ (k : ℚ) / 4 * 2 ^ p ≤ num / den := by
  have hDen' : (0 : ℚ) < den := by exact_mod_cast hDen
  have hUnit : (0 : ℚ) < (Binary64.fraction 1 p).2 := by
    exact_mod_cast (fraction_pos p).2
  have hScale : (0 : ℚ) < 4 * (Binary64.fraction 1 p).2 := by positivity
  rw [← fraction_eq, ← Nat.cast_le (α := ℚ), le_div_iff₀ hDen',
    ← mul_le_mul_iff_left₀ hScale]
  push_cast
  field_simp

theorem le_quarter_iff
    {num den : Nat}
    (hDen : 0 < den)
    (k : Nat)
    (p : Int) :
    num * (4 * (Binary64.fraction 1 p).2)
        ≤ k * (Binary64.fraction 1 p).1 * den
      ↔ (num : ℚ) / den ≤ k / 4 * 2 ^ p := by
  have hDen' : (0 : ℚ) < den := by exact_mod_cast hDen
  have hUnit : (0 : ℚ) < (Binary64.fraction 1 p).2 := by
    exact_mod_cast (fraction_pos p).2
  have hScale : (0 : ℚ) < 4 * (Binary64.fraction 1 p).2 := by positivity
  rw [← fraction_eq, ← Nat.cast_le (α := ℚ), div_le_iff₀ hDen',
    ← mul_le_mul_iff_left₀ hScale]
  push_cast
  field_simp

theorem lowEnd_eq
    (hSome : 0 < m)
    (p : Int) :
    Binary64.lowEnd m p
      = ((4 * m
          - if m = 4503599627370496 ∧ Binary64.minPower < p then 1 else 2
          : Nat) : ℚ) / 4 * 2 ^ p := by
  unfold Binary64.lowEnd
  split
  · rw [Nat.cast_sub (by omega)]
    push_cast
    ring
  · rw [Nat.cast_sub (by omega)]
    push_cast
    ring

theorem highEnd_eq
    (m : Nat)
    (p : Int) :
    Binary64.highEnd m p = ((4 * m + 2 : Nat) : ℚ) / 4 * 2 ^ p := by
  unfold Binary64.highEnd
  push_cast
  ring

/- The interval of a number holds what the number stands for. -/
theorem contains_iff
    (hSome : 0 < m)
    {num den : Nat}
    (hDen : 0 < den) :
    (intervalOf m p).contains num den = true
      ↔ Covers m p (num / den) := by
  have hCovers :
      Covers m p (num / den)
        ↔ Binary64.lowEnd m p ≤ num / den
          ∧ (num : ℚ) / den ≤ Binary64.highEnd m p
          ∧ (m % 2 = 1 → Binary64.lowEnd m p < num / den
            ∧ (num : ℚ) / den < Binary64.highEnd m p) :=
    ⟨fun h => ⟨h.low, h.high, fun hOdd => ⟨h.low_of_odd hOdd, h.high_of_odd hOdd⟩⟩,
      fun ⟨hLow, hHigh, hOdd⟩ => ⟨hLow, hHigh, fun h => (hOdd h).1, fun h => (hOdd h).2⟩⟩
  rw [hCovers, lowEnd_eq hSome, highEnd_eq, ← quarter_le_iff hDen,
    ← le_quarter_iff hDen, ← not_le (a := (num : ℚ) / den),
    ← not_le (b := (num : ℚ) / den), ← quarter_le_iff hDen,
    ← le_quarter_iff hDen, not_le, not_le]
  unfold intervalOf Interval.contains
  by_cases hEven : m % 2 = 0
  · simp [hEven]
  · have hOdd : m % 2 = 1 := by omega
    simp only [hOdd, forall_true_left]
    rw [if_neg (by decide), decide_eq_true_eq]
    exact
      ⟨fun h => ⟨h.1.le, h.2.le, h⟩, fun h => h.2.2⟩

end Intervals

------------------------------------------------------------
-- Decimals among the numbers
------------------------------------------------------------

/-
  A decimal of few digits that a number stands for: its grid is
  so coarse that a quarter of it is wider than the last place
  of the number.
-/
structure Stands
    (m : Nat)
    (p : Int)
    (c : Nat)
    (e : Int) : Prop where
  full : 4503599627370496 ≤ m
  some : 0 < c
  few : c < 1000000000000000
  covers : Covers m p (c * 10 ^ e)

section Grids

variable {m c k : Nat}
variable {p e f : Int}

/- The last place is less than a quarter of the grid. -/
theorem Stands.fine
    (hStands : Stands m p c e) :
    4 * (2 : ℚ) ^ p < 10 ^ e := by
  have hUnit := Binary64.two_zpow_pos p
  have hGrid := ten_zpow_pos e
  have hFull : (4503599627370496 : ℚ) ≤ m := by
    exact_mod_cast hStands.full
  have hFew : (c : ℚ) ≤ 1000000000000000 := by
    exact_mod_cast hStands.few.le
  have hClose := hStands.covers.close.1
  have hLeast :
      4000000000000000 * (2 : ℚ) ^ p < ((m : ℚ) - 1 / 2) * 2 ^ p :=
    mul_lt_mul_of_pos_right (by linarith) hUnit
  have hMost : (c : ℚ) * 10 ^ e ≤ 1000000000000000 * 10 ^ e :=
    mul_le_mul_of_nonneg_right hFew hGrid.le
  linarith

/- The number itself is much closer to the decimal than the grid. -/
theorem Stands.near
    (hStands : Stands m p c e) :
    ((c : ℚ) - 1 / 8) * 10 ^ e < m * 2 ^ p
      ∧ (m : ℚ) * 2 ^ p < (c + 1 / 8) * 10 ^ e := by
  have hFine := hStands.fine
  have hClose := hStands.covers.close
  constructor <;> linarith

/- Another point of the grid that the number stands for is none. -/
theorem Stands.eq_of_covers
    (hStands : Stands m p c e)
    (hGrid : e ≤ f)
    (hOther : Covers m p (k * 10 ^ f)) :
    k * 10 ^ (f - e).toNat = c := by
  have hUnit := ten_zpow_pos e
  have hFine := hStands.fine
  have hClose := hStands.covers.close
  have hClose' := hOther.close
  have hScale : (10 : ℚ) ^ f = 10 ^ (f - e).toNat * 10 ^ e := by
    rw [← Binary64.zpow_of_nonneg (by omega), ← zpow_add₀ (by norm_num)]
    congr 1
    omega
  rw [hScale] at hClose'
  -- Both points lie within one unit of the last place.
  have hLess : ((k * 10 ^ (f - e).toNat : Nat) : ℚ) < c + 1 := by
    refine lt_of_mul_lt_mul_right ?_ hUnit.le
    push_cast
    linarith [Binary64.two_zpow_pos p]
  have hLess' : (c : ℚ) < (k * 10 ^ (f - e).toNat : Nat) + 1 := by
    refine lt_of_mul_lt_mul_right ?_ hUnit.le
    push_cast
    linarith [Binary64.two_zpow_pos p]
  have hNat : k * 10 ^ (f - e).toNat < c + 1 := by exact_mod_cast hLess
  have hNat' : c < k * 10 ^ (f - e).toNat + 1 := by exact_mod_cast hLess'
  omega

/- Whether a point of a grid belongs to the interval. -/
theorem inside_iff
    (hSome : 0 < m)
    (k : Nat)
    (f : Int) :
    (intervalOf m p).contains (k * (tenPower f).1) (tenPower f).2 = true
      ↔ Covers m p (k * 10 ^ f) := by
  rw [contains_iff hSome (tenPower_pos f).2, ← tenPower_eq]
  push_cast
  rw [mul_div_assoc]

theorem hit_eq
    (tie : Tie)
    (i : Interval)
    (f : Int) :
    hit tie i f
      = let num := i.value * (tenPower f).2
        let den := i.den * (tenPower f).1
        match
          i.contains (num / den * (tenPower f).1) (tenPower f).2,
          i.contains ((num / den + 1) * (tenPower f).1) (tenPower f).2
        with
        | true, true => some (nearest tie num den)
        | true, false => some (num / den)
        | false, true => some (num / den + 1)
        | false, false => none :=
  rfl

/- A coarser grid than the last digit needs has no point there. -/
theorem hit_eq_none
    (hStands : Stands m p c e)
    (hLast : c % 10 ≠ 0)
    (hCoarse : e < f)
    (tie : Tie) :
    hit tie (intervalOf m p) f = none := by
  have hFull := hStands.full
  have hOutside (k : Nat) :
      (intervalOf m p).contains (k * (tenPower f).1) (tenPower f).2
        = false := by
    rw [← Bool.not_eq_true, inside_iff (by omega)]
    intro hInside
    have hPoint := hStands.eq_of_covers hCoarse.le hInside
    have hTen : (f - e).toNat = (f - e - 1).toNat + 1 := by omega
    rw [hTen, pow_succ, ← Nat.mul_assoc] at hPoint
    omega
  rw [hit_eq]
  simp only [hOutside]

/- The value of a number as a fraction. -/
theorem value_div_den
    (m : Nat)
    (p : Int) :
    ((intervalOf m p).value : ℚ) / (intervalOf m p).den = m * 2 ^ p := by
  have hUnit : (0 : ℚ) < (Binary64.fraction 1 p).2 := by
    exact_mod_cast (fraction_pos p).2
  unfold intervalOf
  rw [← fraction_eq]
  push_cast
  field_simp

/- The number lies next to the decimal on its grid. -/
theorem Stands.below
    (hStands : Stands m p c e) :
    (intervalOf m p).value * (tenPower e).2
        / ((intervalOf m p).den * (tenPower e).1) = c
      ∨ (intervalOf m p).value * (tenPower e).2
        / ((intervalOf m p).den * (tenPower e).1) + 1 = c := by
  rcases hStands.near with ⟨hLow, hHigh⟩
  have hSome := hStands.some
  have hGrid := ten_zpow_pos e
  have hDen : 0 < (intervalOf m p).den * (tenPower e).1 :=
    Nat.mul_pos (Nat.mul_pos (Nat.succ_pos 3) (fraction_pos p).2)
      (tenPower_pos e).1
  have hValue :
      (((intervalOf m p).value * (tenPower e).2 : Nat) : ℚ)
          / ((intervalOf m p).den * (tenPower e).1 : Nat)
        = m * 2 ^ p / 10 ^ e := by
    rw [← value_div_den, ← tenPower_eq]
    push_cast
    rw [div_div_div_eq]
  have hLess :=
    (Binary64.natDiv_lt_iff (n := (intervalOf m p).value * (tenPower e).2)
      (k := c + 1) hDen).mpr (by
        rw [hValue, div_lt_iff₀ hGrid]
        push_cast
        linarith)
  have hMore :=
    mt
      (Binary64.natDiv_lt_iff (n := (intervalOf m p).value * (tenPower e).2)
        (k := c - 1) hDen).mp (by
          rw [hValue, div_lt_iff₀ hGrid, Nat.cast_sub hSome]
          push_cast
          linarith)
  omega

/- The grid of the last digit has exactly this point there. -/
theorem hit_eq_some
    (hStands : Stands m p c e)
    (tie : Tie) :
    hit tie (intervalOf m p) e = some c := by
  have hFull := hStands.full
  have hInside (k : Nat) :
      (intervalOf m p).contains (k * (tenPower e).1) (tenPower e).2 = true
        ↔ k = c := by
    rw [inside_iff (by omega)]
    constructor
    · intro hCovers
      have hPoint := hStands.eq_of_covers (le_refl e) hCovers
      simpa using hPoint
    · rintro rfl
      exact hStands.covers
  have hBelow :
      (intervalOf m p).value * (tenPower e).2
          / ((intervalOf m p).den * (tenPower e).1) = c
        ∨ (intervalOf m p).value * (tenPower e).2
          / ((intervalOf m p).den * (tenPower e).1) + 1 = c :=
    hStands.below
  rw [hit_eq]
  generalize (intervalOf m p).value * (tenPower e).2 = num at *
  generalize (intervalOf m p).den * (tenPower e).1 = den at *
  rcases hBelow with hPoint | hNext
  · have hFirst := (hInside (num / den)).mpr hPoint
    have hSecond :
        (intervalOf m p).contains ((num / den + 1) * (tenPower e).1)
          (tenPower e).2 = false := by
      rw [← Bool.not_eq_true, hInside]
      omega
    simp only [hFirst, hSecond]
    rw [hPoint]
  · have hFirst :
        (intervalOf m p).contains (num / den * (tenPower e).1)
          (tenPower e).2 = false := by
      rw [← Bool.not_eq_true, hInside]
      omega
    have hSecond := (hInside (num / den + 1)).mpr hNext
    simp only [hFirst, hSecond]
    rw [hNext]

/- Of descending grids the first one with a point is found. -/
theorem firstHit_eq
    (hStands : Stands m p c e)
    (hLast : c % 10 ≠ 0)
    (tie : Tie)
    {grids : List Int}
    (hDescending : grids.Pairwise (· > ·))
    (hMem : e ∈ grids) :
    firstHit tie (intervalOf m p) grids = { digits := c, exponent := e } := by
  induction grids with
  | nil => cases hMem
  | cons f grids ih =>
      rcases List.pairwise_cons.mp hDescending with ⟨hFirst, hOthers⟩
      rcases List.mem_cons.mp hMem with rfl | hRest
      · have hSome := hStands.some
        simp only [firstHit, hit_eq_some hStands tie]
        rw [if_neg (by omega)]
      · simp only [firstHit, hit_eq_none hStands hLast (hFirst e hRest) tie]
        exact ih hOthers hRest

------------------------------------------------------------
-- The size of a number
------------------------------------------------------------

theorem lt_pow_length
    (n : Nat) :
    n < 10 ^ (Digits.ofNat n).length := by
  have hLength := List.length_pos_iff.mpr (Digits.ofNat_ne_nil n)
  rw [Digits.ofNat_eq] at hLength ⊢
  exact (Nat.length_toDigits_le_iff (by decide) hLength).mp (le_refl _)

theorem pow_length_le
    {n : Nat}
    (hSome : 0 < n) :
    10 ^ ((Digits.ofNat n).length - 1) ≤ n := by
  rw [Digits.ofNat_eq]
  by_cases hOne : (Nat.toDigits 10 n).length - 1 = 0
  · rw [hOne]
    exact hSome
  · by_contra hLess
    have hShort :=
      (Nat.length_toDigits_le_iff (b := 10) (n := n) (by decide)
        (Nat.pos_of_ne_zero hOne)).mpr (not_le.mp hLess)
    omega

/- The digits before the point tell the size of a fraction. -/
theorem zpow_length_bounds
    {a b : Nat}
    (hDen : 0 < b)
    (hSome : b ≤ a) :
    (10 : ℚ) ^ (((Digits.ofNat (a / b)).length : Int) - 1) ≤ a / b
      ∧ (a : ℚ) / b < 10 ^ ((Digits.ofNat (a / b)).length : Int) := by
  have hWhole : 0 < a / b := Nat.div_pos hSome hDen
  have hLength := List.length_pos_iff.mpr (Digits.ofNat_ne_nil (a / b))
  constructor
  · have hPower := pow_length_le hWhole
    have hExponent :
        ((Digits.ofNat (a / b)).length : Int) - 1
          = ((Digits.ofNat (a / b)).length - 1 : Nat) := by
      omega
    rw [hExponent, zpow_natCast]
    calc
      (10 : ℚ) ^ ((Digits.ofNat (a / b)).length - 1) ≤ (a / b : Nat) := by
          exact_mod_cast hPower
      _ ≤ (a : ℚ) / b :=
          not_lt.mp
            (mt (Binary64.natDiv_lt_iff hDen).mpr (lt_irrefl (a / b)))
  · have hPower := lt_pow_length (a / b)
    rw [zpow_natCast]
    exact_mod_cast (Binary64.natDiv_lt_iff hDen).mp hPower

theorem lt_of_ten_zpow_lt
    {a b : Int}
    (hLess : (10 : ℚ) ^ a < 10 ^ b) :
    a < b :=
  (zpow_lt_zpow_iff_right₀ (by norm_num)).mp hLess

/- The size of a number is that of its decimal, by fifteen digits. -/
theorem magnitude_bounds
    (hStands : Stands m p c e) :
    e ≤ magnitude (intervalOf m p) + 1
      ∧ magnitude (intervalOf m p) < e + 16 := by
  rcases hStands.near with ⟨hLow, hHigh⟩
  have hGrid := ten_zpow_pos e
  have hSome : (1 : ℚ) ≤ c := by exact_mod_cast hStands.some
  have hFew : (c : ℚ) + 1 ≤ 1000000000000000 := by
    exact_mod_cast hStands.few
  have hLeast : (10 : ℚ) ^ (e - 1) < m * 2 ^ p := by
    rw [zpow_sub_one₀ (by norm_num)]
    nlinarith
  have hMost : (m : ℚ) * 2 ^ p < 10 ^ (e + 15) := by
    rw [zpow_add₀ (by norm_num)]
    norm_num
    nlinarith
  have hDen : 0 < (intervalOf m p).den :=
    Nat.mul_pos (Nat.succ_pos 3) (fraction_pos p).2
  rw [← value_div_den] at hLeast hMost
  generalize (intervalOf m p) = i at *
  unfold magnitude
  split
  · rename_i hWhole
    rcases zpow_length_bounds hDen hWhole with ⟨hLower, hUpper⟩
    have hFirst := lt_of_ten_zpow_lt (hLeast.trans hUpper)
    have hSecond := lt_of_ten_zpow_lt (hLower.trans_lt hMost)
    omega
  · rename_i hPart
    -- Below one it is the size of the inverse that counts.
    have hPositive : (0 : ℚ) < i.value / i.den :=
      (ten_zpow_pos (e - 1)).trans hLeast
    have hValue : 0 < i.value := by
      rcases Nat.eq_zero_or_pos i.value with hZero | hSome
      · rw [hZero] at hPositive
        simp at hPositive
      · exact hSome
    rcases zpow_length_bounds hValue (not_le.mp hPart).le with
      ⟨hLower, hUpper⟩
    generalize ((Digits.ofNat (i.den / i.value)).length : Int) = size at *
    have hInverse : (i.den : ℚ) / i.value = (i.value / i.den : ℚ)⁻¹ :=
      (inv_div _ _).symm
    rw [hInverse] at hLower hUpper
    have hBelow : (10 : ℚ) ^ (-size) < i.value / i.den := by
      rw [zpow_neg]
      exact inv_lt_of_inv_lt₀ hPositive hUpper
    have hAbove : (i.value : ℚ) / i.den ≤ 10 ^ (1 - size) := by
      have hSwap : 1 - size = -(size - 1) := by omega
      rw [hSwap, zpow_neg]
      exact le_inv_of_le_inv₀ (ten_zpow_pos _) hLower
    have hFirst := lt_of_ten_zpow_lt (hLeast.trans_le hAbove)
    have hSecond := lt_of_ten_zpow_lt (hBelow.trans hMost)
    omega

/- The grid of the decimal is among those that are tried. -/
theorem grid_mem
    (hStands : Stands m p c e) :
    e ∈ (List.range 22).map fun (k : Nat) =>
      magnitude (intervalOf m p) + 1 - (k : Int) := by
  rcases magnitude_bounds hStands with ⟨hMost, hLeast⟩
  rw [List.mem_map]
  refine ⟨(magnitude (intervalOf m p) + 1 - e).toNat, ?_, ?_⟩
  · rw [List.mem_range]
    omega
  · omega

theorem grids_descend (top : Int) :
    ((List.range 22).map fun (k : Nat) => top - (k : Int)).Pairwise
      (· > ·) := by
  rw [List.pairwise_map]
  refine List.pairwise_lt_range.imp ?_
  intro a b hLess
  omega

theorem strip_eq_self
    {d : Decimal}
    (hLast : d.digits % 10 ≠ 0)
    (fuel : Nat) :
    strip fuel d = d := by
  cases fuel with
  | zero => rfl
  | succ fuel =>
      unfold strip
      rw [if_neg]
      exact fun h => hLast h.2

/- The shortest decimal of a number is the short one it stands for. -/
theorem ofFinite_eq
    (hStands : Stands m p c e)
    (hLast : c % 10 ≠ 0)
    (tie : Tie) :
    ofFinite tie m p = { digits := c, exponent := e } := by
  unfold ofFinite
  simp only
  rw [firstHit_eq hStands hLast tie (grids_descend _) (grid_mem hStands)]
  exact strip_eq_self hLast 20

end Grids

end Shortest

end TradeTape
