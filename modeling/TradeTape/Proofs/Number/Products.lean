import TradeTape.Proofs.Number.Nearest

/-
  Rounding keeps the order of numbers.

  What rounds to one number of the format lies below what
  rounds to a greater one, so a greater fraction rounds to a
  number that is not less, and a number of the format rounds
  to itself.  A product with a number of the format above one
  makes up for what the rounding of the other factor has taken
  away.

  Key statements include:
    * `Binary64.RoundsTo`
    * `Binary64.highEnd_le_lowEnd`
    * `Binary64.RoundsTo.le_value`
    * `Binary64.RoundsTo.value_mono`
    * `Binary64.RoundsTo.le_product`
-/

namespace TradeTape

namespace Binary64

------------------------------------------------------------
-- Values
------------------------------------------------------------

/- The numbers that the format has room for. -/
def Fits : Binary64 → Prop
  | .finite _ m p =>
      m < significandLimit ∧ minPower ≤ p ∧ p ≤ maxPower
  | _ => True

instance (x : Binary64) : Decidable x.Fits := by
  cases x <;> unfold Fits <;> infer_instance

/- What a finite number amounts to. -/
def value : Binary64 → ℚ
  | .finite false m p => m * 2 ^ p
  | .finite true m p => -(m * 2 ^ p)
  | _ => 0

theorem value_one : one.value = 1 := by
  norm_num [one, value]

theorem fraction_snd_pos
    (m : Nat)
    (p : Int) :
    0 < (fraction m p).2 := by
  unfold fraction
  split
  · exact Nat.one_pos
  · exact Nat.pow_pos Nat.two_pos

theorem fraction_div
    (m : Nat)
    (p : Int) :
    ((fraction m p).1 : ℚ) / (fraction m p).2 = m * 2 ^ p := by
  unfold fraction
  split
  · rename_i hPower
    rw [zpow_of_nonneg hPower]
    push_cast [Nat.pow_eq]
    rw [div_one]
  · rename_i hPower
    rw [zpow_of_neg (by omega)]
    push_cast [Nat.pow_eq]
    rw [div_eq_mul_inv]

/- The order of two finite numbers is that of their values. -/
theorem le_iff_value_le
    {x y : Binary64}
    (hx : x.isFinite = true)
    (hy : y.isFinite = true) :
    x.le y = true ↔ x.value ≤ y.value := by
  cases x with
  | infinite s => cases hx
  | nan => cases hx
  | finite s m p =>
      cases y with
      | infinite t => cases hy
      | nan => cases hy
      | finite t n q =>
          have hDen : (0 : ℚ) < (fraction m p).2 := by
            exact_mod_cast fraction_snd_pos m p
          have hDen' : (0 : ℚ) < (fraction n q).2 := by
            exact_mod_cast fraction_snd_pos n q
          cases s <;> cases t <;>
            simp only [le, value, ← fraction_div, Bool.false_eq_true,
              if_true, if_false, decide_eq_true_eq]
          · rw [div_le_div_iff₀ hDen hDen', ← Int.cast_le (R := ℚ)]
            push_cast
            exact Iff.rfl
          · rw [← neg_div, div_le_div_iff₀ hDen hDen', ← Int.cast_le (R := ℚ)]
            push_cast
            rw [neg_mul]
          · rw [← neg_div, div_le_div_iff₀ hDen hDen', ← Int.cast_le (R := ℚ)]
            push_cast
            rw [neg_mul]
          · rw [neg_le_neg_iff, neg_le_neg_iff, div_le_div_iff₀ hDen' hDen]
            exact_mod_cast Iff.rfl

/- A number reaches an integer if its integer part does. -/
theorem le_truncate_iff
    {n limit : Nat}
    (hRoom : n ≤ limit)
    (m : Nat)
    (p : Int) :
    n ≤ (Binary64.finite false m p).truncate limit
      ↔ (n : ℚ) ≤ (Binary64.finite false m p).value := by
  have hDen := fraction_snd_pos m p
  have hDen' : (0 : ℚ) < (fraction m p).2 := by exact_mod_cast hDen
  have hTruncate :
      (Binary64.finite false m p).truncate limit
        = min ((fraction m p).1 / (fraction m p).2) limit :=
    rfl
  rw [hTruncate, Nat.le_min, and_iff_left hRoom,
    Nat.le_div_iff_mul_le hDen]
  simp only [value]
  rw [← fraction_div, le_div_iff₀ hDen']
  exact_mod_cast Iff.rfl

------------------------------------------------------------
-- Numbers with all their bits
------------------------------------------------------------

section Numbers

variable {m n : Nat}
variable {p q : Int}
variable {x : ℚ}

/- The significands of 53 bits. -/
def Full (m : Nat) : Prop :=
  4503599627370496 ≤ m ∧ m < significandLimit

theorem Full.le
    (hFull : Full m) :
    (4503599627370496 : ℚ) ≤ m := by
  exact_mod_cast hFull.1

theorem Full.succ_le
    (hFull : Full m) :
    (m : ℚ) + 1 ≤ 9007199254740992 := by
  exact_mod_cast hFull.2

/- A greater power is at least twice as great. -/
theorem two_zpow_double
    (hLess : q < p) :
    (2 : ℚ) * 2 ^ q ≤ 2 ^ p := by
  rw [mul_comm, ← zpow_add_one₀ (by norm_num)]
  exact zpow_le_zpow_right₀ (by norm_num) hLess

theorem lt_of_two_zpow_lt
    (hLess : (2 : ℚ) ^ q < 2 ^ p) :
    q < p :=
  (zpow_lt_zpow_iff_right₀ (by norm_num)).mp hLess

/-
  What a number of 53 bits stands for ends before what a
  greater one stands for begins.
-/
theorem highEnd_le_lowEnd
    (hm : Full m)
    (hn : Full n)
    (hLow : minPower ≤ q)
    (hLess : (n : ℚ) * 2 ^ q < m * 2 ^ p) :
    highEnd n q ≤ lowEnd m p := by
  have hUnit := two_zpow_pos q
  have hUnit' := two_zpow_pos p
  have hLeast := hm.le
  have hMost := hn.succ_le
  unfold highEnd lowEnd
  rcases lt_trichotomy q p with hFine | rfl | hCoarse
  · have hDouble := two_zpow_double hFine
    have hPower : minPower < p := lt_of_le_of_lt hLow hFine
    -- The gap below is half as wide only at the least significand.
    have hGap :
        (4503599627370496 : ℚ) - 1 / 4
          ≤ m - if m = 4503599627370496 ∧ minPower < p then 1 / 4
            else 1 / 2 := by
      by_cases hEdge : m = 4503599627370496
      · rw [if_pos ⟨hEdge, hPower⟩]
        linarith
      · have hMore : (4503599627370496 : ℚ) + 1 ≤ m := by
          exact_mod_cast lt_of_le_of_ne hm.1 (Ne.symm hEdge)
        rw [if_neg fun h => hEdge h.1]
        linarith
    calc
      ((n : ℚ) + 1 / 2) * 2 ^ q ≤ (9007199254740992 - 1 / 2) * 2 ^ q :=
        mul_le_mul_of_nonneg_right (by linarith) hUnit.le
      _ = (4503599627370496 - 1 / 4) * (2 * 2 ^ q) := by ring
      _ ≤ (4503599627370496 - 1 / 4) * 2 ^ p :=
        mul_le_mul_of_nonneg_left hDouble (by norm_num)
      _ ≤ _ := mul_le_mul_of_nonneg_right hGap hUnit'.le
  · have hLess' : n < m := by
      exact_mod_cast lt_of_mul_lt_mul_right hLess hUnit.le
    have hStep : (n : ℚ) + 1 ≤ m := by exact_mod_cast hLess'
    refine mul_le_mul_of_nonneg_right ?_ hUnit.le
    split <;> linarith
  · have hDouble := two_zpow_double hCoarse
    have hLeast' := hn.le
    have hMost' := hm.succ_le
    nlinarith

/-
  A multiple of a power of two by 53 bits that a fraction
  reaches is reached by what the fraction rounds to.
-/
theorem Covers.le_of_le
    {c : Nat}
    {e : Int}
    (hCovers : Covers m p x)
    (hm : Full m)
    (hFew : c ≤ significandLimit)
    (hReached : (c : ℚ) * 2 ^ e ≤ x) :
    (c : ℚ) * 2 ^ e ≤ m * 2 ^ p := by
  have hUnit := two_zpow_pos p
  have hUnit' := two_zpow_pos e
  rcases le_or_gt p e with hCoarse | hFine
  · -- Both are multiples of the unit of the number.
    have hScale : (2 : ℚ) ^ e = 2 ^ (e - p).toNat * 2 ^ p := by
      rw [← zpow_of_nonneg (by omega), ← zpow_add₀ (by norm_num)]
      congr 1
      omega
    rw [hScale, ← mul_assoc] at hReached ⊢
    have hNear : (c : ℚ) * 2 ^ (e - p).toNat ≤ m + 1 / 2 :=
      le_of_mul_le_mul_right (hReached.trans hCovers.high) hUnit
    have hNear' : c * 2 ^ (e - p).toNat < m + 1 := by
      have hLess : (c : ℚ) * 2 ^ (e - p).toNat < m + 1 := by linarith
      exact_mod_cast hLess
    refine mul_le_mul_of_nonneg_right ?_ hUnit.le
    exact_mod_cast Nat.lt_succ_iff.mp hNear'
  · have hFew' : (c : ℚ) ≤ 9007199254740992 := by exact_mod_cast hFew
    calc
      (c : ℚ) * 2 ^ e ≤ 9007199254740992 * 2 ^ e :=
        mul_le_mul_of_nonneg_right hFew' hUnit'.le
      _ = 4503599627370496 * (2 * 2 ^ e) := by ring
      _ ≤ 4503599627370496 * 2 ^ p :=
        mul_le_mul_of_nonneg_left (two_zpow_double hFine) (by norm_num)
      _ ≤ m * 2 ^ p := mul_le_mul_of_nonneg_right hm.le hUnit.le

end Numbers

------------------------------------------------------------
-- Rounding
------------------------------------------------------------

/- The number with 53 bits that a fraction rounds to. -/
inductive RoundsTo (x : ℚ) : Binary64 → Prop where
  | finite
      {m : Nat}
      {p : Int}
      (full : Full m)
      (low : minPower ≤ p)
      (covers : Covers m p x) :
      RoundsTo x (.finite false m p)

/- What is rounded fits into 53 bits. -/
theorem significand_lt_of_round
    {num den m : Nat}
    {p : Int}
    {negative : Bool}
    (hNum : 0 < num)
    (hDen : 0 < den)
    (hLow : minPower ≤ roughPower num den)
    (hRound : round negative num den = .finite negative m p) :
    m < significandLimit ∧ minPower ≤ p := by
  rcases powerOf_normal hNum hDen hLow with ⟨-, hMost, hRough, -⟩
  have hNearest :=
    divNearest_isNearest
      (n := (unscale num den (powerOf num den)).1)
      (unscale_snd_pos hDen num (powerOf num den))
  rw [unscale_eq hDen] at hNearest
  unfold round at hRound
  rw [if_neg hNum.ne'] at hRound
  simp only at hRound
  generalize divNearest (unscale num den (powerOf num den)).1
    (unscale num den (powerOf num den)).2 = k at hNearest hRound
  have hFew : k < significandLimit + 1 := by
    have hLess : (k : ℚ) < 9007199254740992 + 1 := by
      linarith [hNearest.low]
    exact_mod_cast hLess
  split at hRound
  · rename_i hCarry
    simp only at hRound
    split at hRound
    · cases hRound
    · cases hRound
      exact ⟨by rw [hCarry]; decide, by omega⟩
  · rename_i hFits
    simp only at hRound
    split at hRound
    · cases hRound
    · cases hRound
      exact ⟨by omega, by omega⟩

/- A fraction from one on rounds to a number with 53 bits. -/
theorem round_roundsTo
    {num den : Nat}
    (hDen : 0 < den)
    (hOne : (1 : ℚ) ≤ num / den)
    (hMost : (num : ℚ) / den < 2 ^ 200) :
    RoundsTo (num / den) (round false num den) := by
  have hDen' : (0 : ℚ) < den := by exact_mod_cast hDen
  have hNum : 0 < num := by
    rw [le_div_iff₀ hDen', one_mul] at hOne
    exact_mod_cast hDen'.trans_le hOne
  rcases roughPower_bounds hNum hDen with ⟨hLeast, hGreatest⟩
  have hUnit := two_zpow_pos (roughPower num den)
  rw [lt_div_iff₀ hUnit] at hLeast
  rw [div_lt_iff₀ hUnit] at hGreatest
  have hLow : minPower ≤ roughPower num den := by
    have hPower :
        (2 : ℚ) ^ (0 : Int) < 2 ^ ((54 : Int) + roughPower num den) := by
      rw [zpow_add₀ (by norm_num), zpow_zero]
      exact hOne.trans_lt hGreatest
    have hSize := lt_of_two_zpow_lt hPower
    unfold minPower
    omega
  have hHigh : roughPower num den + 2 ≤ maxPower := by
    have hPower :
        (2 : ℚ) ^ ((52 : Int) + roughPower num den) < 2 ^ (200 : Int) := by
      rw [zpow_add₀ (by norm_num)]
      exact hLeast.trans hMost
    have hSize := lt_of_two_zpow_lt hPower
    unfold maxPower
    omega
  rcases round_covers hNum hDen hLow hHigh false with
    ⟨m, p, hRound, hFull, hCovers⟩
  have hFits := significand_lt_of_round hNum hDen hLow hRound
  rw [hRound]
  exact .finite ⟨hFull, hFits.1⟩ hFits.2 hCovers

theorem ofNat_roundsTo
    {n : Nat}
    (hSome : 0 < n)
    (hMost : n < 2 ^ 200) :
    RoundsTo n (ofNat n) := by
  have hOne : (1 : ℚ) ≤ n / (1 : Nat) := by
    rw [Nat.cast_one, div_one]
    exact_mod_cast hSome
  have hMost' : (n : ℚ) / (1 : Nat) < 2 ^ 200 := by
    rw [Nat.cast_one, div_one]
    exact_mod_cast hMost
  have hRounds := round_roundsTo Nat.one_pos hOne hMost'
  rwa [Nat.cast_one, div_one] at hRounds

namespace RoundsTo

variable {x x' f : ℚ}
variable {y y' z : Binary64}

/- A number that is reached is reached after rounding. -/
theorem le_value
    (h : RoundsTo x y)
    {c : Nat}
    {e : Int}
    (hFew : c ≤ significandLimit)
    (hReached : (c : ℚ) * 2 ^ e ≤ x) :
    (c : ℚ) * 2 ^ e ≤ y.value := by
  cases h with
  | finite full low covers => exact covers.le_of_le full hFew hReached

theorem one_le_value
    (h : RoundsTo x y)
    (hOne : 1 ≤ x) :
    1 ≤ y.value := by
  have hReached :=
    h.le_value (c := 1) (e := 0) (by decide) (by simpa using hOne)
  simpa using hReached

/- Rounding no more than doubles a fraction. -/
theorem value_le
    (h : RoundsTo x y) :
    y.value ≤ 2 * x := by
  cases h with
  | @finite m p full low covers =>
      have hClose := covers.close.1
      have hUnit := two_zpow_pos p
      have hFull := full.le
      simp only [value]
      nlinarith

/- What is greater rounds to what is not less. -/
theorem value_mono
    (h : RoundsTo x y)
    (h' : RoundsTo x' y')
    (hLess : x < x') :
    y.value ≤ y'.value := by
  cases h with
  | finite full low covers =>
      cases h' with
      | finite full' low' covers' =>
          by_contra hMore
          have hApart := highEnd_le_lowEnd full full' low' (not_le.mp hMore)
          linarith [covers.low, covers'.high]

/- A number of the format rounds to itself. -/
theorem value_eq
    (h : RoundsTo x y)
    (h' : RoundsTo y.value z) :
    z.value = y.value := by
  cases h with
  | @finite m p full low covers =>
      refine le_antisymm ?_ (h'.le_value full.2.le (le_refl _))
      cases h' with
      | finite full' low' covers' =>
          by_contra hMore
          have hApart := highEnd_le_lowEnd full' full low (not_le.mp hMore)
          have hAbove : (m : ℚ) * 2 ^ p < highEnd m p :=
            mul_lt_mul_of_pos_right (by linarith) (two_zpow_pos p)
          have hBelow := covers'.low
          simp only [value] at hBelow
          linarith

/-
  What rounding has taken away from one factor is less than
  what another one above one adds to it.
-/
theorem le_product
    (h : RoundsTo x y)
    (hFactor : 1 + 1 / 4503599627370496 ≤ f)
    (hProduct : RoundsTo (y.value * f) z) :
    x ≤ z.value := by
  cases h with
  | @finite m p full low covers =>
      have hUnit := two_zpow_pos p
      have hFull := full.le
      have hStep : (m : ℚ) + 1 ≤ m * f := by nlinarith
      have hReached : ((m + 1 : Nat) : ℚ) * 2 ^ p ≤ m * 2 ^ p * f := by
        push_cast
        nlinarith
      have hNext := hProduct.le_value (Nat.succ_le_of_lt full.2) hReached
      calc
        x ≤ (m + 1 / 2) * 2 ^ p := covers.high
        _ ≤ ((m + 1 : Nat) : ℚ) * 2 ^ p := by
          push_cast
          nlinarith
        _ ≤ z.value := hNext

theorem le_truncate_iff
    (h : RoundsTo x y)
    {n limit : Nat}
    (hRoom : n ≤ limit) :
    n ≤ y.truncate limit ↔ (n : ℚ) ≤ y.value := by
  cases h with
  | finite full low covers => exact Binary64.le_truncate_iff hRoom _ _

theorem truncate_le
    (h : RoundsTo x y)
    (limit : Nat) :
    y.truncate limit ≤ limit := by
  cases h with
  | finite full low covers => exact Nat.min_le_right _ _

/- The integer part depends on the value only. -/
theorem truncate_eq
    (h : RoundsTo x y)
    (h' : RoundsTo x' y')
    (hValue : y.value = y'.value)
    (limit : Nat) :
    y.truncate limit = y'.truncate limit := by
  have hIff (n : Nat) (hRoom : n ≤ limit) :
      n ≤ y.truncate limit ↔ n ≤ y'.truncate limit := by
    rw [h.le_truncate_iff hRoom, h'.le_truncate_iff hRoom, hValue]
  exact
    le_antisymm ((hIff _ (h.truncate_le limit)).mp (le_refl _))
      ((hIff _ (h'.truncate_le limit)).mpr (le_refl _))

/- The integer part of a number reaches itself. -/
theorem truncate_le_value
    (h : RoundsTo x y)
    {limit : Nat}
    (hRounds : RoundsTo (y.truncate limit) z)
    (hRoom : y.truncate limit < limit) :
    (y.truncate limit : ℚ) ≤ z.value := by
  have hBelow := (h.le_truncate_iff hRoom.le).mp (le_refl _)
  cases h with
  | @finite m p full low covers =>
      generalize hPart : (Binary64.finite false m p).truncate limit = t at *
      rcases le_or_gt 0 p with hWhole | hBroken
      · -- The number is an integer, and so nothing is cut off it.
        have hValue :
            (Binary64.finite false m p).value = (m * 2 ^ p.toNat : Nat) := by
          simp only [value, zpow_of_nonneg hWhole]
          push_cast
          rfl
        have hAll : m * 2 ^ p.toNat ≤ t := by
          by_contra hLess
          have hReached :
              t + 1 ≤ (Binary64.finite false m p).truncate limit := by
            rw [Binary64.le_truncate_iff hRoom, hValue]
            exact_mod_cast not_le.mp hLess
          omega
        have hAll' : (m : ℚ) * 2 ^ p ≤ t := by
          have hAll'' : ((m * 2 ^ p.toNat : Nat) : ℚ) ≤ t := by
            exact_mod_cast hAll
          rwa [← hValue] at hAll''
        exact hBelow.trans (hRounds.le_value full.2.le hAll')
      · have hPower : (2 : ℚ) ^ p ≤ 1 := by
          rw [← zpow_zero (2 : ℚ)]
          exact zpow_le_zpow_right₀ (by norm_num) hBroken.le
        have hFew : t ≤ significandLimit := by
          have hMost := full.succ_le
          have hSmall : (t : ℚ) ≤ 9007199254740992 := by
            simp only [value] at hBelow
            nlinarith
          exact_mod_cast hSmall
        have hReached := hRounds.le_value (e := 0) hFew (by simp)
        simpa using hReached

end RoundsTo

/- The product of two numbers is rounded. -/
theorem mul_roundsTo
    {m n : Nat}
    {p q : Int}
    (hOne : 1 ≤ (finite false m p).value * (finite false n q).value)
    (hMost :
      (finite false m p).value * (finite false n q).value < 2 ^ 200) :
    RoundsTo ((finite false m p).value * (finite false n q).value)
      ((finite false m p).mul (finite false n q)) := by
  have hDen :=
    Nat.mul_pos (fraction_snd_pos m p) (fraction_snd_pos n q)
  have hFraction :
      (((fraction m p).1 * (fraction n q).1 : Nat) : ℚ)
          / ((fraction m p).2 * (fraction n q).2 : Nat)
        = (finite false m p).value * (finite false n q).value := by
    simp only [value, ← fraction_div]
    push_cast
    rw [div_mul_div_comm]
  rw [← hFraction] at hOne hMost ⊢
  exact round_roundsTo hDen hOne hMost

/- A number above one is so by a unit of its last place. -/
theorem Fits.one_lt_value
    {n : Nat}
    {q : Int}
    (hFits : (finite false n q).Fits)
    (hMore : 1 < (finite false n q).value) :
    1 + 1 / 4503599627370496 ≤ (finite false n q).value := by
  simp only [value] at hMore ⊢
  rcases le_or_gt 0 q with hWhole | hBroken
  · rw [zpow_of_nonneg hWhole] at hMore ⊢
    have hTwo : 2 ≤ n * 2 ^ q.toNat := by exact_mod_cast hMore
    have hTwo' : (2 : ℚ) ≤ n * 2 ^ q.toNat := by exact_mod_cast hTwo
    linarith
  · rw [zpow_of_neg hBroken, ← div_eq_mul_inv] at hMore ⊢
    generalize (-q).toNat = k at *
    have hUnit : (0 : ℚ) < 2 ^ k := by positivity
    rw [one_lt_div hUnit] at hMore
    have hAbove : 2 ^ k + 1 ≤ n := by exact_mod_cast hMore
    -- A number above one has at most 52 places.
    have hPlaces : 2 ^ k ≤ 2 ^ 52 := by
      have hLess : 2 ^ k < 2 ^ 53 := by
        have hFew := hFits.1
        unfold significandLimit at hFew
        omega
      have hPower := (Nat.pow_lt_pow_iff_right (by decide)).mp hLess
      exact Nat.pow_le_pow_right (by decide) (by omega)
    have hAbove' : (2 : ℚ) ^ k + 1 ≤ n := by exact_mod_cast hAbove
    have hPlaces' : (2 : ℚ) ^ k ≤ 4503599627370496 := by exact_mod_cast hPlaces
    rw [le_div_iff₀ hUnit]
    nlinarith

end Binary64

end TradeTape
