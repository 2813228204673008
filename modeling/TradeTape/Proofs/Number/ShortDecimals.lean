import Mathlib.Data.Nat.Factors
import TradeTape.Proofs.Number.Decimals
import TradeTape.Proofs.Number.Shortest

/-
  Decimals of at most fifteen digits go through the binary
  format and come back.

  The nearest binary number stands for the decimal, and so its
  shortest text is that of the decimal, with the zeros at its
  end left out.

  Key statements include:
    * `Shortest.positional_eq_body`
    * `Decimal.stands_of_few`
    * `Decimal.ofBinary?_toBinary`
-/

namespace TradeTape

------------------------------------------------------------
-- Texts of short decimals
------------------------------------------------------------

/- A power of ten puts zeros behind the digits. -/
theorem Digits.ofNat_mul_pow
    {n : Nat}
    (hSome : 0 < n)
    (k : Nat) :
    ofNat (n * 10 ^ k) = ofNat n ++ List.replicate k '0' := by
  induction k with
  | zero => simp
  | succ k ih =>
      have hMore : 10 ≤ n * 10 ^ (k + 1) := by
        have hPower : 0 < n * 10 ^ k := Nat.mul_pos hSome (by positivity)
        rw [pow_succ, ← Nat.mul_assoc]
        omega
      have hQuotient : n * 10 ^ (k + 1) / 10 = n * 10 ^ k := by
        rw [pow_succ, ← Nat.mul_assoc]
        exact Nat.mul_div_cancel _ (by decide)
      have hDigit : n * 10 ^ (k + 1) % 10 = 0 := by
        rw [pow_succ, ← Nat.mul_assoc]
        exact Nat.mul_mod_left _ _
      rw [ofNat_eq, Nat.toDigits_of_base_le (by decide) hMore, hQuotient,
        hDigit, ← ofNat_eq, ih, List.replicate_succ', List.append_assoc]
      rfl

namespace Shortest

/- The positional text is that of a decimal without a sign. -/
theorem positional_eq_body
    {n : Nat}
    (hSome : 0 < n)
    (e : Int)
    (negative : Bool) :
    positional { digits := n, exponent := e }
      = Decimal.body
          { negative := negative
            coefficient := n * 10 ^ e.toNat
            scale := (-e).toNat } := by
  by_cases hWhole : 0 ≤ e
  · have hScale : (-e).toNat = 0 := by omega
    rw [Decimal.body_of_scale_eq_zero hScale,
      Digits.ofNat_mul_pow hSome]
    unfold positional
    simp only [if_pos hWhole]
  · have hScale : ¬(-e).toNat = 0 := by omega
    have hPower : e.toNat = 0 := by omega
    unfold positional Decimal.body
    simp only [if_neg hWhole, if_neg hScale, hPower]
    unfold Decimal.whole Decimal.places Decimal.figures Digits.padded
    simp

end Shortest

namespace Decimal

------------------------------------------------------------
-- Reading what a binary number says
------------------------------------------------------------

/- The text of a number that stands for a short decimal. -/
theorem ofBinary?_of_stands
    {m c : Nat}
    {p e : Int}
    {negative : Bool}
    (hStands : Shortest.Stands m p c e)
    (hLast : c % 10 ≠ 0)
    (hFits :
      Fits
        { negative := negative
          coefficient := c * 10 ^ e.toNat
          scale := (-e).toNat }) :
    ofBinary? (.finite negative m p)
      = some (make negative (c * 10 ^ e.toNat) (-e).toNat) := by
  have hFull := hStands.full
  have hMagnitude :
      Binary64.magnitudeText m p
        = body
            { negative := negative
              coefficient := c * 10 ^ e.toNat
              scale := (-e).toNat } := by
    have hSome : m ≠ 0 := by omega
    unfold Binary64.magnitudeText
    rw [if_neg hSome, Shortest.ofFinite_eq hStands hLast,
      Shortest.positional_eq_body hStands.some e negative]
  have hText :
      Binary64.plainText (.finite negative m p)
        = chars
            { negative := negative
              coefficient := c * 10 ^ e.toNat
              scale := (-e).toNat } := by
    rw [chars_eq, ← hMagnitude]
    rfl
  unfold ofBinary?
  rw [hText, readPositional?_chars hFits]

/- A decimal of few digits, whose nearest number stands for it. -/
theorem stands_of_few
    {d : Decimal}
    {c k : Nat}
    (hFits : d.Fits)
    (hPlaces : d.scale ≠ 0)
    (hSome : 0 < c)
    (hFew : c < 1000000000000000)
    (hDigits : d.coefficient = c * 10 ^ k) :
    ∃ m p, d.toBinary = .finite d.negative m p
      ∧ Shortest.Stands m p c ((k : Int) - d.scale) := by
  rcases hFits with ⟨hCoefficient, hScale⟩
  have hNum : 0 < d.coefficient := by
    rw [hDigits]
    positivity
  have hDen : 0 < 10 ^ d.scale := by positivity
  have hNumLog : d.coefficient.log2 < 96 :=
    (Nat.log2_lt hNum.ne').mpr (hCoefficient.trans_le (by decide))
  have hDenLog : (10 ^ d.scale).log2 < 94 := by
    refine (Nat.log2_lt hDen.ne').mpr ?_
    calc
      10 ^ d.scale ≤ 10 ^ maxScale := Nat.pow_le_pow_right (by decide) hScale
      _ < 2 ^ 94 := by decide
  have hRough :
      -146 ≤ Binary64.roughPower d.coefficient (10 ^ d.scale)
        ∧ Binary64.roughPower d.coefficient (10 ^ d.scale) ≤ 42 := by
    unfold Binary64.roughPower
    omega
  have hLow :
      Binary64.minPower
        ≤ Binary64.roughPower d.coefficient (10 ^ d.scale) := by
    unfold Binary64.minPower
    omega
  have hHigh :
      Binary64.roughPower d.coefficient (10 ^ d.scale) + 2
        ≤ Binary64.maxPower := by
    unfold Binary64.maxPower
    omega
  rcases Binary64.round_covers hNum hDen hLow hHigh d.negative with
    ⟨m, p, hRound, hFull, hCovers⟩
  refine ⟨m, p, ?_, hFull, hSome, hFew, ?_⟩
  · unfold toBinary Binary64.ofScaled
    rw [if_neg (by omega), ← hRound]
    congr 2
    omega
  · have hValue :
        (d.coefficient : ℚ) / (10 ^ d.scale : Nat)
          = c * 10 ^ ((k : Int) - d.scale) := by
      rw [hDigits, zpow_sub₀ (by norm_num), zpow_natCast, zpow_natCast]
      push_cast
      ring
    rwa [hValue] at hCovers

/-
  Through the nearest binary number a short decimal comes back
  without the zeros at its end.
-/
theorem ofBinary?_toBinary
    {d : Decimal}
    {c k : Nat}
    (hFits : d.Fits)
    (hPlaces : d.scale ≠ 0)
    (hSome : 0 < c)
    (hFew : c < 1000000000000000)
    (hLast : c % 10 ≠ 0)
    (hDigits : d.coefficient = c * 10 ^ k) :
    ofBinary? d.toBinary
      = some
          (make d.negative (c * 10 ^ (k - d.scale)) (d.scale - k)) := by
  rcases stands_of_few hFits hPlaces hSome hFew hDigits with
    ⟨m, p, hBinary, hStands⟩
  have hUp : ((k : Int) - d.scale).toNat = k - d.scale := by omega
  have hDown : (-((k : Int) - d.scale)).toNat = d.scale - k := by omega
  have hLess : c * 10 ^ (k - d.scale) ≤ d.coefficient := by
    rw [hDigits]
    exact
      Nat.mul_le_mul_left c
        (Nat.pow_le_pow_right (by decide) (Nat.sub_le k d.scale))
  have hAgain :
      Fits
        { negative := d.negative
          coefficient := c * 10 ^ ((k : Int) - d.scale).toNat
          scale := (-((k : Int) - d.scale)).toNat } := by
    rw [hUp, hDown]
    exact
      ⟨hLess.trans_lt hFits.1, (Nat.sub_le d.scale k).trans hFits.2⟩
  rw [hBinary, ofBinary?_of_stands hStands hLast hAgain, hUp, hDown]

end Decimal

end TradeTape
