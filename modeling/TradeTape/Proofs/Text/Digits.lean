import Mathlib.Data.Nat.Digits.Defs
import TradeTape.Text.Digits

/-
  Numbers are read as they were written.

  The digits of a number are those of the library, so what is
  known of these holds of them.

  Key statements include:
    * `Digits.ofNat_eq`
    * `Digits.toNat_eq`
    * `Digits.nat?_ofNat`
    * `Digits.int?_ofInt`
-/

namespace TradeTape

namespace Digits

------------------------------------------------------------
-- Single digits
------------------------------------------------------------

theorem isDigit_iff
    {c : Char} :
    IsDigit c ↔ c.isDigit = true := by
  unfold IsDigit Char.isDigit
  simp [Char.le_def]

theorem digit_eq : ∀ n < 10, digit n = n.digitChar := by
  decide

------------------------------------------------------------
-- Natural numbers
------------------------------------------------------------

/- There are fewer decimal digits than binary ones. -/
theorem pushNat_eq
    {fuel n : Nat}
    (hSome : 0 < fuel)
    (hFuel : n < 2 ^ fuel)
    (rest : List Char) :
    pushNat fuel n rest = Nat.toDigits 10 n ++ rest := by
  induction fuel generalizing n rest with
  | zero => omega
  | succ fuel ih =>
      unfold pushNat
      by_cases hLast : n < 10
      · rw [if_pos hLast, Nat.toDigits_of_lt_base hLast,
          digit_eq n hLast]
        rfl
      · have hDigit : digit n = (n % 10).digitChar := by
          rw [← digit_eq _ (Nat.mod_lt n (by decide))]
          unfold digit
          rw [Nat.mod_mod]
        have hLess : n / 10 < 2 ^ fuel := by
          rw [Nat.pow_succ] at hFuel
          omega
        have hMore : 0 < fuel := by
          cases fuel with
          | zero => simp at hLess; omega
          | succ fuel => exact Nat.succ_pos fuel
        have hDigits :=
          Nat.toDigits_of_base_le (b := 10) (n := n) (by decide)
            (by omega)
        rw [if_neg hLast, ih hMore hLess, hDigit, hDigits]
        simp

theorem ofNat_eq (n : Nat) : ofNat n = Nat.toDigits 10 n := by
  unfold ofNat
  rw [pushNat_eq (Nat.succ_pos _) Nat.lt_log2_self, List.append_nil]

theorem toNat_eq (cs : List Char) :
    toNat cs = Nat.ofDigitChars 10 cs 0 := by
  rw [Nat.ofDigitChars_eq_foldl]
  unfold toNat value
  congr 1
  funext n c
  rw [Nat.mul_comm]
  rfl

theorem toNat_ofNat (n : Nat) : toNat (ofNat n) = n := by
  rw [toNat_eq, ofNat_eq, Nat.ofDigitChars_ten_toDigits]

theorem ofNat_ne_nil (n : Nat) : ofNat n ≠ [] := by
  rw [ofNat_eq]
  exact Nat.toDigits_ne_nil

theorem isDigit_of_mem_ofNat
    {n : Nat}
    {c : Char}
    (hMem : c ∈ ofNat n) :
    IsDigit c := by
  rw [ofNat_eq] at hMem
  exact
    isDigit_iff.mpr
      (Nat.isDigit_of_mem_toDigits (by decide) (by decide) hMem)

/- Digits alone denote a number, if there is one of them. -/
theorem nat?_eq_some
    {cs : List Char}
    (hSome : cs ≠ [])
    (hDigits : ∀ c ∈ cs, IsDigit c) :
    nat? cs = some (toNat cs) := by
  have hAll : cs.all (fun c => IsDigit c) = true := by
    simpa using hDigits
  unfold nat?
  rw [if_pos ⟨hSome, hAll⟩]

theorem nat?_ofNat (n : Nat) : nat? (ofNat n) = some n := by
  rw [nat?_eq_some (ofNat_ne_nil n) fun _ => isDigit_of_mem_ofNat,
    toNat_ofNat]

/- The first character of a number is a digit. -/
theorem exists_ofNat_eq_cons (n : Nat) :
    ∃ c cs, ofNat n = c :: cs ∧ IsDigit c := by
  cases hDigits : ofNat n with
  | nil => exact absurd hDigits (ofNat_ne_nil n)
  | cons c cs =>
      have hMem : c ∈ ofNat n := by
        rw [hDigits]
        exact List.mem_cons_self
      exact ⟨c, cs, rfl, isDigit_of_mem_ofNat hMem⟩

/- Digits end where something else follows. -/
theorem span_digits
    {ds : List Char}
    (hDigits : ∀ c ∈ ds, IsDigit c)
    (rest : List Char)
    (hRest : ∀ c ∈ rest.head?, ¬IsDigit c) :
    (ds ++ rest).takeWhile (fun c => decide (IsDigit c)) = ds
      ∧ (ds ++ rest).dropWhile (fun c => decide (IsDigit c)) = rest := by
  have hAll : ∀ c ∈ ds, decide (IsDigit c) = true := fun c hMem =>
    decide_eq_true (hDigits c hMem)
  rw [List.takeWhile_append_of_pos hAll, List.dropWhile_append_of_pos hAll]
  cases rest with
  | nil => simp
  | cons c rest =>
      have hOther := hRest c rfl
      simp [hOther]

------------------------------------------------------------
-- Natural numbers with leading zeros
------------------------------------------------------------

theorem isDigit_of_mem_padded
    {width n : Nat}
    {c : Char}
    (hMem : c ∈ padded width n) :
    IsDigit c := by
  unfold padded at hMem
  rcases List.mem_append.mp hMem with hZero | hDigit
  · rw [(List.mem_replicate.mp hZero).2]
    decide
  · exact isDigit_of_mem_ofNat hDigit

theorem toNat_padded
    (width n : Nat) :
    toNat (padded width n) = n := by
  unfold padded
  rw [toNat_eq, Nat.ofDigitChars_append,
    Nat.ofDigitChars_replicate_zero, Nat.mul_zero, ← toNat_eq,
    toNat_ofNat]

/- A number that has no more digits than the width fills it. -/
theorem length_padded
    {width n : Nat}
    (hWidth : 0 < width)
    (hFits : n < 10 ^ width) :
    (padded width n).length = width := by
  have hLength : (ofNat n).length ≤ width := by
    rw [ofNat_eq]
    exact (Nat.length_toDigits_le_iff (by decide) hWidth).mpr hFits
  unfold padded
  simp only [List.length_append, List.length_replicate]
  omega

------------------------------------------------------------
-- Integers
------------------------------------------------------------

/- Signs are no digits. -/
theorem not_isDigit_minus : ¬IsDigit '-' := by
  decide

theorem not_isDigit_plus : ¬IsDigit '+' := by
  decide

theorem signedNat?_of_isDigit
    {c : Char}
    (hDigit : IsDigit c)
    (cs : List Char) :
    signedNat? (c :: cs) = nat? (c :: cs) := by
  unfold signedNat?
  split
  · rename_i hSign
    rw [(List.cons.inj hSign).1] at hDigit
    exact absurd hDigit not_isDigit_plus
  · rfl

theorem int?_of_isDigit
    {c : Char}
    (hDigit : IsDigit c)
    (cs : List Char) :
    int? (c :: cs) = (nat? (c :: cs)).map Int.ofNat := by
  unfold int?
  split
  · rename_i hSign
    rw [(List.cons.inj hSign).1] at hDigit
    exact absurd hDigit not_isDigit_minus
  · rw [signedNat?_of_isDigit hDigit]

theorem int?_ofNat (n : Nat) : int? (ofNat n) = some (n : Int) := by
  rcases exists_ofNat_eq_cons n with ⟨c, cs, hDigits, hDigit⟩
  rw [hDigits, int?_of_isDigit hDigit, ← hDigits, nat?_ofNat]
  rfl

theorem int?_ofInt (n : Int) : int? (ofInt n) = some n := by
  unfold ofInt
  split
  · have hNegative :
        int? ('-' :: ofNat n.natAbs)
          = some (-(n.natAbs : Int)) := by
      simp [int?, nat?_ofNat]
    rw [hNegative]
    congr 1
    omega
  · rw [int?_ofNat]
    congr 1
    omega

end Digits

end TradeTape
