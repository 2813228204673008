import TradeTape.Proofs.Number.Products
import TradeTape.Proofs.Retry.Delays

/-
  How the base of a delay grows.

  A factor of at least one does not make the base shrink, but
  for two kinds of initial delays: one for which there is no
  room in 64 bits, and, if the factor is one, one that is above
  the binary number nearest to it.  Either shrinks when it
  grows for the first time, and what comes of it does not
  shrink again.

  Key statements include:
    * `Backoff.Shrinks`
    * `Backoff.Sound.grown_lt_iff`
    * `Backoff.Sound.not_shrinks_grown`
    * `Backoff.drawn_growing`
-/

namespace TradeTape

namespace Backoff

open Binary64 (RoundsTo)

------------------------------------------------------------
-- Factors
------------------------------------------------------------

/- A factor is positive and not too great. -/
theorem FactorOk.exists_eq
    {x : Binary64}
    (hFactor : FactorOk x) :
    ∃ n q, x = .finite false n q ∧ 1 ≤ x.value ∧ x.value ≤ 200 := by
  rcases hFactor with ⟨hFinite, hOne, hMost⟩
  have hHundred : RoundsTo (100 : Nat) (Binary64.ofNat 100) :=
    Binary64.ofNat_roundsTo (by decide) (by norm_num)
  rw [Binary64.le_iff_value_le rfl hFinite, Binary64.value_one] at hOne
  rw [Binary64.le_iff_value_le hFinite rfl] at hMost
  have hLimit := hMost.trans hHundred.value_le
  cases x with
  | infinite s => cases hFinite
  | nan => cases hFinite
  | finite s n q =>
      cases s with
      | true =>
          have hUnit' := Binary64.two_zpow_pos q
          have hNegative : (Binary64.finite true n q).value ≤ 0 := by
            simp only [Binary64.value]
            exact neg_nonpos.mpr (by positivity)
          linarith
      | false => exact ⟨n, q, rfl, hOne, hLimit.trans (by norm_num)⟩

------------------------------------------------------------
-- One step
------------------------------------------------------------

/- A delay of 64 bits is never cut off. -/
theorem le_productLimit
    {ns : Nat}
    (hRoom : ns ≤ Word.uint64Max) :
    ns ≤ productLimit :=
  hRoom.trans (by decide)

/- The delay that is the binary number nearest to a delay. -/
def nearest (ns : Nat) : Nat :=
  (Binary64.ofNat ns).truncate productLimit

/-
  The delays that are greater than what they grow to: there is
  no room for them in 64 bits, or they are not multiplied and
  their binary number is less.
-/
def Shrinks
    (factor : Binary64)
    (ns : Nat) : Prop :=
  Word.uint64Max < ns
    ∨ factor.le Binary64.one = true ∧ nearest ns < ns

instance (factor : Binary64) (ns : Nat) :
    Decidable (Shrinks factor ns) := by
  unfold Shrinks
  infer_instance

/- A backoff with a right factor and a base within its bounds. -/
structure Sound (b : Backoff) : Prop where
  factorOk : FactorOk b.factor
  factorFits : b.factor.Fits
  base_pos : 0 < b.base
  base_le : b.base ≤ b.maximum
  base_lt : b.base < Span.limit

namespace Sound

variable {b : Backoff}

theorem base_rounds
    (h : Sound b) :
    RoundsTo b.base (Binary64.ofNat b.base) := by
  refine Binary64.ofNat_roundsTo h.base_pos (h.base_lt.trans ?_)
  norm_num [Span.limit, Span.ofSecs, Word.uint64Max]

theorem one_le_value
    (h : Sound b) :
    1 ≤ (Binary64.ofNat b.base).value :=
  h.base_rounds.one_le_value (by exact_mod_cast h.base_pos)

theorem one_le_factor
    (h : Sound b) :
    1 ≤ b.factor.value := by
  rcases h.factorOk.exists_eq with ⟨n, q, -, hOne, -⟩
  exact hOne

theorem product_rounds
    (h : Sound b) :
    RoundsTo ((Binary64.ofNat b.base).value * b.factor.value)
      b.product := by
  rcases h.factorOk.exists_eq with ⟨n, q, hFactor, hOne, hMost⟩
  have hBase := h.one_le_value
  have hBase' := h.base_rounds.value_le
  have hLimit : (b.base : ℚ) < 18446744073709551616000000000 := by
    have hRoom := h.base_lt
    unfold Span.limit Span.ofSecs Word.uint64Max at hRoom
    exact_mod_cast hRoom
  unfold product
  rw [hFactor] at hOne hMost ⊢
  have hRounds := h.base_rounds
  generalize Binary64.ofNat b.base = y at *
  cases hRounds with
  | finite full low covers =>
      refine Binary64.mul_roundsTo ?_ ?_
      · nlinarith
      · calc
          _ ≤ (2 * (b.base : ℚ)) * 200 :=
            mul_le_mul hBase' hMost (by linarith) (by positivity)
          _ < 2 ^ 200 := by
            norm_num
            linarith

/- The binary number of a base is not less than the base. -/
theorem le_nearest_iff
    (h : Sound b)
    (hRoom : b.base ≤ Word.uint64Max) :
    b.base ≤ nearest b.base
      ↔ (b.base : ℚ) ≤ (Binary64.ofNat b.base).value :=
  h.base_rounds.le_truncate_iff (le_productLimit hRoom)

theorem grown_eq (b : Backoff) :
    b.grown
      = min (min (b.product.truncate productLimit) b.maximum)
          Word.uint64Max :=
  rfl

theorem le_grown_iff
    (h : Sound b) :
    b.base ≤ b.grown
      ↔ b.base ≤ Word.uint64Max ∧ (b.base : ℚ) ≤ b.product.value := by
  rw [grown_eq, Nat.le_min, Nat.le_min, and_iff_left h.base_le, and_comm]
  exact
    and_congr_right fun hRoom =>
      h.product_rounds.le_truncate_iff (le_productLimit hRoom)

/- A factor above one makes up for the rounding of the base. -/
theorem le_product_of_more
    (h : Sound b)
    (hMore : ¬b.factor.le Binary64.one = true) :
    (b.base : ℚ) ≤ b.product.value := by
  rcases h.factorOk.exists_eq with ⟨n, q, hFactor, -, -⟩
  have hFits := h.factorFits
  have hProduct := h.product_rounds
  rw [hFactor] at hMore hFits hProduct
  rw [Binary64.le_iff_value_le rfl rfl, Binary64.value_one, not_le] at hMore
  exact h.base_rounds.le_product (hFits.one_lt_value hMore) hProduct

/- The factor one leaves the binary number of the base as it is. -/
theorem product_value_of_one
    (h : Sound b)
    (hOne : b.factor.le Binary64.one = true) :
    b.product.value = (Binary64.ofNat b.base).value := by
  rcases h.factorOk.exists_eq with ⟨n, q, hFactor, hLeast, -⟩
  have hProduct := h.product_rounds
  rw [hFactor] at hOne hLeast hProduct
  rw [Binary64.le_iff_value_le rfl rfl, Binary64.value_one] at hOne
  rw [le_antisymm hOne hLeast, mul_one] at hProduct
  exact h.base_rounds.value_eq hProduct

/- A base shrinks if it is one of the delays that do. -/
theorem grown_lt_iff
    (h : Sound b) :
    b.grown < b.base ↔ Shrinks b.factor b.base := by
  rw [← not_le, h.le_grown_iff]
  unfold Shrinks
  by_cases hRoom : b.base ≤ Word.uint64Max
  · have hRoom' : ¬Word.uint64Max < b.base := Nat.not_lt.mpr hRoom
    simp only [hRoom, true_and, hRoom', false_or]
    by_cases hOne : b.factor.le Binary64.one = true
    · rw [h.product_value_of_one hOne, ← h.le_nearest_iff hRoom, not_le]
      simp only [hOne, true_and]
    · simp only [h.le_product_of_more hOne, hOne, not_true_eq_false]
      simp
  · simp [hRoom, Nat.not_le.mp hRoom]

theorem truncate_product_of_one
    (h : Sound b)
    (hOne : b.factor.le Binary64.one = true) :
    b.product.truncate productLimit = nearest b.base :=
  h.product_rounds.truncate_eq h.base_rounds (h.product_value_of_one hOne)
    productLimit

/- What is beyond 64 bits stays beyond them when it is rounded. -/
theorem uint64Max_le_truncate
    (h : Sound b)
    (hMore : Word.uint64Max < b.base) :
    Word.uint64Max ≤ nearest b.base
      ∧ Word.uint64Max ≤ b.product.truncate productLimit := by
  have hFactor := h.one_le_factor
  have hBase : ((1 : Nat) : ℚ) * 2 ^ (64 : Int) ≤ b.base := by
    norm_num
    exact_mod_cast hMore
  have hValue := h.base_rounds.le_value (by decide) hBase
  have hProduct :=
    h.product_rounds.le_value (c := 1) (e := 64) (by decide)
      (by nlinarith)
  have hLimit :
      (Word.uint64Max : ℚ) ≤ ((1 : Nat) : ℚ) * 2 ^ (64 : Int) := by
    norm_num [Word.uint64Max]
  constructor
  · exact
      (h.base_rounds.le_truncate_iff (by decide)).mpr (hLimit.trans hValue)
  · exact
      (h.product_rounds.le_truncate_iff (by decide)).mpr
        (hLimit.trans hProduct)

/- A base that shrinks falls to its binary number, or to 64 bits. -/
theorem grown_of_shrinks
    (h : Sound b)
    (hShrinks : Shrinks b.factor b.base) :
    b.grown = min (nearest b.base) Word.uint64Max := by
  have hWithin := h.base_le
  rw [grown_eq]
  rcases hShrinks with hMore | ⟨hOne, hLess⟩
  · have hReached := h.uint64Max_le_truncate hMore
    omega
  · rw [h.truncate_product_of_one hOne]
    omega

/- The backoff whose base has grown. -/
theorem grown
    (h : Sound b) :
    Sound { b with base := b.grown } := by
  have hSome : 1 ≤ b.product.truncate productLimit := by
    rw [h.product_rounds.le_truncate_iff (by decide)]
    exact_mod_cast
      h.product_rounds.one_le_value
        (one_le_mul_of_one_le_of_one_le h.one_le_value h.one_le_factor)
  have hMaximum := h.base_pos.trans_le h.base_le
  have hGrown := grown_eq b
  refine
    { factorOk := h.factorOk
      factorFits := h.factorFits
      base_pos := ?_
      base_le := ?_
      base_lt := ?_ }
  · change 0 < b.grown
    unfold Word.uint64Max at hGrown
    omega
  · change b.grown ≤ b.maximum
    omega
  · change b.grown < Span.limit
    unfold Span.limit Span.ofSecs
    omega

/- What a base has grown to does not shrink. -/
theorem not_shrinks_grown
    (h : Sound b) :
    ¬Shrinks b.factor b.grown := by
  have hGrown := grown_eq b
  have hRoom : b.grown ≤ Word.uint64Max := by omega
  rintro (hMore | ⟨hOne, hLess⟩)
  · omega
  · refine Nat.not_le.mpr hLess ?_
    rw [h.truncate_product_of_one hOne] at hGrown
    have hNext := h.grown.base_rounds
    have hIff := h.grown.le_nearest_iff hRoom
    change b.grown ≤ nearest b.grown ↔ _ at hIff
    rw [hIff]
    have hCases :
        b.grown = nearest b.base
          ∨ b.grown = b.maximum ∧ b.maximum ≤ nearest b.base
          ∨ b.grown = Word.uint64Max := by
      omega
    rcases hCases with hNearest | ⟨hMaximum, hReached⟩ | hLimit
    · have hPart : nearest b.base < productLimit := by
        rw [← hNearest]
        exact hRoom.trans_lt (by decide)
      rw [hNearest] at hNext ⊢
      exact h.base_rounds.truncate_le_value hNext hPart
    · have hValue : (b.grown : ℚ) ≤ (Binary64.ofNat b.base).value := by
        rw [← h.base_rounds.le_truncate_iff (le_productLimit hRoom)]
        exact hMaximum.trans_le hReached
      rcases h.base_le.eq_or_lt with hSame | hLess'
      · rw [hSame, ← hMaximum] at hValue
        exact hValue
      · have hOrder : (b.base : ℚ) < b.grown := by
          rw [hMaximum]
          exact_mod_cast hLess'
        exact hValue.trans (h.base_rounds.value_mono hNext hOrder)
    · rw [hLimit] at hIff ⊢
      exact hIff.mp (by decide)

end Sound

------------------------------------------------------------
-- All delays
------------------------------------------------------------

/- The backoff after some delays and what was drawn for them. -/
def drawn
    (b : Backoff)
    (draws : List Nat) : Backoff :=
  draws.foldl (fun b drawnMs => (b.next drawnMs).2) b

@[simp] theorem drawn_nil (b : Backoff) : b.drawn [] = b :=
  rfl

@[simp] theorem drawn_cons
    (b : Backoff)
    (drawnMs : Nat)
    (draws : List Nat) :
    b.drawn (drawnMs :: draws) = (b.next drawnMs).2.drawn draws :=
  rfl

theorem next_snd_of_later
    {b : Backoff}
    (hLater : b.immediateFirst = false)
    (drawnMs : Nat) :
    (b.next drawnMs).2 = { b with base := b.grown } := by
  rw [next_eq_nextTo, nextTo_of_delayed hLater]
  rfl

/- A backoff whose base does not shrink any more. -/
structure Steady (b : Backoff) : Prop where
  sound : Sound b
  later : b.immediateFirst = false
  stays : ¬Shrinks b.factor b.base

/- A base that has grown once is steady. -/
theorem Sound.steady_next
    {b : Backoff}
    (h : Sound b)
    (hLater : b.immediateFirst = false)
    (drawnMs : Nat) :
    Steady (b.next drawnMs).2 := by
  rw [next_snd_of_later hLater]
  exact
    { sound := h.grown
      later := hLater
      stays := h.not_shrinks_grown }

theorem Steady.drawn
    {b : Backoff}
    (h : Steady b)
    (draws : List Nat) :
    Steady (b.drawn draws) := by
  induction draws generalizing b with
  | nil => exact h
  | cons drawnMs draws ih => exact ih (h.sound.steady_next h.later drawnMs)

theorem Sound.base_next_lt_iff
    {b : Backoff}
    (h : Sound b)
    (hLater : b.immediateFirst = false)
    (drawnMs : Nat) :
    (b.next drawnMs).2.base < b.base ↔ Shrinks b.factor b.base := by
  rw [next_snd_of_later hLater]
  exact h.grown_lt_iff

/- Only the first delay that is one can make the base shrink. -/
theorem Sound.drawn_lt_iff
    {b : Backoff}
    (h : Sound b)
    (hLater : b.immediateFirst = false)
    (draws : List Nat)
    (drawnMs : Nat) :
    ((b.drawn draws).next drawnMs).2.base < (b.drawn draws).base
      ↔ draws = [] ∧ Shrinks b.factor b.base := by
  cases draws with
  | nil =>
      simp only [true_and]
      exact h.base_next_lt_iff hLater drawnMs
  | cons first draws =>
      have hSteady := (h.steady_next hLater first).drawn draws
      rw [drawn_cons, hSteady.sound.base_next_lt_iff hSteady.later]
      simp [hSteady.stays]

/- Whole milliseconds up to eighteen years are binary numbers. -/
def exactMs : Nat := 576460752303

theorem not_shrinks_ofMs
    {ms : Nat}
    (hShort : ms ≤ exactMs)
    (factor : Binary64) :
    ¬Shrinks factor (Span.ofMs ms) := by
  have hRoom : Span.ofMs ms ≤ Word.uint64Max := by
    unfold Span.ofMs Word.uint64Max
    unfold exactMs at hShort
    omega
  rintro (hMore | ⟨-, hLess⟩)
  · omega
  · have hRounds :
        RoundsTo (Span.ofMs ms : Nat) (Binary64.ofNat (Span.ofMs ms)) :=
      Binary64.ofNat_roundsTo (Nat.zero_lt_of_lt hLess)
        (hRoom.trans_lt (by norm_num [Word.uint64Max]))
    refine Nat.not_le.mpr hLess ?_
    refine (hRounds.le_truncate_iff (le_productLimit hRoom)).mpr ?_
    -- A millisecond is an odd number of units of 64 nanoseconds.
    have hUnits :
        ((ms * 15625 : Nat) : ℚ) * 2 ^ (6 : Int) = (Span.ofMs ms : Nat) := by
      unfold Span.ofMs
      push_cast
      ring
    rw [← hUnits]
    refine hRounds.le_value ?_ hUnits.le
    unfold exactMs at hShort
    unfold Binary64.significandLimit
    omega

/-
  How a base grows by one more delay.  It shrinks by the first
  delay that is not immediate, if the initial one is such; it
  then falls to the nearest binary number, or to 64 bits.
-/
structure Growing
    (initial : Nat)
    (factor : Binary64)
    (immediateFirst : Bool)
    (draws : List Nat)
    (b b' : Backoff) : Prop where
  shrinks_iff :
    b'.base < b.base
      ↔ draws.length = (if immediateFirst then 1 else 0)
        ∧ Shrinks factor initial
  fallen :
    b'.base < b.base →
      b.base = initial
        ∧ b'.base = min (nearest initial) Word.uint64Max
  short :
    ∀ ms ≤ exactMs, initial = Span.ofMs ms → b.base ≤ b'.base

/- The first delay of such a backoff is not immediate. -/
theorem Sound.growing
    {b : Backoff}
    (h : Sound b)
    (hLater : b.immediateFirst = false)
    (draws : List Nat)
    (drawnMs : Nat) :
    Growing b.base b.factor false draws (b.drawn draws)
      ((b.drawn draws).next drawnMs).2 := by
  have hIff := h.drawn_lt_iff hLater draws drawnMs
  refine
    { shrinks_iff := ?_
      fallen := fun hLess => ?_
      short := fun ms hShort hMs => ?_ }
  · rw [hIff, if_neg Bool.false_ne_true, List.length_eq_zero_iff]
  · rcases hIff.mp hLess with ⟨rfl, hShrinks⟩
    rw [drawn_nil, next_snd_of_later hLater]
    exact ⟨rfl, h.grown_of_shrinks hShrinks⟩
  · refine Nat.not_lt.mp fun hLess => not_shrinks_ofMs hShort b.factor ?_
    rw [← hMs]
    exact (hIff.mp hLess).2

/-
  The base of a backoff never shrinks, but for initial delays
  that shrink once.
-/
theorem drawn_growing
    {initial maximum jitterMs : Nat}
    {factor : Binary64}
    {immediateFirst : Bool}
    {start : Backoff}
    (hMake :
      make? initial maximum factor jitterMs immediateFirst = .ok start)
    (hFits : factor.Fits)
    (hRoom : initial < Span.limit)
    (draws : List Nat)
    (drawnMs : Nat) :
    Growing initial factor immediateFirst draws (start.drawn draws)
      ((start.drawn draws).next drawnMs).2 := by
  rcases of_make?_eq_ok hMake with ⟨hFactor, hSome, hOrder, rfl⟩
  let later : Backoff :=
    { initial := initial
      maximum := maximum
      base := initial
      factor := factor
      jitterMs := jitterMs
      immediateFirst := false }
  have hSound : Sound later := ⟨hFactor, hFits, hSome, hOrder, hRoom⟩
  have hGrowing (draws : List Nat) :
      Growing initial factor false draws (later.drawn draws)
        ((later.drawn draws).next drawnMs).2 :=
    hSound.growing rfl draws drawnMs
  cases immediateFirst with
  | false => exact hGrowing draws
  | true =>
      -- The immediate delay leaves the base as it is.
      cases draws with
      | nil =>
          exact
            { shrinks_iff :=
                ⟨fun hLess => absurd hLess (lt_irrefl initial),
                  fun hFirst => absurd hFirst.1 (by decide)⟩
              fallen := fun hLess => absurd hLess (lt_irrefl initial)
              short := fun _ _ _ => le_refl initial }
      | cons first draws =>
          have hRest := hGrowing draws
          exact
            { shrinks_iff := by
                rw [List.length_cons, if_pos rfl, Nat.add_eq_right]
                exact hRest.shrinks_iff
              fallen := hRest.fallen
              short := hRest.short }

/- An initial delay for which there is no room in 64 bits. -/
def vastBackoff : Backoff :=
  { initial := Span.ofMs 20000000000000
    maximum := Span.ofMs 20000000000000
    base := Span.ofMs 20000000000000
    factor := Binary64.ofNat 2
    jitterMs := 0
    immediateFirst := false }

/- An initial delay that lies between two binary numbers. -/
def oddBackoff : Backoff :=
  { initial := Span.ofMs 576460752305
    maximum := Span.ofMs 900000000000
    base := Span.ofMs 576460752305
    factor := Binary64.one
    jitterMs := 50
    immediateFirst := true }

theorem make?_vastBackoff :
    make? (Span.ofMs 20000000000000) (Span.ofMs 20000000000000)
        (Binary64.ofNat 2) 0 false
      = .ok vastBackoff :=
  rfl

theorem make?_oddBackoff :
    make? (Span.ofMs 576460752305) (Span.ofMs 900000000000)
        Binary64.one 50 true
      = .ok oddBackoff :=
  rfl

/- The one falls at once, the other after its immediate delay. -/
theorem drawn_growing_of_long :
    Growing (Span.ofMs 20000000000000) (Binary64.ofNat 2) false []
        vastBackoff (vastBackoff.next 0).2
      ∧ (vastBackoff.next 0).2.base < vastBackoff.base
      ∧ Growing (Span.ofMs 576460752305) Binary64.one true [9]
        (oddBackoff.drawn [9]) ((oddBackoff.drawn [9]).next 7).2
      ∧ ((oddBackoff.drawn [9]).next 7).2.base + 64
        = (oddBackoff.drawn [9]).base := by
  have hVast :=
    drawn_growing make?_vastBackoff (by decide) (by decide) [] 0
  have hOdd := drawn_growing make?_oddBackoff (by decide) (by decide) [9] 7
  exact ⟨hVast, by decide, hOdd, by decide⟩

/-
  A delay for which there is no room in 64 bits grows to less
  than itself.
-/
theorem exists_delay_shrunk :
    make? (Span.ofMs 20000000000000) (Span.ofMs 20000000000000)
          (Binary64.ofNat 2) 0 false
        = .ok vastBackoff
      ∧ (vastBackoff.next 0).2.base = Word.uint64Max
      ∧ (vastBackoff.next 0).2.base < vastBackoff.base :=
  ⟨make?_vastBackoff, by decide⟩

end Backoff

end TradeTape
