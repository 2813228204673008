import TradeTape.Proofs.Retry.Attempts

/-
  The bounds of delays that grow.

  The base delay is cut off at the maximum, so it stays within
  it whatever the product is that it grows to, be it infinite
  or not a number.  A delay lies between the base and the base
  with all of the jitter, except for an immediate first one,
  which is none.  That one is used up for good: a delay after
  a reset is the initial one again.

  Key statements include:
    * `Backoff.nextTo`
    * `Backoff.Kept.called`
    * `Backoff.immediateFirst_called_iff`
    * `Backoff.calls_bounded`
-/

namespace TradeTape

/- There is no room for spans of so many nanoseconds. -/
def Span.limit : Nat := ofSecs (Word.uint64Max + 1)

namespace Backoff

------------------------------------------------------------
-- Calls
------------------------------------------------------------

/- The product that the base delay grows to. -/
def product (b : Backoff) : Binary64 :=
  (Binary64.ofNat b.base).mul b.factor

/- The base delay that comes of a product. -/
def grownTo
    (b : Backoff)
    (product : Binary64) : Nat :=
  min (min (product.truncate productLimit) b.maximum) Word.uint64Max

/-
  The next delay and the backoff after it, if the product is
  what it is said to be.
-/
def nextTo
    (b : Backoff)
    (product : Binary64)
    (drawnMs : Nat) : Nat × Backoff :=
  if b.immediateFirst then
    (0, { b with immediateFirst := false })
  else
    (b.base + Span.ofMs (min drawnMs b.jitterMs),
      { b with base := b.grownTo product })

theorem next_eq_nextTo
    (b : Backoff)
    (drawnMs : Nat) :
    b.next drawnMs = b.nextTo b.product drawnMs :=
  rfl

/- What a backoff is asked for, and what is computed for it. -/
inductive Call where
  | next (product : Binary64) (drawnMs : Nat)
  | reset
deriving DecidableEq, Repr

def call (b : Backoff) : Call → Backoff
  | .next product drawnMs => (b.nextTo product drawnMs).2
  | .reset => b.reset

@[simp] theorem call_next
    (b : Backoff)
    (product : Binary64)
    (drawnMs : Nat) :
    b.call (.next product drawnMs) = (b.nextTo product drawnMs).2 :=
  rfl

@[simp] theorem call_reset (b : Backoff) : b.call .reset = b.reset :=
  rfl

/- The backoff after some calls. -/
def called
    (b : Backoff)
    (calls : List Call) : Backoff :=
  calls.foldl call b

------------------------------------------------------------
-- One call
------------------------------------------------------------

theorem nextTo_of_immediate
    {b : Backoff}
    (hFirst : b.immediateFirst = true)
    (product : Binary64)
    (drawnMs : Nat) :
    b.nextTo product drawnMs = (0, { b with immediateFirst := false }) := by
  unfold nextTo
  rw [if_pos hFirst]

theorem nextTo_of_delayed
    {b : Backoff}
    (hLater : b.immediateFirst = false)
    (product : Binary64)
    (drawnMs : Nat) :
    b.nextTo product drawnMs
      = (b.base + Span.ofMs (min drawnMs b.jitterMs),
          { b with base := b.grownTo product }) := by
  unfold nextTo
  rw [if_neg (Bool.eq_false_iff.mp hLater)]

/- After a delay there is no immediate one. -/
theorem immediateFirst_nextTo
    (b : Backoff)
    (product : Binary64)
    (drawnMs : Nat) :
    (b.nextTo product drawnMs).2.immediateFirst = false := by
  cases hFirst : b.immediateFirst with
  | true => rw [nextTo_of_immediate hFirst]
  | false =>
      rw [nextTo_of_delayed hFirst]
      exact hFirst

theorem grownTo_le
    (b : Backoff)
    (product : Binary64) :
    b.grownTo product ≤ b.maximum :=
  Nat.le_trans (Nat.min_le_left _ _) (Nat.min_le_right _ _)

/-
  A backoff with the parameters that it was made with, and
  with a base delay within the maximum.
-/
structure Kept
    (initial maximum jitterMs : Nat)
    (b : Backoff) : Prop where
  initial_eq : b.initial = initial
  maximum_eq : b.maximum = maximum
  jitterMs_eq : b.jitterMs = jitterMs
  initial_le : initial ≤ maximum
  base_le : b.base ≤ maximum

namespace Kept

variable {initial maximum jitterMs : Nat} {b : Backoff}

/- Every call keeps the parameters and the bound of the base. -/
theorem call
    (h : Kept initial maximum jitterMs b)
    (c : Call) :
    Kept initial maximum jitterMs (b.call c) := by
  cases c with
  | next product drawnMs =>
      rw [call_next]
      cases hFirst : b.immediateFirst with
      | true =>
          rw [nextTo_of_immediate hFirst]
          exact { h with }
      | false =>
          have hGrown := b.grownTo_le product
          rw [h.maximum_eq] at hGrown
          rw [nextTo_of_delayed hFirst]
          exact { h with base_le := hGrown }
  | reset =>
      have hBase := h.initial_le
      rw [← h.initial_eq] at hBase
      exact { h with base_le := hBase }

/- A delay that is one lies within the jitter above the base. -/
theorem delayed
    (h : Kept initial maximum jitterMs b)
    (hLater : b.immediateFirst = false)
    (product : Binary64)
    (drawnMs : Nat) :
    b.base ≤ (b.nextTo product drawnMs).1
      ∧ (b.nextTo product drawnMs).1 ≤ b.base + Span.ofMs jitterMs := by
  rw [nextTo_of_delayed hLater, ← h.jitterMs_eq]
  have hJitter : min drawnMs b.jitterMs ≤ b.jitterMs := Nat.min_le_right _ _
  exact
    ⟨Nat.le_add_right _ _,
      Nat.add_le_add_left (Nat.mul_le_mul_right _ hJitter) _⟩

theorem delay_le
    (h : Kept initial maximum jitterMs b)
    (product : Binary64)
    (drawnMs : Nat) :
    (b.nextTo product drawnMs).1 ≤ maximum + Span.ofMs jitterMs := by
  cases hFirst : b.immediateFirst with
  | true =>
      rw [nextTo_of_immediate hFirst]
      exact Nat.zero_le _
  | false =>
      exact
        Nat.le_trans (h.delayed hFirst product drawnMs).2
          (Nat.add_le_add_right h.base_le _)

/- There is room for the delays of parameters with 64 bits. -/
theorem delay_lt_limit
    (h : Kept initial maximum jitterMs b)
    (hShort : maximum ≤ Span.ofMs Word.uint64Max)
    (hLittle : jitterMs ≤ Word.uint64Max)
    (product : Binary64)
    (drawnMs : Nat) :
    (b.nextTo product drawnMs).1 < Span.limit := by
  refine Nat.lt_of_le_of_lt (h.delay_le product drawnMs) ?_
  unfold Span.ofMs Word.uint64Max at *
  unfold Span.limit Span.ofSecs Word.uint64Max
  omega

end Kept

------------------------------------------------------------
-- All calls
------------------------------------------------------------

theorem Kept.called
    {initial maximum jitterMs : Nat}
    {b : Backoff}
    (h : Kept initial maximum jitterMs b)
    (calls : List Call) :
    Kept initial maximum jitterMs (b.called calls) := by
  induction calls generalizing b with
  | nil => exact h
  | cons c calls ih => exact ih (h.call c)

/- An immediate first delay is used up by the first that is asked for. -/
theorem immediateFirst_called_iff
    (b : Backoff)
    (calls : List Call) :
    (b.called calls).immediateFirst = true
      ↔ b.immediateFirst = true ∧ ∀ c ∈ calls, c = .reset := by
  induction calls generalizing b with
  | nil => simp [called]
  | cons c calls ih =>
      rw [List.forall_mem_cons]
      refine (ih (b.call c)).trans ?_
      cases c with
      | next product drawnMs => simp [immediateFirst_nextTo]
      | reset => simp [reset]

/- What is known of the backoff that a caller gets. -/
theorem of_make?_eq_ok
    {initial maximum jitterMs : Nat}
    {factor : Binary64}
    {immediateFirst : Bool}
    {b : Backoff}
    (hMake : make? initial maximum factor jitterMs immediateFirst = .ok b) :
    FactorOk factor ∧ 0 < initial ∧ initial ≤ maximum
      ∧ b = {
          initial := initial
          maximum := maximum
          base := initial
          factor := factor
          jitterMs := jitterMs
          immediateFirst := immediateFirst } := by
  unfold make? at hMake
  split_ifs at hMake with hFactor hZero hOrder
  cases hMake
  exact ⟨hFactor, Nat.pos_of_ne_zero hZero, Nat.not_lt.mp hOrder, rfl⟩

/-
  The bounds of a backoff after some calls.  The next delay is
  the immediate one only if no delay was asked for before.
-/
structure Bounded
    (initial maximum jitterMs : Nat)
    (immediateFirst : Bool)
    (calls : List Call)
    (b : Backoff) : Prop where
  base_le : b.base ≤ maximum
  immediate :
    immediateFirst = true ∧ (∀ c ∈ calls, c = .reset) →
      ∀ product drawnMs,
        (b.nextTo product drawnMs).1 = 0
          ∧ (b.nextTo product drawnMs).2.base = b.base
  delayed :
    ¬(immediateFirst = true ∧ ∀ c ∈ calls, c = .reset) →
      ∀ product drawnMs,
        b.base ≤ (b.nextTo product drawnMs).1
          ∧ (b.nextTo product drawnMs).1 ≤ b.base + Span.ofMs jitterMs
  delay_le :
    ∀ product drawnMs,
      (b.nextTo product drawnMs).1 ≤ maximum + Span.ofMs jitterMs
  delay_fits :
    maximum ≤ Span.ofMs Word.uint64Max →
    jitterMs ≤ Word.uint64Max →
      ∀ product drawnMs, (b.nextTo product drawnMs).1 < Span.limit
  reset_base : b.reset.base = initial
  reset_delay :
    (∃ c ∈ calls, c ≠ .reset) →
      ∀ product drawnMs,
        0 < initial ∧ initial ≤ (b.reset.nextTo product drawnMs).1
  own : ∀ drawnMs, b.next drawnMs = b.nextTo b.product drawnMs

/-
  A backoff whose parameters are accepted stays within its
  bounds, whatever is drawn and whatever the products are.
-/
theorem calls_bounded
    {initial maximum jitterMs : Nat}
    {factor : Binary64}
    {immediateFirst : Bool}
    {start : Backoff}
    (hMake :
      make? initial maximum factor jitterMs immediateFirst = .ok start)
    (calls : List Call) :
    Bounded initial maximum jitterMs immediateFirst calls
      (start.called calls) := by
  rcases of_make?_eq_ok hMake with ⟨-, hSome, hOrder, hStart⟩
  have hFirst : start.immediateFirst = immediateFirst := by rw [hStart]
  have hKept : Kept initial maximum jitterMs (start.called calls) := by
    refine Kept.called ?_ calls
    rw [hStart]
    exact ⟨rfl, rfl, rfl, hOrder, hOrder⟩
  have hArmed := start.immediateFirst_called_iff calls
  rw [hFirst] at hArmed
  generalize start.called calls = b at *
  refine
    { base_le := hKept.base_le
      immediate := fun hFresh product drawnMs => ?_
      delayed := fun hUsed product drawnMs => ?_
      delay_le := hKept.delay_le
      delay_fits := hKept.delay_lt_limit
      reset_base := hKept.initial_eq
      reset_delay := fun hAsked product drawnMs => ⟨hSome, ?_⟩
      own := b.next_eq_nextTo }
  · rw [nextTo_of_immediate (hArmed.mpr hFresh)]
    exact ⟨rfl, rfl⟩
  · have hLater : b.immediateFirst = false :=
      Bool.eq_false_iff.mpr (mt hArmed.mp hUsed)
    exact hKept.delayed hLater product drawnMs
  · have hLater : b.reset.immediateFirst = false := by
      refine Bool.eq_false_iff.mpr fun hStill => ?_
      rcases hAsked with ⟨c, hMem, hNext⟩
      exact hNext ((hArmed.mp hStill).2 c hMem)
    have hReset := (hKept.call .reset).delayed hLater product drawnMs
    rw [call_reset] at hReset
    rw [← hKept.initial_eq]
    exact hReset.1

/- A backoff that starts with an immediate delay. -/
def hastyBackoff : Backoff :=
  { initial := Span.ofMs 100
    maximum := Span.ofMs 1600
    base := Span.ofMs 100
    factor := Binary64.ofNat 2
    jitterMs := 50
    immediateFirst := true }

/-
  A reset leaves the immediate delay; the product of the next
  call counts for nothing, the one after it is not a number,
  and the last one is too great for the format.
-/
def wildCalls : List Call :=
  [.reset, .next .nan 7, .next .nan 80, .reset, .next (.infinite false) 3]

theorem calls_bounded_of_wild :
    make? (Span.ofMs 100) (Span.ofMs 1600) (Binary64.ofNat 2) 50 true
        = .ok hastyBackoff
      ∧ Bounded (Span.ofMs 100) (Span.ofMs 1600) 50 true wildCalls
        (hastyBackoff.called wildCalls)
      ∧ (hastyBackoff.called [.reset]).immediateFirst = true
      ∧ (hastyBackoff.called (wildCalls.take 3)).base = 0
      ∧ (hastyBackoff.called wildCalls).base = Span.ofMs 1600 := by
  have hMake :
      make? (Span.ofMs 100) (Span.ofMs 1600) (Binary64.ofNat 2) 50 true
        = .ok hastyBackoff :=
    rfl
  exact ⟨hMake, calls_bounded hMake wildCalls, by decide⟩

end Backoff

end TradeTape
