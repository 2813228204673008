import TradeTape.Number.Shortest
import TradeTape.Number.Word
import TradeTape.Time.Span

/-
  Delays that grow by a constant factor up to a maximum.

  Spans are counted in nanoseconds.  The factor is a binary
  number, and the next delay is the product rounded to one
  and cut to an integer.  A drawn number of milliseconds is
  added to each delay, so that those who were turned away
  together do not come back together.

  Key definitions include:
    * `Backoff`
    * `Backoff.make?`
    * `Backoff.grown`
    * `Backoff.next`
    * `Backoff.reset`
-/

namespace TradeTape

/- A growing delay and its bounds. -/
structure Backoff where
  initial : Nat
  maximum : Nat
  base : Nat
  factor : Binary64
  jitterMs : Nat
  immediateFirst : Bool
deriving DecidableEq, Repr

namespace Backoff

------------------------------------------------------------
-- Parameters
------------------------------------------------------------

/- What is wrong with the parameters of a backoff. -/
inductive Problem where
  | factor (x : Binary64)
  | zeroDelay
  | exceeds (initial maximum : Nat)
deriving DecidableEq, Repr

/- What a person reads about a problem. -/
def Problem.message : Problem → String
  | .factor x =>
      "backoff factor must be in [1.0, 100], was "
        ++ String.ofList x.plainText
  | .zeroDelay => "initial backoff delay must be positive"
  | .exceeds i m =>
      s!"initial backoff delay {Span.text i} exceeds"
        ++ s!" maximum delay {Span.text m}"

/- The factors by which a delay may grow. -/
def FactorOk (x : Binary64) : Prop :=
  x.isFinite = true ∧ Binary64.one.le x = true
    ∧ x.le (Binary64.ofNat 100) = true

instance (x : Binary64) : Decidable (FactorOk x) := by
  unfold FactorOk
  infer_instance

/- A backoff before its first delay. -/
def make?
    (initial maximum : Nat)
    (factor : Binary64)
    (jitterMs : Nat)
    (immediateFirst : Bool) : Except Problem Backoff :=
  if ¬FactorOk factor then .error (.factor factor)
  else if initial = 0 then .error .zeroDelay
  else if maximum < initial then .error (.exceeds initial maximum)
  else
    .ok
      { initial := initial
        maximum := maximum
        base := initial
        factor := factor
        jitterMs := jitterMs
        immediateFirst := immediateFirst }

------------------------------------------------------------
-- Delays
------------------------------------------------------------

/- The greatest integer that a product is cut to. -/
def productLimit : Nat := Nat.pow 2 128 - 1

/- The base delay after the present one. -/
def grown (b : Backoff) : Nat :=
  let product := (Binary64.ofNat b.base).mul b.factor
  min (min (product.truncate productLimit) b.maximum)
    Word.uint64Max

/-
  The next delay and the backoff after it, for a drawn number
  of milliseconds.  An immediate first delay is used up once
  and leaves the base as it is.
-/
def next
    (b : Backoff)
    (drawnMs : Nat) : Nat × Backoff :=
  if b.immediateFirst then
    (0, { b with immediateFirst := false })
  else
    (b.base + Span.ofMs (min drawnMs b.jitterMs),
      { b with base := b.grown })

/- The backoff with its initial delay. -/
def reset (b : Backoff) : Backoff :=
  { b with base := b.initial }

end Backoff

end TradeTape
