import TradeTape.Number.Binary64
import TradeTape.Text.Digits

/-
  The shortest decimal that reads back as a given number.

  The reals that round to a finite number form an interval
  around it, which includes its ends when the significand is
  even.  The shortest decimal is the point nearest to the
  number on the coarsest decimal grid that meets the
  interval.

  Key definitions include:
    * `Shortest.Decimal`
    * `Shortest.ofFinite`
    * `Shortest.positional`
-/

namespace TradeTape

namespace Shortest

------------------------------------------------------------
-- The interval of a number
------------------------------------------------------------

/-
  The interval that rounds to a number, as three numerators
  over one denominator.
-/
structure Interval where
  low : Nat
  value : Nat
  high : Nat
  den : Nat
  closed : Bool
deriving Repr

/-
  The interval of `significand * 2 ^ power`.  The gap below
  is half as wide at a power of two.
-/
def intervalOf
    (significand : Nat)
    (power : Int) : Interval :=
  let narrow :=
    significand = 4503599627370496 ∧ Binary64.minPower < power
  let (unit, den) := Binary64.fraction 1 power
  { low := (4 * significand - (if narrow then 1 else 2)) * unit
    value := 4 * significand * unit
    high := (4 * significand + 2) * unit
    den := 4 * den
    closed := significand % 2 == 0 }

/- Whether the interval contains `num / den`. -/
def Interval.contains
    (i : Interval)
    (num den : Nat) : Bool :=
  let x := num * i.den
  if i.closed then
    decide (i.low * den ≤ x ∧ x ≤ i.high * den)
  else
    decide (i.low * den < x ∧ x < i.high * den)

------------------------------------------------------------
-- Grids
------------------------------------------------------------

/- A decimal `digits * 10 ^ exponent`. -/
structure Decimal where
  digits : Nat
  exponent : Int
deriving DecidableEq, Repr

/- The power of ten as a fraction. -/
def tenPower (exponent : Int) : Nat × Nat :=
  if 0 ≤ exponent then (Nat.pow 10 exponent.toNat, 1)
  else (1, Nat.pow 10 (-exponent).toNat)

/-
  Which of two points of a grid stands for a value halfway
  between them: the greater, or the even one.
-/
inductive Tie where
  | up
  | toEven
deriving DecidableEq, Repr

/- The integer nearest to a fraction. -/
def nearest
    (tie : Tie)
    (num den : Nat) : Nat :=
  match tie with
  | .up => (2 * num + den) / (2 * den)
  | .toEven => Binary64.divNearest num den

/-
  The point of the grid `10 ^ exponent` that lies in the
  interval; of two, the nearer one.
-/
def hit
    (tie : Tie)
    (i : Interval)
    (exponent : Int) : Option Nat :=
  let (up, down) := tenPower exponent
  let num := i.value * down
  let den := i.den * up
  let below := num / den
  let inside := fun k => i.contains (k * up) down
  match inside below, inside (below + 1) with
  | true, true => some (nearest tie num den)
  | true, false => some below
  | false, true => some (below + 1)
  | false, false => none

/- The number of the digits of the integer part, or so. -/
def magnitude (i : Interval) : Int :=
  if i.den ≤ i.value then
    (Digits.ofNat (i.value / i.den)).length
  else
    -((Digits.ofNat (i.den / i.value)).length : Int)

/-
  The first hit on a list of grids, from the coarsest to the
  finest.
-/
def firstHit
    (tie : Tie)
    (i : Interval) : List Int → Decimal
  | [] => { digits := 0, exponent := 0 }
  | e :: rest =>
      match hit tie i e with
      | some n =>
          if n = 0 then firstHit tie i rest
          else { digits := n, exponent := e }
      | none => firstHit tie i rest

/- Drops trailing zeros from the digits. -/
def strip
    (fuel : Nat)
    (d : Decimal) : Decimal :=
  match fuel with
  | 0 => d
  | fuel + 1 =>
      if d.digits ≠ 0 ∧ d.digits % 10 = 0 then
        strip fuel
          { digits := d.digits / 10, exponent := d.exponent + 1 }
      else
        d

/-
  The shortest decimal of the positive number
  `significand * 2 ^ power`.
-/
def ofFinite
    (tie : Tie)
    (significand : Nat)
    (power : Int) : Decimal :=
  let i := intervalOf significand power
  let top := magnitude i + 1
  let grids := (List.range 22).map fun (k : Nat) => top - (k : Int)
  strip 20 (firstHit tie i grids)

------------------------------------------------------------
-- Positional text
------------------------------------------------------------

/-
  The decimal written without an exponent, and without a
  point when it is an integer.
-/
def positional (d : Decimal) : List Char :=
  let digits := Digits.ofNat d.digits
  if 0 ≤ d.exponent then
    digits ++ List.replicate d.exponent.toNat '0'
  else
    let places := (-d.exponent).toNat
    let filled :=
      List.replicate (places + 1 - digits.length) '0' ++ digits
    filled.take (filled.length - places) ++ '.'
      :: filled.drop (filled.length - places)

end Shortest

namespace Binary64

/-
  The text of a magnitude without an exponent.  Of two
  shortest decimals that are equally near it takes the
  greater.
-/
def magnitudeText
    (significand : Nat)
    (power : Int) : List Char :=
  if significand = 0 then ['0']
  else Shortest.positional (Shortest.ofFinite .up significand power)

/-
  The shortest text of a number that never uses an exponent
  and writes integers without a point.
-/
def plainText : Binary64 → List Char
  | .finite s m p =>
      (if s then ['-'] else []) ++ magnitudeText m p
  | .infinite s => if s then "-inf".toList else "inf".toList
  | .nan => "NaN".toList

/-
  The shortest text that keeps a point: `2.0` for two.  An
  exponent, always with its sign, is used from 10^16 up and
  below 10^-5.  Of two shortest decimals that are equally near
  it takes the even one.
-/
def pointText : Binary64 → List Char
  | .finite s m p =>
      let sign := if s then ['-'] else []
      if m = 0 then
        sign ++ ['0', '.', '0']
      else
        let d := Shortest.ofFinite .toEven m p
        let digits := Digits.ofNat d.digits
        let scientific := (digits.length : Int) - 1 + d.exponent
        if scientific < -5 ∨ 16 ≤ scientific then
          let tail :=
            match digits with
            | [] => []
            | [c] => [c]
            | c :: rest => c :: '.' :: rest
          sign ++ tail ++ 'e' :: (if scientific < 0 then '-' else '+')
            :: Digits.ofNat scientific.natAbs
        else if 0 ≤ d.exponent then
          sign ++ Shortest.positional d ++ ['.', '0']
        else
          sign ++ Shortest.positional d
  | x => x.plainText

end Binary64

end TradeTape
