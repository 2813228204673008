/-
  Binary floating-point numbers of 64 bits.

  A finite number is a significand below 2^53 times a power
  of two that is at least 2^-1074.  Every operation computes
  the exact result as a fraction of natural numbers and
  rounds it once, to the nearest number and to the even
  significand on a tie.

  Key definitions include:
    * `Binary64`
    * `Binary64.round`
    * `Binary64.mul`
    * `Binary64.div`
    * `Binary64.ofNat`
    * `Binary64.toBits`
    * `Binary64.truncate`
-/

namespace TradeTape

/-
  A number of the format.  The magnitude of a finite number
  is `significand * 2 ^ power`; zero keeps its sign.
-/
inductive Binary64 where
  | finite (negative : Bool) (significand : Nat) (power : Int)
  | infinite (negative : Bool)
  | nan
deriving DecidableEq, Repr

namespace Binary64

------------------------------------------------------------
-- Rounding
------------------------------------------------------------

/- The least power of two of the format. -/
def minPower : Int := -1074

/- The greatest power of two of the format. -/
def maxPower : Int := 971

/- One past the greatest significand. -/
def significandLimit : Nat := 9007199254740992

/- The zero of a sign. -/
def zero (negative : Bool) : Binary64 :=
  .finite negative 0 minPower

/- The number one. -/
def one : Binary64 :=
  .finite false 4503599627370496 (-52)

/-
  The quotient of two natural numbers, rounded to the
  nearest integer and to the even one on a tie.
-/
def divNearest (num den : Nat) : Nat :=
  let q := num / den
  let twice := 2 * (num % den)
  if twice < den then q
  else if den < twice then q + 1
  else if q % 2 = 0 then q
  else q + 1

/- The fraction divided by a power of two, as a fraction. -/
def unscale
    (num den : Nat)
    (power : Int) : Nat × Nat :=
  if 0 ≤ power then
    (num, den * Nat.pow 2 power.toNat)
  else
    (num * Nat.pow 2 (-power).toNat, den)

/-
  The power of two with which the significand of a positive
  fraction has 53 bits, or the least power of the format.
-/
def powerOf (num den : Nat) : Int :=
  let low : Int := (num.log2 : Int) - den.log2 - 53
  let (n, d) := unscale num den low
  let exact := if n / d < significandLimit then low else low + 1
  max exact minPower

/- The number of the format nearest to a fraction. -/
def round
    (negative : Bool)
    (num den : Nat) : Binary64 :=
  if num = 0 then
    zero negative
  else
    let power := powerOf num den
    let (n, d) := unscale num den power
    let m := divNearest n d
    let (m, power) :=
      if m = significandLimit then (m / 2, power + 1)
      else (m, power)
    if maxPower < power then .infinite negative
    else .finite negative m power

------------------------------------------------------------
-- Operations
------------------------------------------------------------

/- The number nearest to a natural number. -/
def ofNat (n : Nat) : Binary64 :=
  round false n 1

/- The number nearest to an integer. -/
def ofInt (n : Int) : Binary64 :=
  round (n < 0) n.natAbs 1

/- The number nearest to `n * 10 ^ exponent`. -/
def ofScaled
    (negative : Bool)
    (n : Nat)
    (exponent : Int) : Binary64 :=
  if 0 ≤ exponent then
    round negative (n * Nat.pow 10 exponent.toNat) 1
  else
    round negative n (Nat.pow 10 (-exponent).toNat)

/- The magnitude of a finite number as a fraction. -/
def fraction
    (significand : Nat)
    (power : Int) : Nat × Nat :=
  if 0 ≤ power then
    (significand * Nat.pow 2 power.toNat, 1)
  else
    (significand, Nat.pow 2 (-power).toNat)

/- The rounded product of two numbers. -/
def mul : Binary64 → Binary64 → Binary64
  | .finite s m p, .finite t n q =>
      let (a, b) := fraction m p
      let (c, d) := fraction n q
      round (s != t) (a * c) (b * d)
  | .finite s m _, .infinite t =>
      if m = 0 then .nan else .infinite (s != t)
  | .infinite s, .finite t n _ =>
      if n = 0 then .nan else .infinite (s != t)
  | .infinite s, .infinite t => .infinite (s != t)
  | .nan, _ => .nan
  | _, .nan => .nan

/- The rounded quotient of a number by a positive one. -/
def div : Binary64 → Binary64 → Binary64
  | .finite s m p, .finite t n q =>
      if n = 0 then
        if m = 0 then .nan else .infinite (s != t)
      else
        let (a, b) := fraction m p
        let (c, d) := fraction n q
        round (s != t) (a * d) (b * c)
  | .finite s _ _, .infinite t => zero (s != t)
  | .infinite s, .finite t _ _ => .infinite (s != t)
  | .infinite _, .infinite _ => .nan
  | .nan, _ => .nan
  | _, .nan => .nan

/- The number with the other sign. -/
def neg : Binary64 → Binary64
  | .finite s m p => .finite (!s) m p
  | .infinite s => .infinite (!s)
  | .nan => .nan

/-
  The order of numbers.  Nothing is below or above the
  undefined number, and both zeros are equal.
-/
def le : Binary64 → Binary64 → Bool
  | .nan, _ => false
  | _, .nan => false
  | .infinite true, _ => true
  | _, .infinite false => true
  | .infinite false, _ => false
  | _, .infinite true => false
  | .finite s m p, .finite t n q =>
      let (a, b) := fraction m p
      let (c, d) := fraction n q
      let x : Int := if s then -(a * d : Nat) else (a * d : Nat)
      let y : Int := if t then -(c * b : Nat) else (c * b : Nat)
      decide (x ≤ y)

/- Whether the number is neither infinite nor undefined. -/
def isFinite : Binary64 → Bool
  | .finite .. => true
  | _ => false

/- Whether the number is a zero. -/
def isZero : Binary64 → Bool
  | .finite _ m _ => m == 0
  | _ => false

/-
  The integer part of a number within `0 ... limit`: negative
  numbers and the undefined one give zero.
-/
def truncate
    (limit : Nat) : Binary64 → Nat
  | .finite true _ _ => 0
  | .finite false m p =>
      let (a, b) := fraction m p
      min (a / b) limit
  | .infinite true => 0
  | .infinite false => limit
  | .nan => 0

------------------------------------------------------------
-- Encoding
------------------------------------------------------------

/- The word of 64 bits that encodes a number. -/
def toBits : Binary64 → Nat
  | .finite s m p =>
      let sign := if s then Nat.pow 2 63 else 0
      if m < Nat.pow 2 52 then sign + m
      else sign + (p + 1075).toNat * Nat.pow 2 52
        + (m - Nat.pow 2 52)
  | .infinite s =>
      (if s then Nat.pow 2 63 else 0) + 2047 * Nat.pow 2 52
  | .nan => 2047 * Nat.pow 2 52 + Nat.pow 2 51

/- A hexadecimal digit in lowercase. -/
def hexDigit (n : Nat) : Char :=
  if n < 10 then Char.ofNat (48 + n) else Char.ofNat (87 + n)

/- An encoding as 16 hexadecimal digits. -/
def hex (bits : Nat) : String :=
  String.ofList
    ((List.range 16).map fun i =>
      hexDigit (bits / Nat.pow 16 (15 - i) % 16))

end Binary64

end TradeTape
