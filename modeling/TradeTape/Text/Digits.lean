/-
  Decimal digits: reading and writing natural numbers and
  integers as lists of ASCII digits.

  Key definitions include:
    * `Digits.ofNat`
    * `Digits.padded`
    * `Digits.toNat`
    * `Digits.nat?`
    * `Digits.int?`
-/

namespace TradeTape

namespace Digits

------------------------------------------------------------
-- Single digits
------------------------------------------------------------

/- The ASCII digits. -/
def IsDigit (c : Char) : Prop :=
  '0' ≤ c ∧ c ≤ '9'

instance (c : Char) : Decidable (IsDigit c) := by
  unfold IsDigit
  infer_instance

/- The value of an ASCII digit. -/
def value (c : Char) : Nat :=
  c.toNat - 48

/- The ASCII digit of a value below ten. -/
def digit (n : Nat) : Char :=
  Char.ofNat (48 + n % 10)

------------------------------------------------------------
-- Writing
------------------------------------------------------------

/-
  The digits of a number put before a list.  The first
  argument bounds the number of digits still to write.
-/
def pushNat
    (fuel n : Nat)
    (rest : List Char) : List Char :=
  match fuel with
  | 0 => rest
  | fuel + 1 =>
      if n < 10 then
        digit n :: rest
      else
        pushNat fuel (n / 10) (digit n :: rest)

/- The decimal digits of a number, without leading zeros. -/
def ofNat (n : Nat) : List Char :=
  pushNat (n.log2 + 1) n []

/- The decimal text of an integer. -/
def ofInt (n : Int) : List Char :=
  if n < 0 then '-' :: ofNat n.natAbs else ofNat n.natAbs

/- The digits of a number, filled with zeros to a width. -/
def padded
    (width n : Nat) : List Char :=
  let digits := ofNat n
  List.replicate (width - digits.length) '0' ++ digits

------------------------------------------------------------
-- Reading
------------------------------------------------------------

/- The number that a list of digits denotes. -/
def toNat (digits : List Char) : Nat :=
  digits.foldl (fun n c => n * 10 + value c) 0

/- The number denoted by digits alone; no text, no number. -/
def nat? (cs : List Char) : Option Nat :=
  if cs ≠ [] ∧ cs.all fun c => IsDigit c then
    some (toNat cs)
  else
    none

/- An optional plus sign and then digits alone. -/
def signedNat? : List Char → Option Nat
  | '+' :: cs => nat? cs
  | cs => nat? cs

/- An optional sign and then digits alone. -/
def int? : List Char → Option Int
  | '-' :: cs => (nat? cs).map fun n => -(n : Int)
  | cs => (signedNat? cs).map Int.ofNat

end Digits

end TradeTape
