import TradeTape.Number.Binary64
import TradeTape.Text.Digits

/-
  Reading binary numbers from text: an optional sign, then
  digits with at most one point among them and an optional
  exponent, or a word for infinity or for no number.

  Key definitions include:
    * `Binary64.read?`
    * `Binary64.encoding?`
-/

namespace TradeTape

namespace Binary64

------------------------------------------------------------
-- Magnitudes
------------------------------------------------------------

/-
  The number nearest to `n * 10 ^ exponent`, for exponents
  of any size: what has too many or too few digits for the
  format is infinite or zero.
-/
def ofScaledAny
    (n : Nat)
    (exponent : Int) : Binary64 :=
  let digits := (Digits.ofNat n).length
  if n = 0 then zero false
  else if 400 < exponent + digits then .infinite false
  else if exponent + digits < -400 then zero false
  else ofScaled false n exponent

/- An exponent: its mark, an optional sign and digits. -/
def exponent? : List Char → Option Int
  | [] => some 0
  | c :: rest => if c = 'e' ∨ c = 'E' then Digits.int? rest else none

/- A magnitude in digits, with at least one before the exponent. -/
def magnitude? (cs : List Char) : Option Binary64 :=
  let isDigit := fun c => decide (Digits.IsDigit c)
  let whole := cs.takeWhile isDigit
  let rest := cs.dropWhile isDigit
  let (places, rest) :=
    match rest with
    | '.' :: tail => (tail.takeWhile isDigit, tail.dropWhile isDigit)
    | _ => ([], rest)
  let digits := whole ++ places
  if digits = [] then
    none
  else
    (exponent? rest).map fun e =>
      ofScaledAny (Digits.toNat digits) (e - places.length)

/- The words that stand for numbers without digits. -/
def word? (cs : List Char) : Option Binary64 :=
  match String.ofList (cs.map Char.toLower) with
  | "nan" => some .nan
  | "inf" => some (.infinite false)
  | "infinity" => some (.infinite false)
  | _ => none

/- A number without its sign. -/
def unsigned? (cs : List Char) : Option Binary64 :=
  match word? cs with
  | some x => some x
  | none => magnitude? cs

------------------------------------------------------------
-- Numbers
------------------------------------------------------------

/- The number that a text denotes. -/
def read? : List Char → Option Binary64
  | '-' :: cs => (unsigned? cs).map neg
  | '+' :: cs => unsigned? cs
  | cs => unsigned? cs

/-
  The encoding of the number that a text denotes.  A minus
  sign also shows in the encoding of what is no number.
-/
def encoding? (cs : List Char) : Option Nat :=
  (read? cs).map fun x =>
    if x = .nan ∧ cs.head? = some '-' then
      Nat.pow 2 63 + x.toBits
    else x.toBits

end Binary64

end TradeTape
