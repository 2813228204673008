import TradeTape.Number.Binary64
import TradeTape.Number.Word
import TradeTape.Text.Digits

/-
  JSON documents as they are written.

  A document keeps its members in order and with their
  repetitions, its numbers as digits, and its strings as the
  text they denote, or as nothing when an escape stands for
  half a character or the bytes are no text.  What is wrong
  with such a part matters only to a reader that looks at it.

  Key definitions include:
    * `Json.Numeral`
    * `Json.Numeral.value?`
    * `Json.Doc`
    * `Json.Doc.depth`
-/

namespace TradeTape

namespace Json

------------------------------------------------------------
-- Numbers
------------------------------------------------------------

/- The exponent part of a number. -/
structure Exponent where
  negative : Bool
  digits : List Char
deriving DecidableEq, Repr

/- A number as it is written. -/
structure Numeral where
  negative : Bool
  whole : List Char
  places : Option (List Char)
  exponent : Option Exponent
deriving DecidableEq, Repr

/- The value of a number: an exact integer or a binary one. -/
inductive Number where
  | integer (n : Int)
  | binary (x : Binary64)
deriving DecidableEq, Repr

/-
  The digits that fit into an unsigned word of 64 bits, and
  how many are left over.
-/
def absorb
    (significand : Nat) : List Char → Nat × Nat
  | [] => (significand, 0)
  | c :: rest =>
      let next := significand * 10 + Digits.value c
      if next ≤ Word.uint64Max then
        absorb next rest
      else
        (significand, rest.length + 1)

/- The powers of ten of the format, as binary numbers. -/
def tenTo (n : Nat) : Binary64 :=
  Binary64.ofScaled false 1 n

/-
  A significand of 64 bits times a power of ten, in two
  rounded steps: the significand first, then one product or
  quotient by a power up to 10^308, repeated for very small
  numbers.  A number beyond the format is refused.
-/
def assemble
    (fuel : Nat)
    (x : Binary64)
    (exponent : Int) : Option Binary64 :=
  if exponent.natAbs ≤ 308 then
    if 0 ≤ exponent then
      let y := x.mul (tenTo exponent.toNat)
      if y.isFinite then some y else none
    else
      some (x.div (tenTo exponent.natAbs))
  else if x.isZero then
    some x
  else if 0 ≤ exponent then
    none
  else
    match fuel with
    | 0 => some (Binary64.zero false)
    | fuel + 1 =>
        assemble fuel (x.div (tenTo 308)) (exponent + 308)

/- The exponent, or nothing when it has more than 32 bits. -/
def Exponent.value? (e : Exponent) : Option Int :=
  let n := Digits.toNat e.digits
  if 2147483647 < n then none
  else some (if e.negative then -(n : Int) else n)

/-
  The value of a number.  An integer that fits a word of 64
  bits is exact; minus zero and all others are binary.
-/
def Numeral.value? (n : Numeral) : Option Number :=
  let (significand, dropped) := absorb 0 n.whole
  let exact := n.places = none ∧ n.exponent = none ∧ dropped = 0
  if exact ∧ ¬n.negative then
    some (.integer significand)
  else if exact ∧ significand ≠ 0
      ∧ significand ≤ 9223372036854775808 then
    some (.integer (-(significand : Int)))
  else
    let places := n.places.getD []
    let (significand, unread) := absorb significand places
    let scale : Int := (dropped : Int) - (places.length - unread : Nat)
    let sign := fun (x : Binary64) =>
      Number.binary (if n.negative then x.neg else x)
    match n.exponent with
    | none =>
        (assemble 4 (Binary64.ofNat significand) scale).map sign
    | some e =>
        match e.value? with
        | some k =>
            (assemble 4 (Binary64.ofNat significand)
              (scale + k)).map sign
        | none =>
            if significand ≠ 0 ∧ ¬e.negative then none
            else some (sign (Binary64.zero false))

------------------------------------------------------------
-- Documents
------------------------------------------------------------

/- A JSON document. -/
inductive Doc where
  | null
  | bool (b : Bool)
  | number (n : Numeral)
  | string (s : Option String)
  | array (items : List Doc)
  | object (members : List (Option String × Doc))
deriving Repr

mutual

/- The number of arrays and objects around the deepest part. -/
def Doc.depth : Doc → Nat
  | .array items => Doc.depthItems items + 1
  | .object members => Doc.depthMembers members + 1
  | _ => 0

/- The greatest depth of a list of documents. -/
def Doc.depthItems : List Doc → Nat
  | [] => 0
  | d :: rest => max d.depth (Doc.depthItems rest)

/- The greatest depth of the members of an object. -/
def Doc.depthMembers : List (Option String × Doc) → Nat
  | [] => 0
  | (_, d) :: rest => max d.depth (Doc.depthMembers rest)

end

end Json

end TradeTape
