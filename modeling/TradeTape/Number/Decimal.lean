import TradeTape.Number.Shortest

/-
  Exact decimals: a coefficient of 96 bits and a scale of at
  most 28 places.

  A decimal keeps the scale it was written with, so `1.10`
  and `1.1` are two values that are equal as numbers.

  Key definitions include:
    * `Decimal`
    * `Decimal.read?`
    * `Decimal.text`
    * `Decimal.SameValue`
    * `Decimal.ofBinary?`
-/

namespace TradeTape

/- The number `coefficient / 10 ^ scale` with a sign. -/
structure Decimal where
  negative : Bool
  coefficient : Nat
  scale : Nat
deriving DecidableEq, Repr

namespace Decimal

------------------------------------------------------------
-- Values
------------------------------------------------------------

/- One past the greatest coefficient. -/
def coefficientLimit : Nat := 79228162514264337593543950336

/- The greatest scale. -/
def maxScale : Nat := 28

/- A decimal, whose zero carries no sign. -/
def make
    (negative : Bool)
    (coefficient scale : Nat) : Decimal :=
  { negative := negative && coefficient != 0
    coefficient := coefficient
    scale := scale }

/- An integer as a decimal without places. -/
def ofInt (n : Int) : Decimal :=
  make (n < 0) n.natAbs 0

/- A signed coefficient at a scale. -/
def ofScaled
    (n : Int)
    (scale : Nat) : Decimal :=
  make (n < 0) n.natAbs scale

/- The signed coefficient. -/
def signed (d : Decimal) : Int :=
  if d.negative then -(d.coefficient : Int) else d.coefficient

/- Equality of the numbers that two decimals denote. -/
def SameValue (d e : Decimal) : Prop :=
  d.signed * Int.pow 10 e.scale
    = e.signed * Int.pow 10 d.scale

instance (d e : Decimal) : Decidable (SameValue d e) := by
  unfold SameValue
  infer_instance

------------------------------------------------------------
-- Writing
------------------------------------------------------------

/- The text of a decimal, with as many places as its scale. -/
def chars (d : Decimal) : List Char :=
  let digits := Digits.ofNat d.coefficient
  let filled :=
    List.replicate (d.scale + 1 - digits.length) '0' ++ digits
  let whole := filled.take (filled.length - d.scale)
  let places := filled.drop (filled.length - d.scale)
  (if d.negative then ['-'] else []) ++ whole
    ++ (if places = [] then [] else '.' :: places)

/- The text of a decimal. -/
def text (d : Decimal) : String :=
  String.ofList d.chars

------------------------------------------------------------
-- Reading digits
------------------------------------------------------------

/- Where a reader stands inside a decimal. -/
structure Cursor where
  negative : Bool
  coefficient : Nat
  scale : Nat
  point : Bool
  digits : Bool
deriving Repr

/-
  Takes one unit of the last place into the digits read so
  far, one place shorter when the coefficient overflows.
-/
def roundUp (cur : Cursor) : Option Decimal :=
  if cur.coefficient + 1 < coefficientLimit then
    some (make cur.negative (cur.coefficient + 1) cur.scale)
  else if cur.scale = 0 then
    none
  else
    some (make cur.negative ((cur.coefficient + 5) / 10)
      (cur.scale - 1))

/-
  Rounds the digits read so far by those that find no room:
  up when the first of them is five or more.  Underscores
  count for nothing, and nothing else may follow.
-/
def roundOff
    (cur : Cursor)
    (cs : List Char) : Option Decimal :=
  let left := cs.filter fun c => c ≠ '_'
  if left.all fun c => decide (Digits.IsDigit c) then
    match left with
    | c :: _ =>
        if Digits.value c < 5 then
          some (make cur.negative cur.coefficient cur.scale)
        else
          roundUp cur
    | [] => some (make cur.negative cur.coefficient cur.scale)
  else
    none

/- Reads the characters after the sign. -/
def scan (cur : Cursor) : List Char → Option Decimal
  | [] =>
      if cur.digits then
        some (make cur.negative cur.coefficient cur.scale)
      else
        none
  | c :: rest =>
      if maxScale ≤ cur.scale then
        roundOff cur (c :: rest)
      else if Digits.IsDigit c then
        let next := cur.coefficient * 10 + Digits.value c
        if next < coefficientLimit then
          scan
            { cur with
              coefficient := next
              scale := if cur.point then cur.scale + 1 else 0
              digits := true }
            rest
        else if cur.point then
          roundOff cur (c :: rest)
        else
          none
      else if c = '.' ∧ ¬cur.point then
        scan { cur with point := true } rest
      else if c = '_' ∧ cur.digits then
        scan cur rest
      else
        none

/-
  Reads a positional decimal: an optional sign, digits with
  at most one point, and underscores after the first digit.
-/
def readPositional? (cs : List Char) : Option Decimal :=
  let start : Cursor :=
    { negative := false
      coefficient := 0
      scale := 0
      point := false
      digits := false }
  match cs with
  | [] => none
  | '-' :: rest => scan { start with negative := true } rest
  | '+' :: rest => scan start rest
  | _ => scan start cs

------------------------------------------------------------
-- Reading exponents
------------------------------------------------------------

/-
  Moves the point of a decimal to the right: by giving up
  places while there are enough, else by multiplying.
-/
def shiftRight
    (d : Decimal)
    (places : Nat) : Option Decimal :=
  if places ≤ d.scale then
    some { d with scale := d.scale - places }
  else if maxScale < places then
    none
  else
    let coefficient := d.coefficient * Nat.pow 10 (places - d.scale)
    if coefficient < coefficientLimit then
      some { d with coefficient := coefficient, scale := 0 }
    else
      none

/-
  Drops places of a decimal.  The first digit that goes rounds
  the rest, up from five, and a zero that is left keeps its
  sign.
-/
def dropPlaces
    (d : Decimal)
    (places : Nat) : Decimal :=
  { d with
    coefficient :=
      if places = 0 then d.coefficient
      else (d.coefficient / Nat.pow 10 (places - 1) + 5) / 10
    scale := d.scale - places }

/-
  Moves the point of a decimal to the left, by as many places
  as there are at most.  Digits that go past the last place
  are rounded off.
-/
def shiftLeft
    (d : Decimal)
    (places : Nat) : Option Decimal :=
  if maxScale < places then
    none
  else
    let kept := d.dropPlaces (d.scale + places - maxScale)
    some { kept with scale := kept.scale + places }

/- A number of 32 bits with an optional plus sign. -/
def exponent? (cs : List Char) : Option Nat := do
  let n ← Digits.signedNat? cs
  if n ≤ 4294967295 then some n else none

/- Reads a positional decimal followed by an exponent. -/
def readScientific? (cs : List Char) : Option Decimal := do
  let isMark := fun (c : Char) => c = 'e' ∨ c = 'E'
  let base := cs.takeWhile fun c => ¬isMark c
  let d ← readPositional? base
  match cs.drop base.length with
  | [] => none
  | _ :: '-' :: rest => (exponent? rest).bind d.shiftLeft
  | _ :: rest => (exponent? rest).bind d.shiftRight

/- Reads a decimal, with or without an exponent. -/
def readChars? (cs : List Char) : Option Decimal :=
  match readPositional? cs with
  | some d => some d
  | none => readScientific? cs

/- Reads a decimal, with or without an exponent. -/
def read? (text : String) : Option Decimal :=
  readChars? text.toList

------------------------------------------------------------
-- Conversion
------------------------------------------------------------

/-
  The decimal that the shortest text of a binary number
  denotes, rounded to the places there are.
-/
def ofBinary? (x : Binary64) : Option Decimal :=
  readPositional? x.plainText

end Decimal

end TradeTape
