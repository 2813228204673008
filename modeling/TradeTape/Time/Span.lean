import TradeTape.Text.Digits

/-
  Spans of time in nanoseconds, and how they are written: in
  the greatest unit of which they have one, with the digits
  after the point that they need.

  Key definitions include:
    * `Span.ofMs`
    * `Span.ceilMs`
    * `Span.text`
-/

namespace TradeTape

namespace Span

/- The nanoseconds of a number of milliseconds. -/
def ofMs (ms : Nat) : Nat :=
  ms * 1000000

/- The nanoseconds of a number of seconds. -/
def ofSecs (secs : Nat) : Nat :=
  secs * 1000000000

/- The first whole millisecond at the end of a span or after. -/
def ceilMs (ns : Nat) : Nat :=
  (ns + 999999) / 1000000

/- The digits after the point, without zeros at their end. -/
def places
    (width fraction : Nat) : List Char :=
  let digits :=
    ((Digits.padded width fraction).reverse.dropWhile
      (· == '0')).reverse
  if digits.isEmpty then [] else '.' :: digits

/- A span in a unit of `10 ^ width` nanoseconds. -/
def inUnit
    (width : Nat)
    (unit : String)
    (ns : Nat) : String :=
  String.ofList
    (Digits.ofNat (ns / Nat.pow 10 width)
      ++ places width (ns % Nat.pow 10 width)
      ++ unit.toList)

/- The text of a span. -/
def text (ns : Nat) : String :=
  if 1000000000 ≤ ns then inUnit 9 "s" ns
  else if 1000000 ≤ ns then inUnit 6 "ms" ns
  else if 1000 ≤ ns then inUnit 3 "µs" ns
  else inUnit 0 "ns" ns

end Span

end TradeTape
