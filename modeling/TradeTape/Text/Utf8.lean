/-
  Texts from bytes that may be no text.

  The longest start of a character that is cut short, or else
  a single byte, is shown by one replacement character.

  Key definitions include:
    * `Utf8.takeChar`
    * `Utf8.lossy`
-/

namespace TradeTape

namespace Utf8

/- The character that stands for what is no text. -/
def replacement : Char := '\uFFFD'

/- The bytes that continue a character. -/
def isTail (b : UInt8) : Bool :=
  128 ≤ b && b ≤ 191

/-
  The number of bytes after a first byte, and the range of
  the second one.
-/
def shape? (b : UInt8) : Option (Nat × UInt8 × UInt8) :=
  if 194 ≤ b ∧ b ≤ 223 then some (1, 128, 191)
  else if b = 224 then some (2, 160, 191)
  else if b = 237 then some (2, 128, 159)
  else if 225 ≤ b ∧ b ≤ 239 then some (2, 128, 191)
  else if b = 240 then some (3, 144, 191)
  else if 241 ≤ b ∧ b ≤ 243 then some (3, 128, 191)
  else if b = 244 then some (3, 128, 143)
  else none

/- The bits of a first byte that has a number of bytes after. -/
def leadBits (tails : Nat) (b : UInt8) : Nat :=
  b.toNat % Nat.pow 2 (6 - tails)

/-
  The tail of a character as far as it goes, the bits read so
  far and the number of bytes that are missing.
-/
def takeTails :
    Nat → Nat → List UInt8 → Nat × Nat × List UInt8
  | 0, bits, bs => (bits, 0, bs)
  | n + 1, bits, [] => (bits, n + 1, [])
  | n + 1, bits, b :: rest =>
      if isTail b then
        takeTails n (bits * 64 + b.toNat % 64) rest
      else
        (bits, n + 1, b :: rest)

/- The first character of bytes, and the bytes after it. -/
def takeChar
    (b : UInt8)
    (rest : List UInt8) : Char × List UInt8 :=
  if b < 128 then
    (Char.ofNat b.toNat, rest)
  else
    match shape? b, rest with
    | some (tails, low, high), c :: after =>
        if low ≤ c ∧ c ≤ high then
          match takeTails (tails - 1)
              (leadBits tails b * 64 + c.toNat % 64) after with
          | (bits, 0, after) => (Char.ofNat bits, after)
          | (_, _, after) => (replacement, after)
        else
          (replacement, c :: after)
    | _, _ => (replacement, rest)

/- At most a number of the characters of bytes. -/
def takeChars : Nat → List UInt8 → List Char
  | 0, _ => []
  | _ + 1, [] => []
  | n + 1, b :: rest =>
      let (c, rest) := takeChar b rest
      c :: takeChars n rest

/- The characters of bytes. -/
def lossy (bs : List UInt8) : List Char :=
  takeChars bs.length bs

end Utf8

end TradeTape
