/-
  Blanks around a text.

  A blank is a character with the property White_Space of
  Unicode.

  Key definitions include:
    * `Blank.isBlank`
    * `Blank.trim`
-/

namespace TradeTape

namespace Blank

/- The characters with the property White_Space. -/
def codes : List Nat :=
  [0x9, 0xa, 0xb, 0xc, 0xd, 0x20, 0x85, 0xa0, 0x1680, 0x2000,
    0x2001, 0x2002, 0x2003, 0x2004, 0x2005, 0x2006, 0x2007,
    0x2008, 0x2009, 0x200a, 0x2028, 0x2029, 0x202f, 0x205f,
    0x3000]

/- Whether a character is a blank. -/
def isBlank (c : Char) : Bool :=
  codes.contains c.toNat

/- The characters after the blanks at the start. -/
def trimStart (cs : List Char) : List Char :=
  cs.dropWhile isBlank

/- A text without the blanks at its start and its end. -/
def trim (cs : List Char) : List Char :=
  (trimStart (trimStart cs).reverse).reverse

end Blank

end TradeTape
