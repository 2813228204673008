import TradeTape.Json.Reader
import TradeTape.Number.Binary64

/-
  Names and values as the query of an address writes them.

  Letters, digits and `*-._` stand for themselves, a blank is
  written as a plus sign, and every other byte of the UTF-8
  form of a text as a percent sign and two digits.

  Key definitions include:
    * `Form.encode`
    * `Form.decode?`
    * `Form.pairs`
    * `Form.fields?`
-/

namespace TradeTape

namespace Form

------------------------------------------------------------
-- Texts
------------------------------------------------------------

/- The bytes that stand for themselves. -/
def isPlain (b : UInt8) : Bool :=
  let c := Char.ofNat b.toNat
  (('a' ≤ c && c ≤ 'z') || ('A' ≤ c && c ≤ 'Z')
    || ('0' ≤ c && c ≤ '9') || c == '*' || c == '-' || c == '.'
    || c == '_')

/- A hexadecimal digit as a capital. -/
def capitalHex (n : Nat) : Char :=
  (Binary64.hexDigit n).toUpper

/- A byte as it is written. -/
def encodeByte (b : UInt8) : List Char :=
  if isPlain b then [Char.ofNat b.toNat]
  else if b = 32 then ['+']
  else
    ['%', capitalHex (b.toNat / 16), capitalHex (b.toNat % 16)]

/- A text as it is written. -/
def encode (text : String) : List Char :=
  text.toUTF8.toList.flatMap encodeByte

/-
  The bytes that a written text stands for.  A percent sign
  without two digits after it stands for itself.
-/
def decodeBytes : List UInt8 → List UInt8
  | [] => []
  | b :: rest =>
      if b = 43 then
        32 :: decodeBytes rest
      else if b = 37 then
        match rest with
        | h :: l :: after =>
            match Json.hexValue? h, Json.hexValue? l with
            | some x, some y =>
                UInt8.ofNat (x * 16 + y) :: decodeBytes after
            | _, _ => b :: decodeBytes (h :: l :: after)
        | short => b :: decodeBytes short
      else
        b :: decodeBytes rest

/- The text that a written one stands for. -/
def decode? (text : String) : Option String :=
  String.fromUTF8?
    ⟨(decodeBytes text.toUTF8.toList).toArray⟩

------------------------------------------------------------
-- Fields
------------------------------------------------------------

/- Names and values, as a query writes them. -/
def pairs (fields : List (String × String)) : String :=
  String.ofList
    (['&'].intercalate
      (fields.map fun f => encode f.1 ++ '=' :: encode f.2))

/- One name and its value. -/
def field? (text : List Char) : Option (String × String) := do
  let name ← decode? (String.ofList (text.takeWhile (· != '=')))
  let value ←
    decode? (String.ofList ((text.dropWhile (· != '=')).drop 1))
  some (name, value)

/- The parts of a list between its separators. -/
def splitAtChar
    (separator : Char) : List Char → List (List Char)
  | [] => [[]]
  | c :: rest =>
      if c = separator then
        [] :: splitAtChar separator rest
      else
        match splitAtChar separator rest with
        | [] => [[c]]
        | part :: parts => (c :: part) :: parts

/- The names and values that a query holds. -/
def fields? (text : String) : Option (List (String × String)) :=
  ((splitAtChar '&' text.toList).filter
    fun part => !part.isEmpty).mapM field?

end Form

end TradeTape
