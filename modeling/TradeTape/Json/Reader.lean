import TradeTape.Json.Doc

/-
  Reading JSON text.

  The reader works on bytes and refuses what is not JSON.
  It bounds its recursion by the number of bytes, since each
  part of a document takes at least one of them.

  Key definitions include:
    * `Json.parse?`
    * `Json.parseText?`
-/

namespace TradeTape

namespace Json

------------------------------------------------------------
-- Bytes
------------------------------------------------------------

/- The bytes of a text. -/
abbrev Bytes := List UInt8

/- The byte of an ASCII character. -/
def byte (c : Char) : UInt8 :=
  c.toNat.toUInt8

/- The bytes between the parts of a document. -/
def IsBlank (b : UInt8) : Prop :=
  b = 32 ∨ b = 9 ∨ b = 10 ∨ b = 13

instance (b : UInt8) : Decidable (IsBlank b) := by
  unfold IsBlank
  infer_instance

/- Drops the blanks in front. -/
def skipBlank : Bytes → Bytes
  | [] => []
  | b :: rest => if IsBlank b then skipBlank rest else b :: rest

/- Whether a byte is a decimal digit. -/
def isDigit (b : UInt8) : Bool :=
  48 ≤ b && b ≤ 57

/- Drops an expected word. -/
def takeWord : List Char → Bytes → Option Bytes
  | [], rest => some rest
  | _ :: _, [] => none
  | c :: cs, b :: rest =>
      if b = byte c then takeWord cs rest else none

------------------------------------------------------------
-- Numbers
------------------------------------------------------------

/- The digits in front, and the rest. -/
def takeDigits : Bytes → List Char × Bytes
  | [] => ([], [])
  | b :: rest =>
      if isDigit b then
        let (ds, after) := takeDigits rest
        (Char.ofNat b.toNat :: ds, after)
      else
        ([], b :: rest)

/- The places after a point, at least one of them. -/
def takePlaces : Bytes → Option (Option (List Char) × Bytes)
  | 46 :: rest =>
      match takeDigits rest with
      | ([], _) => none
      | (ds, after) => some (some ds, after)
  | rest => some (none, rest)

/- An exponent after its mark and sign. -/
def takeExponentDigits
    (negative : Bool)
    (bs : Bytes) : Option (Option Exponent × Bytes) :=
  match takeDigits bs with
  | ([], _) => none
  | (ds, after) =>
      some (some { negative := negative, digits := ds }, after)

/- The exponent of a number, if there is one. -/
def takeExponent (bs : Bytes) :
    Option (Option Exponent × Bytes) :=
  match bs with
  | b :: rest =>
      if b = byte 'e' ∨ b = byte 'E' then
        match rest with
        | 43 :: after => takeExponentDigits false after
        | 45 :: after => takeExponentDigits true after
        | after => takeExponentDigits false after
      else
        some (none, bs)
  | [] => some (none, [])

/- A number without its sign.  Only zero starts with zero. -/
def takeMagnitude
    (negative : Bool)
    (bs : Bytes) : Option (Doc × Bytes) := do
  let (whole, rest) := takeDigits bs
  let _ ←
    match whole with
    | [] => none
    | '0' :: _ :: _ => none
    | _ => some ()
  let (places, rest) ← takePlaces rest
  let (exponent, rest) ← takeExponent rest
  some
    (.number
      { negative := negative
        whole := whole
        places := places
        exponent := exponent },
      rest)

/- A number. -/
def takeNumber : Bytes → Option (Doc × Bytes)
  | 45 :: rest => takeMagnitude true rest
  | bs => takeMagnitude false bs

------------------------------------------------------------
-- Strings
------------------------------------------------------------

/- The value of a hexadecimal digit. -/
def hexValue? (b : UInt8) : Option Nat :=
  if isDigit b then some (b.toNat - 48)
  else if 97 ≤ b ∧ b ≤ 102 then some (b.toNat - 87)
  else if 65 ≤ b ∧ b ≤ 70 then some (b.toNat - 55)
  else none

/- The number written with four hexadecimal digits. -/
def takeHex4 : Bytes → Option (Nat × Bytes)
  | a :: b :: c :: d :: rest => do
      let a ← hexValue? a
      let b ← hexValue? b
      let c ← hexValue? c
      let d ← hexValue? d
      some (((a * 16 + b) * 16 + c) * 16 + d, rest)
  | _ => none

/- A piece of a string: bytes, or an escaped code unit. -/
inductive Piece where
  | raw (b : UInt8)
  | unit (n : Nat)
deriving Repr

/- The byte that a short escape stands for. -/
def shortEscape? (b : UInt8) : Option UInt8 :=
  if b = byte '"' ∨ b = byte '\\' ∨ b = byte '/' then some b
  else if b = byte 'b' then some 8
  else if b = byte 'f' then some 12
  else if b = byte 'n' then some 10
  else if b = byte 'r' then some 13
  else if b = byte 't' then some 9
  else none

/-
  The pieces of a string up to its closing quote.  Bytes
  below 32 have to be escaped.
-/
def takePieces
    (fuel : Nat)
    (bs : Bytes) : Option (List Piece × Bytes) :=
  match fuel, bs with
  | 0, _ => none
  | _, [] => none
  | fuel + 1, b :: rest =>
      if b = byte '"' then
        some ([], rest)
      else if b = byte '\\' then
        match rest with
        | [] => none
        | e :: rest =>
            if e = byte 'u' then do
              let (n, rest) ← takeHex4 rest
              let (ps, rest) ← takePieces fuel rest
              some (.unit n :: ps, rest)
            else do
              let c ← shortEscape? e
              let (ps, rest) ← takePieces fuel rest
              some (.raw c :: ps, rest)
      else if b < 32 then
        none
      else do
        let (ps, rest) ← takePieces fuel rest
        some (.raw b :: ps, rest)

/- The bytes of a character of a code point. -/
def charBytes (n : Nat) : Bytes :=
  (String.singleton (Char.ofNat n)).toUTF8.toList

/-
  The bytes of a string.  Escaped units of the surrogate
  range count only as a pair, high before low.
-/
def pieceBytes? : List Piece → Option Bytes
  | [] => some []
  | .raw b :: rest => (pieceBytes? rest).map (b :: ·)
  | .unit n :: rest =>
      if n < 0xD800 ∨ 0xE000 ≤ n then
        (pieceBytes? rest).map (charBytes n ++ ·)
      else
        match rest with
        | .unit m :: rest =>
            if n < 0xDC00 ∧ 0xDC00 ≤ m ∧ m < 0xE000 then
              let point :=
                (n - 0xD800) * 0x400 + (m - 0xDC00) + 0x10000
              (pieceBytes? rest).map (charBytes point ++ ·)
            else
              none
        | _ => none

/- The text of a string, if its pieces make one. -/
def pieceText? (ps : List Piece) : Option String := do
  let bytes ← pieceBytes? ps
  String.fromUTF8? (ByteArray.mk bytes.toArray)

/- A string after its opening quote. -/
def takeString
    (fuel : Nat)
    (bs : Bytes) : Option (Option String × Bytes) := do
  let (ps, rest) ← takePieces fuel bs
  some (pieceText? ps, rest)

------------------------------------------------------------
-- Documents
------------------------------------------------------------

mutual

/- A document, with the blanks around it. -/
def takeDoc
    (fuel : Nat)
    (bs : Bytes) : Option (Doc × Bytes) :=
  match fuel with
  | 0 => none
  | fuel + 1 =>
      match skipBlank bs with
      | [] => none
      | b :: rest =>
          if b = byte '"' then do
            let (s, rest) ← takeString fuel rest
            some (.string s, skipBlank rest)
          else if b = byte '[' then
            match skipBlank rest with
            | 93 :: rest => some (.array [], skipBlank rest)
            | rest => do
                let (ds, rest) ← takeItems fuel rest
                some (.array ds, skipBlank rest)
          else if b = 123 then
            match skipBlank rest with
            | 125 :: rest => some (.object [], skipBlank rest)
            | rest => do
                let (ms, rest) ← takeMembers fuel rest
                some (.object ms, skipBlank rest)
          else if b = byte 'n' then do
            let rest ← takeWord ['u', 'l', 'l'] rest
            some (.null, skipBlank rest)
          else if b = byte 't' then do
            let rest ← takeWord ['r', 'u', 'e'] rest
            some (.bool true, skipBlank rest)
          else if b = byte 'f' then do
            let rest ← takeWord ['a', 'l', 's', 'e'] rest
            some (.bool false, skipBlank rest)
          else do
            let (d, rest) ← takeNumber (b :: rest)
            some (d, skipBlank rest)

/- The items of an array, at least one, to its end. -/
def takeItems
    (fuel : Nat)
    (bs : Bytes) : Option (List Doc × Bytes) :=
  match fuel with
  | 0 => none
  | fuel + 1 => do
      let (d, rest) ← takeDoc fuel bs
      match rest with
      | 93 :: rest => some ([d], rest)
      | 44 :: rest => do
          let (ds, rest) ← takeItems fuel rest
          some (d :: ds, rest)
      | _ => none

/- The members of an object, at least one, to its end. -/
def takeMembers
    (fuel : Nat)
    (bs : Bytes) :
    Option (List (Option String × Doc) × Bytes) :=
  match fuel with
  | 0 => none
  | fuel + 1 =>
      match skipBlank bs with
      | 34 :: rest => do
          let (key, rest) ← takeString fuel rest
          match skipBlank rest with
          | 58 :: rest => do
              let (d, rest) ← takeDoc fuel rest
              match rest with
              | 125 :: rest => some ([(key, d)], rest)
              | 44 :: rest => do
                  let (ms, rest) ← takeMembers fuel rest
                  some ((key, d) :: ms, rest)
              | _ => none
          | _ => none
      | _ => none

end

/- The document that bytes denote as a whole. -/
def parse? (bs : Bytes) : Option Doc :=
  match takeDoc (2 * bs.length + 2) bs with
  | some (d, []) => some d
  | _ => none

/- The document that a text denotes as a whole. -/
def parseText? (s : String) : Option Doc :=
  parse? s.toUTF8.toList

end Json

end TradeTape
