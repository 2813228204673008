import TradeTape.Text.Form

/-
  Hosts of addresses: names, and numbers of four or sixteen
  bytes.

  A host that ends with a number is one of four bytes, and has
  to be readable as such; one in brackets has sixteen bytes.

  Key definitions include:
    * `Http.Host`
    * `Http.Host.parse?`
    * `Http.Host.parseOpaque?`
    * `Http.Host.text`
-/

namespace TradeTape

namespace Http

------------------------------------------------------------
-- Escapes
------------------------------------------------------------

/- A byte as a percent sign and two digits. -/
def escapeByte (b : UInt8) : List Char :=
  ['%', Form.capitalHex (b.toNat / 16), Form.capitalHex (b.toNat % 16)]

/-
  A text in which some characters are written byte by byte,
  and with them all beyond ASCII and the controls.
-/
def escape
    (also : List Char)
    (cs : List Char) : List Char :=
  cs.flatMap fun c =>
    if c.toNat < 32 ∨ 126 < c.toNat ∨ c ∈ also then
      c.toString.toUTF8.toList.flatMap escapeByte
    else
      [c]

/- The value of a hexadecimal digit. -/
def hexDigit? (c : Char) : Option Nat :=
  if c.toNat < 128 then Json.hexValue? c.toNat.toUInt8 else none

/- The bytes of a text with escapes. -/
def unescape : List Char → List UInt8
  | [] => []
  | '%' :: h :: l :: rest =>
      match hexDigit? h, hexDigit? l with
      | some x, some y => UInt8.ofNat (x * 16 + y) :: unescape rest
      | _, _ => 37 :: unescape (h :: l :: rest)
  | c :: rest => c.toString.toUTF8.toList ++ unescape rest

------------------------------------------------------------
-- Hosts
------------------------------------------------------------

/- A host: a name, a number, or eight pieces of 16 bits. -/
inductive Host where
  | name (text : List Char)
  | four (value : Nat)
  | sixteen (pieces : List Nat)
deriving DecidableEq, Repr

namespace Host

/- The characters that no host may hold. -/
def forbidden : List Char :=
  ['\x00', '\t', '\n', '\r', ' ', '#', '/', ':', '<', '>', '?', '@',
    '[', '\\', ']', '^', '|']

/- The characters that no name of a web host may hold. -/
def ForbiddenInName (c : Char) : Prop :=
  c.toNat < 32 ∨ c = '\x7f' ∨ c = '%' ∨ c ∈ forbidden

instance (c : Char) : Decidable (ForbiddenInName c) := by
  unfold ForbiddenInName
  infer_instance

------------------------------------------------------------
-- Numbers of four bytes
------------------------------------------------------------

/- The digits of a number of a base between 8 and 16. -/
def digits?
    (base : Nat)
    (cs : List Char) : Option Nat :=
  cs.foldlM
    (fun n c => do
      let d ← hexDigit? c
      if d < base then some (n * base + d) else none)
    0

/- A part of a number: decimal, octal or hexadecimal. -/
def part? : List Char → Option Nat
  | [] => none
  | '0' :: x :: rest =>
      if x = 'x' ∨ x = 'X' then digits? 16 rest
      else digits? 8 (x :: rest)
  | cs => digits? 10 cs

/- The parts between points, without an empty one at the end. -/
def parts (cs : List Char) : List (List Char) :=
  let all := Form.splitAtChar '.' cs
  if 1 < all.length ∧ all.getLast? = some [] then all.dropLast
  else all

/- Whether the last part of a name is a number. -/
def EndsWithNumber (cs : List Char) : Prop :=
  match (parts cs).getLast? with
  | none | some [] => False
  | some last => last.all Char.isDigit ∨ (part? last).isSome

instance (cs : List Char) : Decidable (EndsWithNumber cs) := by
  unfold EndsWithNumber
  split <;> infer_instance

/-
  A number of four bytes.  The last part fills all the bytes
  that those before it leave.
-/
def four? (cs : List Char) : Option Nat := do
  let numbers ← (parts cs).mapM part?
  let last ← numbers.getLast?
  let first := numbers.dropLast
  if first.length ≤ 3 ∧ first.all (· ≤ 255)
      ∧ last < Nat.pow 256 (4 - first.length) then
    some
      (first.foldl (fun n b => n * 256 + b) 0
          * Nat.pow 256 (4 - first.length)
        + last)
  else
    none

------------------------------------------------------------
-- Numbers of sixteen bytes
------------------------------------------------------------

/- A part of at most four hexadecimal digits. -/
def piece? (cs : List Char) : Option Nat :=
  if cs = [] ∨ 4 < cs.length then none else digits? 16 cs

/- Four decimal bytes, as the two pieces they fill. -/
def tailPieces? (cs : List Char) : Option (List Nat) := do
  let bytes ← (Form.splitAtChar '.' cs).mapM fun p =>
    if p = [] ∨ 3 < p.length ∨ (p.head? = some '0' ∧ 1 < p.length) then
      none
    else
      digits? 10 p
  match bytes with
  | [a, b, c, d] =>
      if bytes.all (· ≤ 255) then some [a * 256 + b, c * 256 + d]
      else none
  | _ => none

/- The pieces of a group, of which the last may be bytes. -/
def pieces? : List (List Char) → Option (List Nat)
  | [] => some []
  | [p] => if '.' ∈ p then tailPieces? p else (piece? p).map ([·])
  | p :: rest => do
      let n ← piece? p
      let ns ← pieces? rest
      some (n :: ns)

/- The groups before and after a double colon. -/
def halves
    (before : List Char) :
    List Char → Option (List Char × List Char)
  | ':' :: ':' :: rest => some (before.reverse, rest)
  | c :: rest => halves (c :: before) rest
  | [] => none

/- The pieces of a group that may be empty. -/
def group? (cs : List Char) : Option (List Nat) :=
  if cs = [] then some []
  else pieces? (Form.splitAtChar ':' cs)

/-
  A number of sixteen bytes.  A double colon stands for the
  zeros that are missing, of which there is one at least.
-/
def sixteen? (cs : List Char) : Option (List Nat) := do
  match halves [] cs with
  | none =>
      let ns ← group? cs
      if ns.length = 8 then some ns else none
  | some (before, after) =>
      if '.' ∈ before then
        none
      else
        let ns ← group? before
        let ms ← group? after
        if ns.length + ms.length < 8 then
          some (ns ++ List.replicate (8 - ns.length - ms.length) 0 ++ ms)
        else
          none

/- A number of sixteen bytes in brackets. -/
def bracketed? (cs : List Char) : Option Host :=
  if 2 ≤ cs.length ∧ cs.getLast? = some ']' then
    (sixteen? (cs.drop 1).dropLast).map .sixteen
  else
    none

------------------------------------------------------------
-- Reading and writing
------------------------------------------------------------

/- The host of an address of the web. -/
def parse? (cs : List Char) : Option Host :=
  if cs.head? = some '[' then
    bracketed? cs
  else do
    let text ← String.fromUTF8? ⟨(unescape cs).toArray⟩
    let name := text.toList.map Char.toLower
    if name = [] ∨ name.any (fun c => decide (ForbiddenInName c)) then
      none
    else if EndsWithNumber name then
      (four? name).map .four
    else
      some (.name name)

/- The host of an address of another kind. -/
def parseOpaque? (cs : List Char) : Option Host :=
  if cs.head? = some '[' then bracketed? cs
  else if cs.any (fun c => decide (c ∈ forbidden)) then none
  else some (.name (escape [] cs))

/- The length of a run of zeros at the start. -/
def zeros (ns : List Nat) : Nat :=
  (ns.takeWhile (· = 0)).length

/-
  The first of the longest runs of zeros: its start and its
  length.
-/
def longestZeros (ns : List Nat) : Nat × Nat :=
  (List.range ns.length).foldl
    (fun best i =>
      let n := zeros (ns.drop i)
      if best.2 < n then (i, n) else best)
    (0, 0)

/- Pieces with colons between them. -/
def colons (ns : List Nat) : List Char :=
  [':'].intercalate (ns.map (Nat.toDigits 16))

/- The text of a host. -/
def text : Host → List Char
  | .name cs => cs
  | .four n =>
      ['.'].intercalate
        ([n / 16777216, n / 65536 % 256, n / 256 % 256, n % 256].map
          (Nat.toDigits 10))
  | .sixteen ns =>
      let (start, length) := longestZeros ns
      '['
        :: (if length < 2 then colons ns
          else
            colons (ns.take start) ++ ':' :: ':'
              :: colons (ns.drop (start + length)))
        ++ [']']

end Host

end Http

end TradeTape
