import TradeTape.Json.Doc
import TradeTape.Number.Shortest

/-
  Values that are written as JSON, and their compact text.

  A document read from outside becomes a value by taking the
  text of its strings, the value of its numbers and the last
  of the members that share a key.

  Key definitions include:
    * `Json.Value`
    * `Json.Value.render`
    * `Json.Doc.value?`
-/

namespace TradeTape

namespace Json

------------------------------------------------------------
-- Values
------------------------------------------------------------

/- A JSON value. -/
inductive Value where
  | null
  | bool (b : Bool)
  | int (n : Int)
  | double (x : Binary64)
  | string (s : String)
  | array (items : List Value)
  | object (members : List (String × Value))
deriving Repr

instance : Inhabited Value := ⟨.null⟩

/- The order of texts by their code points. -/
def textLe (a b : String) : Bool :=
  decide (¬ b < a)

/-
  Puts a member into a list sorted by key, in place of one
  of the same key.
-/
def insertMember
    (key : String)
    (v : Value) :
    List (String × Value) → List (String × Value)
  | [] => [(key, v)]
  | (k, w) :: rest =>
      if key = k then (key, v) :: rest
      else if key < k then (key, v) :: (k, w) :: rest
      else (k, w) :: insertMember key v rest

mutual

/- The value of a document with sorted, distinct keys. -/
def Doc.value? : Doc → Option Value
  | .null => some .null
  | .bool b => some (.bool b)
  | .number n =>
      match n.value? with
      | some (.integer k) => some (.int k)
      | some (.binary x) => some (.double x)
      | none => none
  | .string s => s.map .string
  | .array items => (Doc.values? items).map .array
  | .object members => (Doc.memberValues? [] members).map .object

/- The values of a list of documents. -/
def Doc.values? : List Doc → Option (List Value)
  | [] => some []
  | d :: rest => do
      let v ← d.value?
      let vs ← Doc.values? rest
      some (v :: vs)

/- The members of an object, put into the sorted ones. -/
def Doc.memberValues?
    (done : List (String × Value)) :
    List (Option String × Doc) → Option (List (String × Value))
  | [] => some done
  | (key, d) :: rest => do
      let key ← key
      let v ← d.value?
      Doc.memberValues? (insertMember key v done) rest

end

------------------------------------------------------------
-- Text
------------------------------------------------------------

/- A code unit as an escape of four hexadecimal digits. -/
def unitEscape (n : Nat) : List Char :=
  ['\\', 'u', Binary64.hexDigit (n / 4096 % 16),
    Binary64.hexDigit (n / 256 % 16),
    Binary64.hexDigit (n / 16 % 16), Binary64.hexDigit (n % 16)]

/- A character inside a string. -/
def escape (c : Char) : List Char :=
  if c = '"' then ['\\', '"']
  else if c = '\\' then ['\\', '\\']
  else if c = '\n' then ['\\', 'n']
  else if c = '\r' then ['\\', 'r']
  else if c = '\t' then ['\\', 't']
  else if c = '\x08' then ['\\', 'b']
  else if c = '\x0c' then ['\\', 'f']
  else if c.toNat < 32 then unitEscape c.toNat
  else [c]

/- A text in quotes. -/
def quote (s : String) : List Char :=
  '"' :: s.toList.flatMap escape ++ ['"']

mutual

/- The compact text of a value. -/
def Value.chars : Value → List Char
  | .null => ['n', 'u', 'l', 'l']
  | .bool true => ['t', 'r', 'u', 'e']
  | .bool false => ['f', 'a', 'l', 's', 'e']
  | .int n => Digits.ofInt n
  | .double x =>
      if x.isFinite then x.pointText else ['n', 'u', 'l', 'l']
  | .string s => quote s
  | .array items => '[' :: Value.itemChars items
  | .object members => '\x7b' :: Value.memberChars members

/- The text of the items of an array and of its end. -/
def Value.itemChars : List Value → List Char
  | [] => [']']
  | [v] => v.chars ++ [']']
  | v :: rest => v.chars ++ ',' :: Value.itemChars rest

/- The text of the members of an object and of its end. -/
def Value.memberChars : List (String × Value) → List Char
  | [] => ['\x7d']
  | [(k, v)] => quote k ++ ':' :: v.chars ++ ['\x7d']
  | (k, v) :: rest =>
      quote k ++ ':' :: v.chars ++ ',' :: Value.memberChars rest

end

/- The compact text of a value. -/
def Value.render (v : Value) : String :=
  String.ofList v.chars

end Json

end TradeTape
