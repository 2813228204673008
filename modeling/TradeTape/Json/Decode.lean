import TradeTape.Json.Doc
import TradeTape.Number.Decimal
import TradeTape.Text.Named

/-
  Taking typed data from JSON documents.

  A record is an object, whose unknown members are skipped
  and whose known ones occur at most once, or an array with
  its fields in order.  A field that an object lacks may have
  a default; one that an array is too short for has a default
  only where the record says so.

  Key definitions include:
    * `Json.Doc.named?`
    * `Json.Slot`
    * `Json.Doc.slots?`
    * `Json.Slot.required`
    * `Json.Slot.optional`
    * `Json.Slot.withDefault`
-/

namespace TradeTape

namespace Json

------------------------------------------------------------
-- Single values
------------------------------------------------------------

/- An integer between two bounds. -/
def Doc.intIn?
    (low high : Int) : Doc → Option Int
  | .number n =>
      match n.value? with
      | some (.integer k) =>
          if low ≤ k ∧ k ≤ high then some k else none
      | _ => none
  | _ => none

/- A signed integer of 64 bits. -/
def Doc.int64? (d : Doc) : Option Int :=
  d.intIn? Word.int64Min Word.int64Max

/- An unsigned integer up to a bound. -/
def Doc.natTo?
    (high : Nat)
    (d : Doc) : Option Nat :=
  (d.intIn? 0 high).map Int.toNat

/- An unsigned integer of 64 bits. -/
def Doc.nat64? (d : Doc) : Option Nat :=
  d.natTo? Word.uint64Max

/- A truth value. -/
def Doc.bool? : Doc → Option Bool
  | .bool b => some b
  | _ => none

/- A text. -/
def Doc.text? : Doc → Option String
  | .string s => s
  | _ => none

/- A binary number; integers are rounded to one. -/
def Doc.binary? : Doc → Option Binary64
  | .number n =>
      match n.value? with
      | some (.integer k) => some (Binary64.ofInt k)
      | some (.binary x) => some x
      | none => none
  | _ => none

/- A decimal, written as a number or as a text. -/
def Doc.decimal? : Doc → Option Decimal
  | .number n =>
      match n.value? with
      | some (.integer k) => some (Decimal.ofInt k)
      | some (.binary x) => Decimal.ofBinary? x
      | none => none
  | .string (some s) => Decimal.read? s
  | _ => none

/- A text, or an integer in place of its digits. -/
def Doc.textOrInt? : Doc → Option String
  | .string s => s
  | d => d.int64?.map fun n => String.ofList (Digits.ofInt n)

/-
  A value known by name: its name as a text, or an object with
  that one member, which holds null.
-/
def Doc.named?
    {α : Type}
    [Named α] : Doc → Option α
  | .string (some name) => Named.ofName? name
  | .object [(some name, .null)] => Named.ofName? name
  | _ => none

/- A value or nothing, which is written as null. -/
def Doc.orNull?
    {α : Type}
    (read : Doc → Option α) : Doc → Option (Option α)
  | .null => some none
  | d => (read d).map some

/- The items of an array, each read by the same reader. -/
def Doc.list?
    {α : Type}
    (read : Doc → Option α) : Doc → Option (List α)
  | .array items => items.mapM read
  | _ => none

------------------------------------------------------------
-- Records
------------------------------------------------------------

/-
  What a record holds for a field: a document, nothing
  because an object lacks it, or nothing because an array
  ended before it.
-/
inductive Slot where
  | given (d : Doc)
  | missing
  | beyond
deriving Repr

/- Whether every key of an object is a text. -/
def keysReadable
    (members : List (Option String × Doc)) : Bool :=
  members.all fun m => m.1.isSome

/- The documents of the members with a key. -/
def membersNamed
    (name : String)
    (members : List (Option String × Doc)) : List Doc :=
  members.filterMap fun m =>
    if m.1 = some name then some m.2 else none

/- The slot of a field in an object; twice is refused. -/
def memberSlot?
    (members : List (Option String × Doc))
    (name : String) : Option Slot :=
  match membersNamed name members with
  | [] => some .missing
  | [d] => some (.given d)
  | _ => none

/- The slots of fields in an array. -/
def itemSlots : List String → List Doc → List Slot
  | [], _ => []
  | _ :: names, [] => .beyond :: itemSlots names []
  | _ :: names, d :: rest => .given d :: itemSlots names rest

/- The slots of the fields of a record, in order. -/
def Doc.slots?
    (names : List String) : Doc → Option (List Slot)
  | .object members =>
      if keysReadable members then
        names.mapM (memberSlot? members)
      else
        none
  | .array items =>
      if items.length ≤ names.length then
        some (itemSlots names items)
      else
        none
  | _ => none

/- The slots of a record that is written as an object only. -/
def Doc.objectSlots?
    (names : List String) : Doc → Option (List Slot)
  | .object members => Doc.slots? names (.object members)
  | _ => none

/- A field that has to be there. -/
def Slot.required
    {α : Type}
    (read : Doc → Option α) : Slot → Option α
  | .given d => read d
  | _ => none

/- A field that may be null or left out of an object. -/
def Slot.optional
    {α : Type}
    (read : Doc → Option α) : Slot → Option (Option α)
  | .given d => d.orNull? read
  | .missing => some none
  | .beyond => none

/- A field with a value of its own when it is left out. -/
def Slot.withDefault
    {α : Type}
    (default : α)
    (read : Doc → Option α) : Slot → Option α
  | .given d => read d
  | _ => some default

/- A field that may be null or left out everywhere. -/
def Slot.nullable
    {α : Type}
    (read : Doc → Option α)
    (s : Slot) : Option (Option α) :=
  s.withDefault none (Doc.orNull? read)

end Json

end TradeTape
