/-
  Sets of characters, given by the places where they begin
  and end.

  Key definitions include:
    * `CharSet`
    * `CharSet.Contains`
-/

namespace TradeTape

/-
  A set of characters: the code points at which it begins and
  those at which it ends, in turn.
-/
structure CharSet where
  bounds : List Nat
deriving Repr

namespace CharSet

/-
  A code point is in the set when an odd number of bounds lie
  at it or before it.
-/
def Contains
    (s : CharSet)
    (c : Char) : Prop :=
  s.bounds.countP (fun b => b ≤ c.toNat) % 2 = 1

instance (s : CharSet) (c : Char) : Decidable (s.Contains c) := by
  unfold Contains
  infer_instance

end CharSet

end TradeTape
