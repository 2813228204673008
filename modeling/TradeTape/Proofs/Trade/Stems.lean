import Mathlib.Data.List.Basic
import TradeTape.Trade.Instrument

/-
  The names under which results are kept tell them apart.

  A bound is written with its digits and a sign, so neither
  the mark between name and bounds nor the one between bounds
  can be taken for a part of them, whatever a name looks like.

  Key statements include:
    * `Bound.chars_inj`
    * `Result.stemOf_inj`
-/

namespace TradeTape

------------------------------------------------------------
-- Bounds as they are written
------------------------------------------------------------

namespace Bound

/- The characters of a bound. -/
def chars (n : Int) : List Char :=
  (toString n).toList

theorem chars_eq (n : Int) :
    chars n =
      if 0 ≤ n then Nat.toDigits 10 n.toNat
      else '-' :: Nat.toDigits 10 (-n).toNat := by
  unfold chars
  rw [Int.toString_eq_repr, Int.repr_eq_if]
  split <;> simp

theorem notMem_digits
    {c : Char}
    (hDigit : c.isDigit = false)
    (n : Nat) :
    c ∉ Nat.toDigits 10 n := by
  intro hMem
  have hIs :=
    Nat.isDigit_of_mem_toDigits (by decide) (by decide) hMem
  rw [hDigit] at hIs
  cases hIs

theorem digits_inj
    {m n : Nat}
    (hDigits : Nat.toDigits 10 m = Nat.toDigits 10 n) :
    m = n := by
  rw [← Nat.ofDigitChars_ten_toDigits (n := m), hDigits,
    Nat.ofDigitChars_ten_toDigits]

/- A bound is written with digits and a sign only. -/
theorem notMem_chars
    {c : Char}
    (hDigit : c.isDigit = false)
    (hSign : c ≠ '-')
    (n : Int) :
    c ∉ chars n := by
  rw [chars_eq]
  split
  · exact notMem_digits hDigit _
  · simp [notMem_digits hDigit, hSign]

theorem underscore_notMem (n : Int) : '_' ∉ chars n :=
  notMem_chars rfl (by decide) n

/- A sign can only be the first character of a bound. -/
theorem exists_head (n : Int) :
    ∃ head tail, chars n = head :: tail ∧ '-' ∉ tail := by
  have hDigits := notMem_digits (c := '-') rfl
  rw [chars_eq]
  split
  · cases hChars : Nat.toDigits 10 n.toNat with
    | nil => exact absurd hChars Nat.toDigits_ne_nil
    | cons head tail =>
        refine ⟨head, tail, rfl, ?_⟩
        intro hSign
        refine hDigits n.toNat ?_
        rw [hChars]
        exact List.mem_cons_of_mem head hSign
  · exact ⟨_, _, rfl, hDigits _⟩

theorem chars_inj
    {m n : Int}
    (hChars : chars m = chars n) :
    m = n := by
  -- A bound without a sign does not begin with one.
  have hSign (k : Nat) (rest : List Char) :
      Nat.toDigits 10 k ≠ '-' :: rest := by
    intro hEq
    refine notMem_digits (c := '-') rfl k ?_
    rw [hEq]
    exact List.mem_cons_self
  rw [chars_eq, chars_eq] at hChars
  split at hChars <;> split at hChars
  · have := digits_inj hChars
    omega
  · exact (hSign _ _ hChars).elim
  · exact (hSign _ _ hChars.symm).elim
  · have := digits_inj (List.cons.inj hChars).2
    omega

end Bound

------------------------------------------------------------
-- Windows as they are written
------------------------------------------------------------

/- The parts around a mark that does not come before it. -/
theorem append_mark_inj
    {mark : Char}
    {xs ys xs' ys' : List Char}
    (hxs : mark ∉ xs)
    (hxs' : mark ∉ xs')
    (hEq : xs ++ mark :: ys = xs' ++ mark :: ys') :
    xs = xs' ∧ ys = ys' := by
  rcases List.append_eq_append_iff.mp hEq with
    ⟨more, hMore, hRest⟩ | ⟨more, hMore, hRest⟩
  · cases more with
    | nil =>
        rw [List.append_nil] at hMore
        exact ⟨hMore.symm, (List.cons.inj hRest).2⟩
    | cons c more =>
        refine absurd ?_ hxs'
        rw [hMore, ← (List.cons.inj hRest).1]
        simp
  · cases more with
    | nil =>
        rw [List.append_nil] at hMore
        exact ⟨hMore, (List.cons.inj hRest).2.symm⟩
    | cons c more =>
        refine absurd ?_ hxs
        rw [hMore, ← (List.cons.inj hRest).1]
        simp

/- The parts around a mark that does not come after it. -/
theorem mark_append_inj
    {mark : Char}
    {xs ys xs' ys' : List Char}
    (hys : mark ∉ ys)
    (hys' : mark ∉ ys')
    (hEq : xs ++ mark :: ys = xs' ++ mark :: ys') :
    xs = xs' ∧ ys = ys' := by
  have hReverse := congrArg List.reverse hEq
  simp only [List.reverse_append, List.reverse_cons,
    List.append_assoc, List.singleton_append] at hReverse
  rcases
    append_mark_inj (mt List.mem_reverse.mp hys)
      (mt List.mem_reverse.mp hys') hReverse with
    ⟨hAfter, hBefore⟩
  exact
    ⟨List.reverse_injective hBefore, List.reverse_injective hAfter⟩

/- What a name says about a window after the last mark. -/
def Window.lastChars : Window → List Char
  | .time w => Bound.chars w.endMs
  | .seq w => Bound.chars w.startSeq ++ '-' :: Bound.chars w.endSeq

/- A name and what it says of a window before the last mark. -/
def Window.firstChars (name : String) : Window → List Char
  | .time w => name.toList ++ '_' :: Bound.chars w.startMs
  | .seq _ => name.toList

theorem Window.underscore_notMem_lastChars (w : Window) :
    '_' ∉ w.lastChars := by
  cases w with
  | time w => exact Bound.underscore_notMem w.endMs
  | seq w =>
      simp [lastChars, Bound.underscore_notMem]

theorem Result.toList_stemOf
    (name : String)
    (w : Window) :
    (stemOf name (some w)).toList
      = w.firstChars name ++ '_' :: w.lastChars := by
  cases w <;>
    simp [stemOf, Window.fileSuffix, Window.firstChars,
      Window.lastChars, Bound.chars, ToString.toString]

/- A bound is not two bounds with a mark between them. -/
theorem Bound.chars_ne
    (m n k : Int) :
    chars m ≠ chars n ++ '-' :: chars k := by
  intro hEq
  rcases exists_head m with ⟨c, rest, hm, hSign⟩
  rcases exists_head n with ⟨d, more, hn, _⟩
  rw [hm, hn, List.cons_append] at hEq
  refine hSign ?_
  rw [(List.cons.inj hEq).2]
  simp

theorem Bound.pair_inj
    {m n m' n' : Int}
    (hEq :
      chars m ++ '-' :: chars n = chars m' ++ '-' :: chars n') :
    m = m' ∧ n = n' := by
  rcases exists_head m with ⟨c, rest, hm, hSign⟩
  rcases exists_head m' with ⟨c', rest', hm', hSign'⟩
  rw [hm, hm', List.cons_append, List.cons_append] at hEq
  rcases List.cons.inj hEq with ⟨hHead, hTail⟩
  rcases append_mark_inj hSign hSign' hTail with ⟨hRest, hAfter⟩
  refine ⟨chars_inj ?_, chars_inj hAfter⟩
  rw [hm, hm', hHead, hRest]

/-
  Results of windows that are kept under one name are of one
  instrument and of one window.
-/
theorem Result.stemOf_inj
    {name name' : String}
    {w w' : Window}
    (hStem : stemOf name (some w) = stemOf name' (some w')) :
    name = name' ∧ w = w' := by
  have hChars := congrArg String.toList hStem
  rw [toList_stemOf, toList_stemOf] at hChars
  rcases
    mark_append_inj w.underscore_notMem_lastChars
      w'.underscore_notMem_lastChars hChars with
    ⟨hFirst, hLast⟩
  cases w with
  | time w =>
      cases w' with
      | seq w' => exact (Bound.chars_ne _ _ _ hLast).elim
      | time w' =>
          rcases
            mark_append_inj (Bound.underscore_notMem w.startMs)
              (Bound.underscore_notMem w'.startMs) hFirst with
            ⟨hName, hStart⟩
          have hBounds : w = w' := by
            have hFrom := Bound.chars_inj hStart
            have hTo := Bound.chars_inj hLast
            cases w
            cases w'
            simp only at hFrom hTo
            rw [hFrom, hTo]
          exact ⟨String.toList_injective hName, hBounds ▸ rfl⟩
  | seq w =>
      cases w' with
      | time w' => exact (Bound.chars_ne _ _ _ hLast.symm).elim
      | seq w' =>
          rcases Bound.pair_inj hLast with ⟨hStart, hEnd⟩
          have hBounds : w = w' := by
            cases w
            cases w'
            simp only at hStart hEnd
            rw [hStart, hEnd]
          exact ⟨String.toList_injective hFirst, hBounds ▸ rfl⟩

end TradeTape
