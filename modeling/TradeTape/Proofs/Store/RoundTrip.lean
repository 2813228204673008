import Mathlib.Data.Nat.Factorization.Basic
import TradeTape.Proofs.Number.ShortDecimals
import TradeTape.Proofs.Store.Rereading

/-
  Trades that were written are read again.

  All of a trade comes back but what its texts and decimals may
  lose: a text that is there and empty comes back as none, a
  decimal without places is refused beyond the words of 64
  bits, and one with places goes through the binary format.
  This keeps every decimal of at most fifteen digits, zeros at
  its end not counted.

  Key statements include:
    * `Decimal.lasts_of_brief`
    * `TradeFile.read_write`
-/

namespace TradeTape

------------------------------------------------------------
-- Brief decimals
------------------------------------------------------------

namespace Decimal

/-
  A decimal without places that is a word of 64 bits, or one
  with at most fifteen digits before the zeros at its end.
-/
def Brief (d : Decimal) : Prop :=
  if d.scale = 0 then
    Word.int64Min ≤ d.signed ∧ d.signed ≤ Word.uint64Max
  else
    ∃ c k, c < 1000000000000000 ∧ d.coefficient = c * 10 ^ k

theorem signed_make
    (negative : Bool)
    (coefficient scale : Nat) :
    (make negative coefficient scale).signed
      = if negative then -(coefficient : Int) else coefficient := by
  unfold make signed
  by_cases hZero : coefficient = 0
  · simp [hZero]
  · simp [hZero]

theorem signed_ofInt (n : Int) : (ofInt n).signed = n := by
  unfold ofInt
  rw [signed_make]
  by_cases hNegative : n < 0
  · rw [decide_eq_true hNegative, if_pos rfl]
    omega
  · rw [decide_eq_false hNegative, if_neg (by decide)]
    omega

/- A decimal of the same sign and size denotes the same number. -/
theorem sameValue_make
    {d : Decimal}
    {coefficient scale : Nat}
    (hSize :
      d.coefficient * 10 ^ scale = coefficient * 10 ^ d.scale) :
    d.SameValue (make d.negative coefficient scale) := by
  have hScale : (make d.negative coefficient scale).scale = scale := rfl
  have hSize' :
      (d.coefficient : Int) * 10 ^ scale = coefficient * 10 ^ d.scale := by
    exact_mod_cast hSize
  unfold SameValue
  rw [signed_make, hScale]
  unfold signed
  simp only [Int.pow_eq]
  split
  · rw [neg_mul, neg_mul, hSize']
  · exact hSize'

/- Nothing is lost of a brief decimal. -/
theorem lasts_of_brief
    {d : Decimal}
    (hFits : d.Fits)
    (hBrief : d.Brief) :
    d.Lasts := by
  rw [lasts_iff]
  unfold Brief at hBrief
  unfold reread?
  by_cases hWhole : d.scale = 0
  · rw [if_pos hWhole] at hBrief
    rw [if_pos hWhole, if_pos hBrief]
    have hScale : (ofInt d.signed).scale = 0 := rfl
    refine ⟨_, rfl, ?_⟩
    unfold SameValue
    rw [signed_ofInt, hScale, hWhole]
  · rw [if_neg hWhole] at hBrief ⊢
    rcases hBrief with ⟨c, k, hFew, hDigits⟩
    by_cases hZero : c = 0
    · have hNone : d.coefficient = 0 := by
        rw [hDigits, hZero, Nat.zero_mul]
      refine ⟨make d.negative 0 0, ?_, sameValue_make (by simp [hNone])⟩
      have hBinary : d.toBinary = Binary64.zero d.negative := by
        unfold toBinary Binary64.ofScaled
        rw [hNone]
        simp [Binary64.round]
      rw [hBinary]
      cases d.negative <;> decide +kernel
    · rcases Nat.exists_eq_pow_mul_and_not_dvd hZero 10 (by decide) with
        ⟨j, b, hLast, hParts⟩
      have hSome : 0 < b := by
        rcases Nat.eq_zero_or_pos b with hNone | hSome
        · exact absurd (hNone ▸ Nat.dvd_zero 10) hLast
        · exact hSome
      have hLess : b < 1000000000000000 := by
        refine lt_of_le_of_lt ?_ hFew
        rw [hParts]
        exact Nat.le_mul_of_pos_left b (Nat.pow_pos (by decide))
      have hDigits' : d.coefficient = b * 10 ^ (j + k) := by
        rw [hDigits, hParts, pow_add]
        ring
      refine
        ⟨_,
          ofBinary?_toBinary hFits hWhole hSome hLess
            (fun h => hLast (Nat.dvd_of_mod_eq_zero h)) hDigits',
          sameValue_make ?_⟩
      rw [hDigits', Nat.mul_assoc, Nat.mul_assoc, ← pow_add, ← pow_add]
      congr 2
      omega

end Decimal

------------------------------------------------------------
-- Files
------------------------------------------------------------

/-
  A trade whose decimals are brief, and whose texts are not
  there or not empty.
-/
def Trade.Brief (t : Trade) : Prop :=
  (∀ d ∈ t.decimals, d.Brief) ∧ t.blockId ≠ some "" ∧ t.comboId ≠ some ""
    ∧ t.liquidation ≠ some ""

theorem Trade.lasts_of_brief
    {t : Trade}
    (hFits : t.Fits)
    (hBrief : t.Brief) :
    t.Lasts :=
  ⟨fun d hMem =>
      Decimal.lasts_of_brief (hFits.decimals d hMem) (hBrief.1 d hMem),
    hBrief.2⟩

namespace TradeFile

/-
  A file that was written says of each trade what comes back
  of it.  Its trades come back with the same values just when
  all of them last, and brief ones do.
-/
theorem read_write
    {p : Path}
    {ts : List Trade}
    {t u : FileTree}
    (hFits : ∀ trade ∈ ts, trade.Fits)
    (hWrite : write p ts t = (.ok (), u)) :
    read p u
        = (match ts.mapM Trade.reread? with
          | some back => .ok back
          | none => .error (.invalidRow p))
      ∧ ((∃ back, read p u = .ok back
            ∧ List.Forall₂ Trade.SameValues ts back)
          ↔ ∀ trade ∈ ts, trade.Lasts)
      ∧ ((∀ trade ∈ ts, trade.Brief) →
          ∃ back, read p u = .ok back
            ∧ List.Forall₂ Trade.SameValues ts back) := by
  have hRead := read_written hFits hWrite
  have hBack (back : List Trade) :
      read p u = .ok back ↔ ts.mapM Trade.reread? = some back := by
    rw [hRead]
    cases ts.mapM Trade.reread? <;> simp
  have hSame :
      (∃ back, read p u = .ok back
          ∧ List.Forall₂ Trade.SameValues ts back)
        ↔ ∀ trade ∈ ts, trade.Lasts := by
    simp only [hBack]
    exact Trade.mapM_reread?_iff
  refine ⟨hRead, hSame, fun hBrief => hSame.mpr fun trade hMem => ?_⟩
  exact Trade.lasts_of_brief (hFits trade hMem) (hBrief trade hMem)

/- A trade with quotes in its texts and decimals at the limits. -/
def keptTrade : Trade :=
  { seq := -9223372036854775808
    id := "\"7\",\r\n"
    timestamp := 9223372036854775807
    tickDirection := -128
    price := { negative := false, coefficient := 99999999999999900, scale := 9 }
    markPrice := { negative := true, coefficient := 5, scale := 28 }
    iv := none
    instrumentName := ""
    indexPrice :=
      { negative := false, coefficient := 18446744073709551615, scale := 0 }
    direction := .buy
    contracts := some { negative := true, coefficient := 0, scale := 3 }
    amount :=
      { negative := true, coefficient := 9223372036854775808, scale := 0 }
    blockLegCount := some 4294967295
    blockId := some " "
    blockRfqId := none
    comboId := none
    comboTradeId := some 0
    liquidation := some "a,b" }

theorem keptTrade_brief : keptTrade.Brief := by
  refine ⟨?_, by decide, by decide, by decide⟩
  intro d hMem
  have hCases :
      d = keptTrade.price ∨ d = keptTrade.markPrice
        ∨ d = keptTrade.indexPrice ∨ d = keptTrade.amount
        ∨ d = { negative := true, coefficient := 0, scale := 3 } := by
    simpa [Trade.decimals, keptTrade] using hMem
  unfold Decimal.Brief
  rcases hCases with rfl | rfl | rfl | rfl | rfl
  · exact ⟨999999999999999, 2, by decide, by decide⟩
  · exact ⟨5, 0, by decide, by decide⟩
  · exact ⟨by decide, by decide⟩
  · exact ⟨by decide, by decide⟩
  · exact ⟨0, 0, by decide, by decide⟩

/- Two trades of the kind. -/
def keptTrades : List Trade :=
  [keptTrade, { keptTrade with seq := 2, direction := .sell }]

/- They come back from the file they were written to. -/
theorem read_write_of_kept :
    let p : Path := ⟨"out.csv"⟩
    (write p keptTrades .empty).1 = .ok ()
      ∧ ∃ back, read p (write p keptTrades .empty).2 = .ok back
          ∧ List.Forall₂ Trade.SameValues keptTrades back := by
  have hBrief : ∀ trade ∈ keptTrades, trade.Brief := by
    intro trade hMem
    rcases List.mem_cons.mp hMem with rfl | hOther
    · exact keptTrade_brief
    · rw [List.mem_singleton.mp hOther]
      exact keptTrade_brief
  have hWrite :
      write ⟨"out.csv"⟩ keptTrades .empty
        = (.ok (), (write ⟨"out.csv"⟩ keptTrades .empty).2) :=
    rfl
  exact ⟨rfl, (read_write (by decide) hWrite).2.2 hBrief⟩

/- A trade at some price, with some text about its liquidation. -/
def pricedTrade
    (price : Decimal)
    (liquidation : Option String) : Trade :=
  { seq := 7
    id := "T-7"
    timestamp := 1
    tickDirection := 0
    price := price
    markPrice := .ofInt 2
    iv := none
    instrumentName := "X"
    indexPrice := .ofInt 3
    direction := .buy
    contracts := none
    amount := .ofInt 10
    blockLegCount := none
    blockId := none
    blockRfqId := none
    comboId := none
    comboTradeId := none
    liquidation := liquidation }

/-
  Files are written that are not read as they were: a price of
  twenty digits comes back rounded, one above the words of 64
  bits makes the file unreadable, and an empty text is lost.
-/
theorem exists_written_not_reread :
    let p : Path := ⟨"out.csv"⟩
    let long := pricedTrade (.ofScaled 12345678901234567891 20) none
    let rounded := pricedTrade (.ofScaled 12345678901234568 17) none
    let high := pricedTrade (.ofInt 18446744073709551616) none
    let blank := pricedTrade (.ofInt 1) (some "")
    (∀ t ∈ [long, high, blank],
        t.Fits ∧ (write p [t] .empty).1 = .ok ())
      ∧ read p (write p [long] .empty).2 = .ok [rounded]
      ∧ ¬long.SameValues rounded
      ∧ read p (write p [high] .empty).2 = .error (.invalidRow p)
      ∧ read p (write p [blank] .empty).2
        = .ok [pricedTrade (.ofInt 1) none] := by
  have hWritten (t : Trade) :
      write ⟨"out.csv"⟩ [t] .empty
        = (.ok (), (write ⟨"out.csv"⟩ [t] .empty).2) :=
    rfl
  have hRead
      (t : Trade)
      (hFits : t.Fits)
      (again : Option (List Trade))
      (hAgain : [t].mapM Trade.reread? = again) :
      read ⟨"out.csv"⟩ (write ⟨"out.csv"⟩ [t] .empty).2
        = again.elim (.error (.invalidRow ⟨"out.csv"⟩)) .ok := by
    rw [read_written (by simpa using hFits) (hWritten t), hAgain]
    cases again <;> rfl
  refine ⟨?_, ?_, by decide, ?_, ?_⟩
  · intro t hMem
    refine ⟨?_, congrArg Prod.fst (hWritten t)⟩
    revert t
    decide
  · exact hRead _ (by decide) (some _) (by decide +kernel)
  · exact hRead _ (by decide) none (by decide +kernel)
  · exact hRead _ (by decide) (some _) (by decide +kernel)

end TradeFile

end TradeTape
