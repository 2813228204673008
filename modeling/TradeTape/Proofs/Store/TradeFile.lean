import TradeTape.Proofs.Number.Decimals
import TradeTape.Proofs.Store.FileTree
import TradeTape.Proofs.Text.Csv
import TradeTape.Store.TradeFile

/-
  What a file with trades holds.

  Once it was written, the place that its path leads to holds
  the header and one record per trade, and a reader of records
  finds exactly these, whatever the texts of the trades are.
  A trade is within the ranges of its fields when its numbers
  are words of their sizes and its decimals have a coefficient
  and a scale of theirs.

  Key statements include:
    * `Trade.Fits`
    * `TradeFile.parse_text`
    * `TradeFile.write_eq_ok`
    * `TradeFile.distinct_write`
    * `TradeFile.wrote_iff`
-/

namespace TradeTape

------------------------------------------------------------
-- Ranges
------------------------------------------------------------

namespace Trade

/- The numbers of a trade that are words of 64 bits. -/
def words (t : Trade) : List Int :=
  [t.seq, t.timestamp] ++ t.blockRfqId.toList ++ t.comboTradeId.toList

/- The decimals of a trade. -/
def decimals (t : Trade) : List Decimal :=
  [t.price, t.markPrice, t.indexPrice, t.amount] ++ t.iv.toList
    ++ t.contracts.toList

/- A trade whose numbers are within the ranges of their fields. -/
structure Fits (t : Trade) : Prop where
  words : ∀ n ∈ t.words, Word.FitsInt64 n
  tick : -128 ≤ t.tickDirection ∧ t.tickDirection ≤ 127
  legs : ∀ n ∈ t.blockLegCount, n ≤ Word.uint32Max
  decimals : ∀ d ∈ t.decimals, d.Fits

theorem fits_iff
    {t : Trade} :
    t.Fits
      ↔ (∀ n ∈ t.words, Word.FitsInt64 n)
        ∧ (-128 ≤ t.tickDirection ∧ t.tickDirection ≤ 127)
        ∧ (∀ n ∈ t.blockLegCount, n ≤ Word.uint32Max)
        ∧ ∀ d ∈ t.decimals, d.Fits :=
  ⟨fun h => ⟨h.words, h.tick, h.legs, h.decimals⟩,
    fun ⟨hWords, hTick, hLegs, hDecimals⟩ =>
      ⟨hWords, hTick, hLegs, hDecimals⟩⟩

instance (t : Trade) : Decidable t.Fits :=
  decidable_of_iff _ fits_iff.symm

section Members

variable {t : Trade}

theorem Fits.of_blockRfqId
    (hFits : t.Fits) :
    ∀ n ∈ t.blockRfqId, Word.FitsInt64 n := fun n hMem =>
  hFits.words n (by simp [Trade.words, Option.mem_def.mp hMem])

theorem Fits.of_comboTradeId
    (hFits : t.Fits) :
    ∀ n ∈ t.comboTradeId, Word.FitsInt64 n := fun n hMem =>
  hFits.words n (by simp [Trade.words, Option.mem_def.mp hMem])

theorem Fits.of_iv
    (hFits : t.Fits) :
    ∀ d ∈ t.iv, d.Fits := fun d hMem =>
  hFits.decimals d (by simp [Trade.decimals, Option.mem_def.mp hMem])

theorem Fits.of_contracts
    (hFits : t.Fits) :
    ∀ d ∈ t.contracts, d.Fits := fun d hMem =>
  hFits.decimals d (by simp [Trade.decimals, Option.mem_def.mp hMem])

end Members

end Trade

namespace TradeFile

------------------------------------------------------------
-- Records
------------------------------------------------------------

/- The header, as the fields of a record. -/
def header : List Csv.Field :=
  Trade.columns.map String.toList

/- A trade, as the fields of a record. -/
def record (t : Trade) : List Csv.Field :=
  (cells t).map String.toList

/- The records of a file are its header and those of its trades. -/
theorem parse_text (ts : List Trade) :
    Csv.parse (text ts).toList = header :: ts.map record := by
  have hRecords :
      (text ts).toList = Csv.render (header :: ts.map record) := by
    unfold text Csv.text
    rw [String.toList_ofList, List.map_cons, List.map_map]
    rfl
  have hFields : ∀ r ∈ header :: ts.map record, r ≠ [] := by
    intro r hMem
    rcases List.mem_cons.mp hMem with rfl | hRecord
    · exact fun h => (nomatch h)
    · rcases List.mem_map.mp hRecord with ⟨t, -, rfl⟩
      exact fun h => (nomatch h)
  have hUnmarked :
      (Csv.render (header :: ts.map record)).head? ≠ some '\uFEFF' := by
    have hFirst : (Csv.line header).head? = some 't' := by
      decide +kernel
    unfold Csv.render
    rw [List.flatMap_cons, List.head?_append, hFirst, Option.some_or]
    decide
  rw [hRecords, Csv.parse_render hFields hUnmarked]

/- Numbers leave no cell empty. -/
theorem intText_ne_nil (n : Int) : (intText n).toList ≠ [] := by
  unfold intText Digits.ofInt
  rw [String.toList_ofList]
  split
  · exact fun h => (nomatch h)
  · exact Digits.ofNat_ne_nil _

theorem text_ne_nil (d : Decimal) : d.text.toList ≠ [] := by
  unfold Decimal.text
  rw [String.toList_ofList]
  exact d.chars_ne_nil

------------------------------------------------------------
-- Writing
------------------------------------------------------------

/- Where a file with trades was written, they are found. -/
theorem write_eq_ok
    {p : Path}
    {ts : List Trade}
    {t u : FileTree}
    (hWrite : write p ts t = (.ok (), u)) :
    u.contentAt? p = some (.text (text ts)) := by
  unfold write at hWrite
  cases hDraft :
      t.writeFile? (p.withSuffix draftSuffix) (.text (text ts)) with
  | none => simp [hDraft] at hWrite
  | some written =>
      cases hMove : written.rename? (p.withSuffix draftSuffix) p with
      | none => simp [hDraft, hMove] at hWrite
      | some moved =>
          have hEnd : moved = u := by
            simpa [hDraft, hMove] using hWrite
          rw [← hEnd, FileTree.contentAt?_rename? hMove]
          exact FileTree.contentAt?_writeFile? hDraft

/- Writing puts no two entries at one place, whatever comes of it. -/
theorem distinct_write
    {t : FileTree}
    (hDistinct : t.Distinct)
    (p : Path)
    (ts : List Trade) :
    (write p ts t).2.Distinct := by
  unfold write
  simp only
  split
  · exact FileTree.distinct_removeFile hDistinct _
  · rename_i written hDraft
    have hWritten := FileTree.distinct_writeFile? hDistinct hDraft
    split
    · exact hWritten
    · rename_i moved hMove
      exact FileTree.distinct_rename? hWritten hMove

/-
  A content that files with these trades have once they were
  written, at whatever path and in whatever tree.
-/
def Wrote
    (ts : List Trade)
    (content : Content) : Prop :=
  ∃ p before after, write p ts before = (.ok (), after)
    ∧ after.contentAt? p = some content

theorem wrote_iff
    {ts : List Trade}
    {content : Content} :
    Wrote ts content ↔ content = .text (text ts) := by
  constructor
  · rintro ⟨p, before, after, hWrite, hContent⟩
    rw [write_eq_ok hWrite] at hContent
    exact (Option.some.inj hContent).symm
  · rintro rfl
    have hWrite :
        ∃ after, write ⟨"trades.csv"⟩ ts .empty = (.ok (), after) :=
      ⟨_, rfl⟩
    rcases hWrite with ⟨after, hWrite⟩
    exact ⟨_, _, after, hWrite, write_eq_ok hWrite⟩

end TradeFile

end TradeTape
