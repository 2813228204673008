import TradeTape.Proofs.Store.TradeFile

/-
  What reading a file with trades makes of what was written.

  A record has one cell under every name of the header, and
  every cell is read as the type of its field.  Whole numbers
  and texts come back as they were.  A text that is there but
  empty comes back as none.  A decimal without places comes
  back as long as it is a word of 64 bits, and is refused
  beyond; one with places comes back as the decimal that the
  shortest text of the nearest binary number denotes.

  Key statements include:
    * `Trade.reread?`
    * `TradeFile.trade?_record`
    * `TradeFile.read_text`
    * `Trade.reread?_same_iff`
-/

namespace TradeTape

------------------------------------------------------------
-- What comes back
------------------------------------------------------------

/- What comes back of a decimal, if anything does. -/
def Decimal.reread? (d : Decimal) : Option Decimal :=
  if d.scale = 0 then
    if Word.int64Min ≤ d.signed ∧ d.signed ≤ Word.uint64Max then
      some (ofInt d.signed)
    else
      none
  else
    ofBinary? d.toBinary

namespace Trade

/- A text that may be missing, unless it is empty. -/
def keptText (o : Option String) : Option String :=
  o.filter fun s => s ≠ ""

/- What comes back of a trade, if all its decimals do. -/
def reread? (t : Trade) : Option Trade := do
  let price ← t.price.reread?
  let markPrice ← t.markPrice.reread?
  let iv ← t.iv.mapM Decimal.reread?
  let indexPrice ← t.indexPrice.reread?
  let contracts ← t.contracts.mapM Decimal.reread?
  let amount ← t.amount.reread?
  some
    { t with
      price := price
      markPrice := markPrice
      iv := iv
      indexPrice := indexPrice
      contracts := contracts
      amount := amount
      blockId := keptText t.blockId
      comboId := keptText t.comboId
      liquidation := keptText t.liquidation }

end Trade

namespace TradeFile

------------------------------------------------------------
-- Cells
------------------------------------------------------------

theorem plusNat?_nat? : plusNat? Digits.nat? = Digits.signedNat? := by
  funext cs
  unfold plusNat?
  split
  · rfl
  · rename_i hOther
    unfold Digits.signedNat?
    split
    · exact absurd rfl (hOther _)
    · rfl

/- Integers in base 10 are read as everywhere else. -/
theorem signedInt?_nat? : signedInt? Digits.nat? = Digits.int? := by
  funext cs
  unfold signedInt?
  rw [plusNat?_nat?]
  split
  · rename_i cs
    cases hRead : Digits.nat? cs <;> simp [Digits.int?, hRead]
  · rename_i hOther
    unfold Digits.int?
    split
    · exact absurd rfl (hOther _)
    · rfl

/- What is no base keeps its characters. -/
theorem digits_of_second
    {cs : List Char}
    (hSecond : ∀ c ∈ cs, c ≠ 'x') :
    digits cs = (Digits.nat?, cs) := by
  unfold digits
  split
  · exact absurd rfl (hSecond 'x' (by simp))
  · rfl

theorem digits_ofInt (n : Int) :
    digits (Digits.ofInt n) = (Digits.nat?, Digits.ofInt n) := by
  refine digits_of_second fun c hMem hBase => ?_
  have hOther : ¬Digits.IsDigit 'x' := by decide
  rw [hBase] at hMem
  unfold Digits.ofInt at hMem
  split at hMem
  · rcases List.mem_cons.mp hMem with hSign | hDigit
    · exact absurd hSign (by decide)
    · exact hOther (Digits.isDigit_of_mem_ofNat hDigit)
  · exact hOther (Digits.isDigit_of_mem_ofNat hMem)

theorem intIn?_intText
    {low high n : Int}
    (hFits : low ≤ n ∧ n ≤ high) :
    intIn? low high (intText n).toList = some n := by
  unfold intIn? intText
  rw [String.toList_ofList, digits_ofInt]
  simp [signedInt?_nat?, Digits.int?_ofInt, hFits]

theorem natTo?_intText
    {high n : Nat}
    (hFits : n ≤ high) :
    natTo? high (intText n).toList = some n := by
  have hDigits : Digits.ofInt (n : Int) = Digits.ofNat n := by
    unfold Digits.ofInt
    rw [if_neg (Int.not_lt.mpr (Int.natCast_nonneg n)), Int.natAbs_natCast]
  have hPlus : plusNat? Digits.nat? (Digits.ofNat n) = some n := by
    rcases Digits.exists_ofNat_eq_cons n with ⟨c, cs, hCons, hDigit⟩
    rw [plusNat?_nat?, hCons, Digits.signedNat?_of_isDigit hDigit, ← hCons,
      Digits.nat?_ofNat]
  unfold natTo? intText
  rw [String.toList_ofList, digits_ofInt, hDigits]
  simp [hPlus, hFits]

theorem decimal?_text
    {d : Decimal}
    (hFits : d.Fits) :
    decimal? d.text.toList = d.reread? := by
  unfold decimal? Decimal.text Decimal.reread?
  rw [String.toList_ofList, Decimal.int?_chars]
  by_cases hWhole : d.scale = 0
  · simp only [if_pos hWhole]
  · simp only [if_neg hWhole, Decimal.read?_chars hFits]

theorem ofName?_name (d : TradeDirection) :
    Named.ofName? (Named.name d) = some d := by
  cases d <;> decide

------------------------------------------------------------
-- Cells of a record
------------------------------------------------------------

/- Under a name that occurs once stands one cell. -/
theorem cellsUnder_eq_singleton
    {names fields : List Csv.Field}
    {column : String}
    {cs : Csv.Field}
    {i : Nat}
    (hNames : names.Nodup)
    (hCell : (names.zip fields)[i]? = some (column.toList, cs)) :
    cellsUnder column names fields = [cs] := by
  induction names generalizing fields i with
  | nil => simp at hCell
  | cons n names ih =>
      rcases List.nodup_cons.mp hNames with ⟨hFirst, hOthers⟩
      cases fields with
      | nil => simp at hCell
      | cons f fields =>
          unfold cellsUnder at ih ⊢
          cases i with
          | zero =>
              have hHead : n = column.toList ∧ f = cs := by
                simpa using hCell
              have hNone :
                  (names.zip fields).filterMap (fun c =>
                    if c.1 = column.toList then some c.2 else none)
                    = [] := by
                rw [List.filterMap_eq_nil_iff]
                rintro ⟨m, g⟩ hMem
                have hOther : m ≠ column.toList := by
                  rintro rfl
                  exact hFirst (hHead.1 ▸ (List.of_mem_zip hMem).1)
                rw [if_neg hOther]
              simp [hHead, hNone]
          | succ i =>
              have hRest : (names.zip fields)[i]? = some (column.toList, cs) := by
                simpa using hCell
              have hOther : n ≠ column.toList := by
                rintro rfl
                exact
                  hFirst (List.of_mem_zip (List.mem_of_getElem? hRest)).1
              simp [hOther, ih hOthers hRest]

theorem header_nodup : header.Nodup := by
  decide +kernel

/- Under the names of the header stand the cells of a trade. -/
theorem cellsUnder_record
    {t : Trade}
    {column : String}
    {cell : String}
    (i : Nat)
    (hColumn : Trade.columns[i]? = some column)
    (hCell : (cells t)[i]? = some cell) :
    cellsUnder column header (record t) = [cell.toList] := by
  refine cellsUnder_eq_singleton header_nodup (i := i) ?_
  unfold header record
  rw [List.getElem?_zip_eq_some]
  simp [hColumn, hCell]

theorem required_eq
    {α : Type}
    (read : Csv.Field → Option α)
    (cs : Csv.Field) :
    required read [cs] = read cs :=
  rfl

/- A value that may be missing is read when it is there. -/
theorem optional_optionalText
    {α β : Type}
    {write : α → String}
    {read : Csv.Field → Option β}
    {again : α → Option β}
    {o : Option α}
    (hSome : ∀ a ∈ o, (write a).toList ≠ [])
    (hRead : ∀ a ∈ o, read (write a).toList = again a) :
    optional read [(optionalText write o).toList] = o.mapM again := by
  cases o with
  | none => simp [optional, optionalText]
  | some a =>
      simp [optional, optionalText, hSome a rfl, hRead a rfl]

theorem optional_eq_some
    {α : Type}
    {write : α → String}
    {read : Csv.Field → Option α}
    {o : Option α}
    (hSome : ∀ a ∈ o, (write a).toList ≠ [])
    (hRead : ∀ a ∈ o, read (write a).toList = some a) :
    optional read [(optionalText write o).toList] = some o := by
  rw [optional_optionalText hSome hRead]
  cases o <;> rfl

/- An empty text is taken for none. -/
theorem optional_text (o : Option String) :
    optional (fun cs => some (String.ofList cs))
        [(optionalText id o).toList]
      = some (Trade.keptText o) := by
  cases o with
  | none => simp [optional, optionalText, Trade.keptText]
  | some s =>
      by_cases hEmpty : s = ""
      · simp [optional, optionalText, Trade.keptText, hEmpty, Option.filter]
      · simp [optional, optionalText, Trade.keptText, hEmpty, Option.filter]

------------------------------------------------------------
-- Records
------------------------------------------------------------

/- What a record says of the trade it was written for. -/
theorem trade?_record
    {t : Trade}
    (hFits : t.Fits) :
    trade? header (record t) = t.reread? := by
  have hSeq := cellsUnder_record (t := t) 0 rfl rfl
  have hId := cellsUnder_record (t := t) 1 rfl rfl
  have hTimestamp := cellsUnder_record (t := t) 2 rfl rfl
  have hTick := cellsUnder_record (t := t) 3 rfl rfl
  have hPrice := cellsUnder_record (t := t) 4 rfl rfl
  have hMark := cellsUnder_record (t := t) 5 rfl rfl
  have hIv := cellsUnder_record (t := t) 6 rfl rfl
  have hName := cellsUnder_record (t := t) 7 rfl rfl
  have hIndex := cellsUnder_record (t := t) 8 rfl rfl
  have hSide := cellsUnder_record (t := t) 9 rfl rfl
  have hContracts := cellsUnder_record (t := t) 10 rfl rfl
  have hAmount := cellsUnder_record (t := t) 11 rfl rfl
  have hLegs := cellsUnder_record (t := t) 12 rfl rfl
  have hBlock := cellsUnder_record (t := t) 13 rfl rfl
  have hRfq := cellsUnder_record (t := t) 14 rfl rfl
  have hCombo := cellsUnder_record (t := t) 15 rfl rfl
  have hComboTrade := cellsUnder_record (t := t) 16 rfl rfl
  have hLiquidation := cellsUnder_record (t := t) 17 rfl rfl
  have hWord (n : Int) (hMem : n ∈ t.words) :
      intIn? Word.int64Min Word.int64Max (intText n).toList = some n :=
    intIn?_intText (hFits.words n hMem)
  have hDecimal (d : Decimal) (hMem : d ∈ t.decimals) :
      decimal? d.text.toList = d.reread? :=
    decimal?_text (hFits.decimals d hMem)
  have hSeqRead := hWord t.seq (by simp [Trade.words])
  have hTimestampRead := hWord t.timestamp (by simp [Trade.words])
  have hTickRead := intIn?_intText hFits.tick
  have hPriceRead := hDecimal t.price (by simp [Trade.decimals])
  have hMarkRead := hDecimal t.markPrice (by simp [Trade.decimals])
  have hIndexRead := hDecimal t.indexPrice (by simp [Trade.decimals])
  have hAmountRead := hDecimal t.amount (by simp [Trade.decimals])
  have hIvRead :
      optional decimal? [(optionalText Decimal.text t.iv).toList]
        = t.iv.mapM Decimal.reread? :=
    optional_optionalText (fun d _ => text_ne_nil d) fun d hMem =>
      decimal?_text (hFits.of_iv d hMem)
  have hContractsRead :
      optional decimal? [(optionalText Decimal.text t.contracts).toList]
        = t.contracts.mapM Decimal.reread? :=
    optional_optionalText (fun d _ => text_ne_nil d) fun d hMem =>
      decimal?_text (hFits.of_contracts d hMem)
  have hLegsRead :
      optional (natTo? Word.uint32Max)
          [(optionalText (fun (n : Nat) => intText n)
            t.blockLegCount).toList]
        = some t.blockLegCount :=
    optional_eq_some (fun n _ => intText_ne_nil n) fun n hMem =>
      natTo?_intText (hFits.legs n hMem)
  have hRfqRead :
      optional (intIn? Word.int64Min Word.int64Max)
          [(optionalText intText t.blockRfqId).toList]
        = some t.blockRfqId :=
    optional_eq_some (fun n _ => intText_ne_nil n) fun n hMem =>
      intIn?_intText (hFits.of_blockRfqId n hMem)
  have hComboRead :
      optional (intIn? Word.int64Min Word.int64Max)
          [(optionalText intText t.comboTradeId).toList]
        = some t.comboTradeId :=
    optional_eq_some (fun n _ => intText_ne_nil n) fun n hMem =>
      intIn?_intText (hFits.of_comboTradeId n hMem)
  unfold trade?
  simp only [hSeq, hId, hTimestamp, hTick, hPrice, hMark, hIv, hName, hIndex,
    hSide, hContracts, hAmount, hLegs, hBlock, hRfq, hCombo, hComboTrade,
    hLiquidation, required_eq, hSeqRead, hTimestampRead, hTickRead,
    hPriceRead, hMarkRead, hIndexRead, hAmountRead, hIvRead,
    hContractsRead, hLegsRead, hRfqRead, hComboRead, optional_text,
    ofName?_name, String.ofList_toList]
  unfold Trade.reread?
  rfl

------------------------------------------------------------
-- Files
------------------------------------------------------------

theorem parse?_text
    {ts : List Trade}
    (hFits : ∀ t ∈ ts, t.Fits) :
    parse? (text ts) = ts.mapM Trade.reread? := by
  unfold parse?
  rw [parse_text]
  simp only
  induction ts with
  | nil => rfl
  | cons t ts ih =>
      rcases List.forall_mem_cons.mp hFits with ⟨hFirst, hOthers⟩
      have hWidth : (record t).length = header.length := by
        unfold record header
        rw [List.length_map, List.length_map]
        rfl
      rw [List.map_cons, List.mapM_cons, List.mapM_cons, ih hOthers,
        if_pos hWidth, trade?_record hFirst]

/- What a reader gets of a file that was written. -/
theorem read_written
    {p : Path}
    {ts : List Trade}
    {t u : FileTree}
    (hFits : ∀ trade ∈ ts, trade.Fits)
    (hWrite : write p ts t = (.ok (), u)) :
    read p u
      = match ts.mapM Trade.reread? with
        | some back => .ok back
        | none => .error (.invalidRow p) := by
  have hEntry := FileTree.entryAt?_of_contentAt? (write_eq_ok hWrite)
  have hParse := parse?_text hFits
  unfold read
  rw [hEntry]
  cases hBack : ts.mapM Trade.reread? <;> simp [hParse, hBack]

end TradeFile

------------------------------------------------------------
-- What lasts
------------------------------------------------------------

/- A decimal that comes back as the same number. -/
def Decimal.Lasts (d : Decimal) : Prop :=
  (d.reread?.any fun e => decide (d.SameValue e)) = true

instance (d : Decimal) : Decidable d.Lasts := by
  unfold Decimal.Lasts
  infer_instance

theorem Decimal.lasts_iff
    {d : Decimal} :
    d.Lasts ↔ ∃ e, d.reread? = some e ∧ d.SameValue e := by
  unfold Lasts
  rw [Option.any_eq_true]
  simp

namespace Trade

/- A trade that comes back with the same values. -/
def Lasts (t : Trade) : Prop :=
  (∀ d ∈ t.decimals, d.Lasts) ∧ t.blockId ≠ some "" ∧ t.comboId ≠ some ""
    ∧ t.liquidation ≠ some ""

instance (t : Trade) : Decidable t.Lasts := by
  unfold Lasts
  infer_instance

theorem keptText_eq_self_iff
    {o : Option String} :
    keptText o = o ↔ o ≠ some "" := by
  unfold keptText
  cases o with
  | none => simp
  | some s => simp [Option.filter]

/- The comparison of decimals that may be missing. -/
def sameOption : Option Decimal → Option Decimal → Bool
  | some d, some e => decide (d.SameValue e)
  | none, none => true
  | _, _ => false

theorem sameValues_iff
    {t u : Trade} :
    t.SameValues u
      ↔ t.price.SameValue u.price
        ∧ t.markPrice.SameValue u.markPrice
        ∧ t.indexPrice.SameValue u.indexPrice
        ∧ t.amount.SameValue u.amount
        ∧ sameOption t.iv u.iv = true
        ∧ sameOption t.contracts u.contracts = true
        ∧ { t with
            price := u.price
            markPrice := u.markPrice
            indexPrice := u.indexPrice
            amount := u.amount
            iv := u.iv
            contracts := u.contracts } = u :=
  Iff.rfl

/- A decimal that may be missing comes back when it lasts. -/
theorem mapM_reread?_same_iff
    {o : Option Decimal} :
    (∃ o', o.mapM Decimal.reread? = some o' ∧ sameOption o o' = true)
      ↔ ∀ d ∈ o, d.Lasts := by
  cases o with
  | none => simp [sameOption]
  | some d =>
      have hMapM :
          (some d).mapM Decimal.reread? = d.reread?.map some := by
        cases hRead : d.reread? <;> simp [hRead]
      rw [hMapM]
      constructor
      · rintro ⟨o', hRead, hSame⟩ d' hMem
        cases hMem
        rcases Option.map_eq_some_iff.mp hRead with ⟨e, hAgain, rfl⟩
        exact Decimal.lasts_iff.mpr ⟨e, hAgain, of_decide_eq_true hSame⟩
      · intro hLasts
        rcases Decimal.lasts_iff.mp (hLasts d rfl) with ⟨e, hRead, hSame⟩
        exact ⟨some e, by rw [hRead]; rfl, decide_eq_true hSame⟩

theorem reread?_eq_some_iff
    {t u : Trade} :
    t.reread? = some u
      ↔ ∃ price markPrice iv indexPrice contracts amount,
          t.price.reread? = some price
          ∧ t.markPrice.reread? = some markPrice
          ∧ t.iv.mapM Decimal.reread? = some iv
          ∧ t.indexPrice.reread? = some indexPrice
          ∧ t.contracts.mapM Decimal.reread? = some contracts
          ∧ t.amount.reread? = some amount
          ∧ { t with
              price := price
              markPrice := markPrice
              iv := iv
              indexPrice := indexPrice
              contracts := contracts
              amount := amount
              blockId := keptText t.blockId
              comboId := keptText t.comboId
              liquidation := keptText t.liquidation } = u := by
  unfold reread?
  simp only [Option.bind_eq_bind, Option.bind_eq_some_iff,
    Option.some_inj]
  constructor
  · rintro ⟨a, ha, b, hb, c, hc, d, hd, e, he, f, hf, hu⟩
    exact ⟨a, b, c, d, e, f, ha, hb, hc, hd, he, hf, hu⟩
  · rintro ⟨a, b, c, d, e, f, ha, hb, hc, hd, he, hf, hu⟩
    exact ⟨a, ha, b, hb, c, hc, d, hd, e, he, f, hf, hu⟩

theorem decimals_last_iff
    {t : Trade} :
    (∀ d ∈ t.decimals, d.Lasts)
      ↔ t.price.Lasts ∧ t.markPrice.Lasts ∧ t.indexPrice.Lasts
        ∧ t.amount.Lasts ∧ (∀ d ∈ t.iv, d.Lasts)
        ∧ ∀ d ∈ t.contracts, d.Lasts := by
  unfold decimals
  simp only [List.forall_mem_append, List.forall_mem_cons,
    Option.mem_toList, and_assoc]
  simp

/- A trade comes back with the same values when it lasts. -/
theorem reread?_same_iff
    {t : Trade} :
    (∃ u, t.reread? = some u ∧ t.SameValues u) ↔ t.Lasts := by
  unfold Lasts
  rw [decimals_last_iff]
  simp only [Decimal.lasts_iff (d := t.price),
    Decimal.lasts_iff (d := t.markPrice),
    Decimal.lasts_iff (d := t.indexPrice),
    Decimal.lasts_iff (d := t.amount)]
  rw [← mapM_reread?_same_iff (o := t.iv),
    ← mapM_reread?_same_iff (o := t.contracts)]
  constructor
  · rintro ⟨u, hRead, hSame⟩
    rcases reread?_eq_some_iff.mp hRead with
      ⟨price, mark, iv, index, contracts, amount, hPrice, hMark, hIv, hIndex,
        hContracts, hAmount, rfl⟩
    rcases sameValues_iff.mp hSame with
      ⟨hPrice', hMark', hIndex', hAmount', hIv', hContracts', hRest⟩
    simp only [Trade.mk.injEq, true_and] at hRest
    rcases hRest with ⟨hBlock, hCombo, hLiquidation⟩
    exact
      ⟨⟨⟨price, hPrice, hPrice'⟩, ⟨mark, hMark, hMark'⟩,
          ⟨index, hIndex, hIndex'⟩, ⟨amount, hAmount, hAmount'⟩,
          ⟨iv, hIv, hIv'⟩, ⟨contracts, hContracts, hContracts'⟩⟩,
        keptText_eq_self_iff.mp hBlock.symm,
        keptText_eq_self_iff.mp hCombo.symm,
        keptText_eq_self_iff.mp hLiquidation.symm⟩
  · rintro
      ⟨⟨⟨price, hPrice, hPrice'⟩, ⟨mark, hMark, hMark'⟩,
          ⟨index, hIndex, hIndex'⟩, ⟨amount, hAmount, hAmount'⟩,
          ⟨iv, hIv, hIv'⟩, ⟨contracts, hContracts, hContracts'⟩⟩,
        hBlock, hCombo, hLiquidation⟩
    refine
      ⟨_,
        reread?_eq_some_iff.mpr
          ⟨price, mark, iv, index, contracts, amount, hPrice, hMark, hIv,
            hIndex, hContracts, hAmount, rfl⟩,
        sameValues_iff.mpr
          ⟨hPrice', hMark', hIndex', hAmount', hIv', hContracts', ?_⟩⟩
    simp only [Trade.mk.injEq, true_and]
    exact
      ⟨(keptText_eq_self_iff.mpr hBlock).symm,
        (keptText_eq_self_iff.mpr hCombo).symm,
        (keptText_eq_self_iff.mpr hLiquidation).symm⟩

/- Trades come back with the same values when all of them last. -/
theorem mapM_reread?_iff
    {ts : List Trade} :
    (∃ back, ts.mapM reread? = some back
        ∧ List.Forall₂ SameValues ts back)
      ↔ ∀ t ∈ ts, t.Lasts := by
  induction ts with
  | nil => simp
  | cons t ts ih =>
      rw [List.forall_mem_cons, ← ih, ← reread?_same_iff]
      constructor
      · rintro ⟨back, hBack, hSame⟩
        rcases List.forall₂_cons_left_iff.mp hSame with
          ⟨u, us, hFirst, hOthers, rfl⟩
        rw [List.mapM_cons] at hBack
        simp only [Option.bind_eq_bind, Option.bind_eq_some_iff,
          Option.pure_def, Option.some_inj, List.cons.injEq] at hBack
        rcases hBack with ⟨v, hRead, vs, hReads, rfl, rfl⟩
        exact ⟨⟨v, hRead, hFirst⟩, vs, hReads, hOthers⟩
      · rintro ⟨⟨u, hRead, hFirst⟩, us, hReads, hOthers⟩
        refine ⟨u :: us, ?_, .cons hFirst hOthers⟩
        rw [List.mapM_cons, hRead, hReads]
        rfl

end Trade

end TradeTape
