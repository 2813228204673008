import TradeTape.Proofs.Store.TradeFile
import TradeTape.Store.Consolidation

/-
  The table of a directory holds the trades of its files.

  The row of a trade has under the name of every field the
  value of that field.  A record that was written for a trade
  is read as this row, so that the rows of a file are those of
  its trades, and the rows of a directory are those of its
  files in the order of their names.

  Key statements include:
    * `Trade.row`
    * `Consolidation.row?_record`
    * `Consolidation.csvFiles_eq`
    * `Consolidation.collect_eq`
    * `Consolidation.run_faithful`
-/

namespace TradeTape

------------------------------------------------------------
-- Rows of trades
------------------------------------------------------------

namespace Cell

/- The cell of a text; an empty one leaves a gap. -/
def ofText (s : String) : Cell :=
  if s = "" then .null else .text s

/- The cell of a decimal, as the nearest binary number. -/
def ofDecimal (d : Decimal) : Cell :=
  .double d.toBinary.toBits

/- The cell of a value that may be missing. -/
def ofOption
    {α : Type}
    (cell : α → Cell) : Option α → Cell
  | some a => cell a
  | none => .null

end Cell

namespace Trade

/- The cell of a trade under the name of a field. -/
def cell (t : Trade) : String → Cell
  | "trade_seq" => .int t.seq
  | "trade_id" => .ofText t.id
  | "timestamp" => .int t.timestamp
  | "tick_direction" => .int t.tickDirection
  | "price" => .ofDecimal t.price
  | "mark_price" => .ofDecimal t.markPrice
  | "iv" => .ofOption .ofDecimal t.iv
  | "instrument_name" => .ofText t.instrumentName
  | "index_price" => .ofDecimal t.indexPrice
  | "direction" => .ofText (Named.name t.direction)
  | "contracts" => .ofOption .ofDecimal t.contracts
  | "amount" => .ofDecimal t.amount
  | "block_trade_leg_count" =>
      .ofOption (fun (n : Nat) => .int n) t.blockLegCount
  | "block_trade_id" => .ofOption .ofText t.blockId
  | "block_rfq_id" => .ofOption .int t.blockRfqId
  | "combo_id" => .ofOption .ofText t.comboId
  | "combo_trade_id" => .ofOption .int t.comboTradeId
  | "liquidation" => .ofOption .ofText t.liquidation
  | _ => .null

/- The row of a trade, with one cell per column. -/
def row (t : Trade) : List Cell :=
  Consolidation.schema.map fun c => t.cell c.name

/- The columns are named like the fields, in the same order. -/
theorem schema_names :
    Consolidation.schema.map Column.name = columns :=
  rfl

/-
  A trade that a row can stand for: its numbers fit, and the
  texts that may not be missing are not empty.
-/
def Complete (t : Trade) : Prop :=
  t.Fits ∧ t.id ≠ "" ∧ t.instrumentName ≠ ""

instance (t : Trade) : Decidable t.Complete := by
  unfold Complete
  infer_instance

end Trade

namespace Consolidation

------------------------------------------------------------
-- Cells
------------------------------------------------------------

section Cells

variable {c : Column}

theorem cell?_of_ne_nil
    {cs : List Char}
    (hSome : cs ≠ []) :
    c.cell? cs = c.type.cell? cs := by
  unfold Column.cell?
  rw [if_neg hSome]

/- An integer between the bounds of its column. -/
theorem intIn?_intText
    {low high n : Int}
    (hLow : low ≤ n)
    (hHigh : n ≤ high) :
    Cell.intIn? low high (TradeFile.intText n).toList
      = some (.int n) := by
  unfold Cell.intIn? TradeFile.intText
  rw [String.toList_ofList, Digits.int?_ofInt]
  simp [hLow, hHigh]

theorem cell?_int64
    {n : Int}
    (hType : c.type = .int64)
    (hFits : Word.FitsInt64 n) :
    c.cell? (TradeFile.intText n).toList = some (.int n) := by
  rw [cell?_of_ne_nil (TradeFile.intText_ne_nil n), hType]
  exact intIn?_intText hFits.1 hFits.2

theorem cell?_int8
    {n : Int}
    (hType : c.type = .int8)
    (hFits : -128 ≤ n ∧ n ≤ 127) :
    c.cell? (TradeFile.intText n).toList = some (.int n) := by
  rw [cell?_of_ne_nil (TradeFile.intText_ne_nil n), hType]
  exact intIn?_intText hFits.1 hFits.2

theorem cell?_uint32
    {n : Nat}
    (hType : c.type = .uint32)
    (hFits : n ≤ Word.uint32Max) :
    c.cell? (TradeFile.intText n).toList = some (.int n) := by
  rw [cell?_of_ne_nil (TradeFile.intText_ne_nil n), hType]
  exact intIn?_intText (Int.natCast_nonneg n) (Int.ofNat_le.mpr hFits)

theorem cell?_float64
    {d : Decimal}
    (hType : c.type = .float64)
    (hFits : d.Fits) :
    c.cell? d.text.toList = some (.ofDecimal d) := by
  unfold Decimal.text
  rw [String.toList_ofList, cell?_of_ne_nil d.chars_ne_nil, hType]
  unfold ColumnType.cell?
  simp only [Decimal.encoding?_chars hFits]
  rfl

theorem cell?_utf8
    {s : String}
    (hType : c.type = .utf8)
    (hSome : s ≠ "" ∨ c.nullable = true) :
    c.cell? s.toList = some (.ofText s) := by
  unfold Cell.ofText
  by_cases hEmpty : s = ""
  · have hNullable := hSome.resolve_left (not_not_intro hEmpty)
    simp [Column.cell?, hEmpty, hNullable]
  · have hChars : s.toList ≠ [] := by simpa using hEmpty
    rw [cell?_of_ne_nil hChars, hType, if_neg hEmpty]
    unfold ColumnType.cell?
    simp only [String.ofList_toList]

/- A value that may be missing leaves a gap when it is. -/
theorem cell?_optional
    {α : Type}
    {write : α → String}
    {cell : α → Cell}
    {o : Option α}
    (hNullable : c.nullable = true)
    (hCell : ∀ a ∈ o, c.cell? (write a).toList = some (cell a)) :
    c.cell? (TradeFile.optionalText write o).toList
      = some (.ofOption cell o) := by
  cases o with
  | none => simp [Column.cell?, TradeFile.optionalText, hNullable, Cell.ofOption]
  | some a => exact hCell a rfl

end Cells

------------------------------------------------------------
-- Rows
------------------------------------------------------------

/- A record is read as a row cell by cell. -/
theorem row?_eq_map
    {columns : List Column}
    {record : List Csv.Field}
    {cell : Column → Cell}
    (hCells :
      List.Forall₂ (fun c cs => c.cell? cs = some (cell c))
        columns record) :
    Column.row? columns record = some (columns.map cell) := by
  induction hCells with
  | nil => rfl
  | cons hCell _ ih =>
      unfold Column.row?
      simp [hCell, ih]

/- The record of a trade is read as its row. -/
theorem row?_record
    {t : Trade}
    (hComplete : t.Complete) :
    Column.row? schema (TradeFile.record t) = some t.row := by
  rcases hComplete with ⟨hFits, hId, hName⟩
  have hWord (n : Int) (hMem : n ∈ t.words) : Word.FitsInt64 n :=
    hFits.words n hMem
  have hDecimal (d : Decimal) (hMem : d ∈ t.decimals) : d.Fits :=
    hFits.decimals d hMem
  have hSide : Named.name t.direction ≠ "" := by
    cases t.direction <;> decide
  apply row?_eq_map
  refine
    .cons (cell?_int64 rfl (hWord _ (by simp [Trade.words]))) <|
    .cons (cell?_utf8 rfl (Or.inl hId)) <|
    .cons (cell?_int64 rfl (hWord _ (by simp [Trade.words]))) <|
    .cons (cell?_int8 rfl hFits.tick) <|
    .cons (cell?_float64 rfl (hDecimal _ (by simp [Trade.decimals]))) <|
    .cons (cell?_float64 rfl (hDecimal _ (by simp [Trade.decimals]))) <|
    .cons (cell?_optional rfl fun d hIv =>
      cell?_float64 rfl (hFits.of_iv d hIv)) <|
    .cons (cell?_utf8 rfl (Or.inl hName)) <|
    .cons (cell?_float64 rfl (hDecimal _ (by simp [Trade.decimals]))) <|
    .cons (cell?_utf8 rfl (Or.inl hSide)) <|
    .cons (cell?_optional rfl fun d hContracts =>
      cell?_float64 rfl (hFits.of_contracts d hContracts)) <|
    .cons (cell?_float64 rfl (hDecimal _ (by simp [Trade.decimals]))) <|
    .cons (cell?_optional rfl fun n hLegs =>
      cell?_uint32 rfl (hFits.legs n hLegs)) <|
    .cons (cell?_optional rfl fun s _ => cell?_utf8 rfl (Or.inr rfl)) <|
    .cons (cell?_optional rfl fun n hRfq =>
      cell?_int64 rfl (hFits.of_blockRfqId n hRfq)) <|
    .cons (cell?_optional rfl fun s _ => cell?_utf8 rfl (Or.inr rfl)) <|
    .cons (cell?_optional rfl fun n hCombo =>
      cell?_int64 rfl (hFits.of_comboTradeId n hCombo)) <|
    .cons (cell?_optional rfl fun s _ => cell?_utf8 rfl (Or.inr rfl)) <|
    .nil

/- The rows of a file are those of its trades. -/
theorem rows?_text
    {ts : List Trade}
    (hComplete : ∀ t ∈ ts, t.Complete) :
    rows? (TradeFile.text ts) = some (ts.map Trade.row) := by
  have hWidth : TradeFile.header.length = schema.length := by
    decide
  unfold rows?
  rw [TradeFile.parse_text]
  simp only [if_pos hWidth]
  induction ts with
  | nil => rfl
  | cons t ts ih =>
      rcases List.forall_mem_cons.mp hComplete with ⟨hFirst, hOthers⟩
      simp [row?_record hFirst, ih hOthers]

------------------------------------------------------------
-- Files
------------------------------------------------------------

section Files

variable {t : FileTree}
variable {directory : Path}
variable {here : Place}

/-
  A name of files with trades whose path from a directory is
  not too long, as that of a file that was written there is.
-/
def IsCsvEntry
    (directory : Path)
    (name : String) : Prop :=
  IsCsvName name ∧ (directory.join name).Acceptable

instance (directory : Path) (name : String) :
    Decidable (IsCsvEntry directory name) := by
  unfold IsCsvEntry
  infer_instance

/- A file with trades and what it holds. -/
def IsCsvFile
    (t : FileTree)
    (directory : Path)
    (here : Place)
    (name : String)
    (content : Content) : Prop :=
  IsCsvEntry directory name
    ∧ t.entry? (here.child name) = some (.file content)

/- A child of a directory as a file with trades. -/
def csvFound?
    (directory : Path)
    (child : String × Entry) : Option (String × Content) :=
  match child.2 with
  | .file content =>
      if IsCsvName child.1 ∧ (directory.join child.1).Acceptable then
        some (child.1, content)
      else
        none
  | .directory => none

theorem csvFound?_eq_some_iff
    {child : String × Entry}
    {f : String × Content} :
    csvFound? directory child = some f
      ↔ IsCsvEntry directory f.1 ∧ child = (f.1, .file f.2) := by
  rcases child with ⟨name, content | _⟩
  · have hEntry :
        csvFound? directory (name, .file content)
          = if IsCsvName name ∧ (directory.join name).Acceptable then
              some (name, content)
            else none :=
      rfl
    rw [hEntry]
    by_cases hCsv : IsCsvName name ∧ (directory.join name).Acceptable
    · rw [if_pos hCsv, Option.some_inj]
      constructor
      · rintro rfl
        exact ⟨hCsv, rfl⟩
      · rintro ⟨-, hSame⟩
        cases hSame
        rfl
    · rw [if_neg hCsv]
      constructor
      · exact fun h => (nomatch h)
      · rintro ⟨hName, hSame⟩
        cases hSame
        exact absurd hName hCsv
  · exact ⟨fun h => (nomatch h), fun h => (nomatch h.2)⟩

/-
  The files with trades are all found, each one once and in
  the order of their names.
-/
theorem csvFiles_eq
    (hDistinct : t.Distinct)
    (hHere : t.locate? directory = some here)
    (hDirectory : t.IsDirectory here) :
    ∃ files, csvFiles directory t = .ok files
      ∧ (files.map Prod.fst).Pairwise (· < ·)
      ∧ ∀ name content,
          (name, content) ∈ files
            ↔ IsCsvFile t directory here name content := by
  let found := (t.below here).filterMap (csvFound? directory)
  have hFound :
      csvFiles directory t
        = .ok (found.mergeSort fun a b => !decide (b.1 < a.1)) := by
    unfold csvFiles
    rw [FileTree.children?_eq_below hHere hDirectory]
    rfl
  refine ⟨_, hFound, ?_, ?_⟩
  · -- Sorting makes the names ascend; they differ in a directory.
    have hLe (f g : String × Content) :
        (!decide (g.1 < f.1)) = true ↔ f.1 ≤ g.1 := by
      rw [Bool.not_eq_true', decide_eq_false_iff_not]
      exact String.not_lt
    have hAscending :
        (found.mergeSort fun a b => !decide (b.1 < a.1)).Pairwise
          fun f g => (!decide (g.1 < f.1)) = true :=
      List.pairwise_mergeSort
        (fun f g h hFirst hSecond =>
          (hLe f h).mpr
            (String.le_trans ((hLe f g).mp hFirst)
              ((hLe g h).mp hSecond)))
        (fun f g => by
          rw [Bool.or_eq_true, hLe, hLe]
          exact String.le_total f.1 g.1)
        found
    have hNodup : (found.map Prod.fst).Nodup := by
      have hNames := FileTree.nodup_below hDistinct here
      rw [List.Nodup, List.pairwise_map] at hNames ⊢
      rw [List.pairwise_filterMap]
      refine hNames.imp ?_
      intro c c' hOther f hEntry f' hEntry' hSame
      rw [(csvFound?_eq_some_iff.mp hEntry).2,
        (csvFound?_eq_some_iff.mp hEntry').2, hSame] at hOther
      exact hOther rfl
    have hSorted :=
      ((List.mergeSort_perm found
        fun a b => !decide (b.1 < a.1)).map Prod.fst).nodup_iff.mpr
          hNodup
    rw [List.Nodup, List.pairwise_map] at hSorted
    rw [List.pairwise_map]
    refine (hAscending.and hSorted).imp ?_
    rintro f g ⟨hOrder, hOther⟩
    have hLess := (hLe f g).mp hOrder
    exact
      String.not_le.mp fun hBack =>
        hOther (String.le_antisymm hLess hBack)
  · intro name content
    rw [List.mem_mergeSort, List.mem_filterMap]
    constructor
    · rintro ⟨child, hChild, hEntry⟩
      rcases csvFound?_eq_some_iff.mp hEntry with ⟨hCsv, rfl⟩
      exact ⟨hCsv, (FileTree.mem_below_iff hDistinct).mp hChild⟩
    · rintro ⟨hCsv, hEntry⟩
      exact
        ⟨_, (FileTree.mem_below_iff hDistinct).mpr hEntry,
          csvFound?_eq_some_iff.mpr ⟨hCsv, rfl⟩⟩

/- Rows of all files, when each holds the trades of its name. -/
theorem collect_eq
    {book : String → List Trade}
    {files : List (String × Content)}
    (hFiles :
      ∀ f ∈ files, f.2 = .text (TradeFile.text (book f.1))
        ∧ ∀ t ∈ book f.1, t.Complete)
    (directory : Path) :
    collect directory files
      = .ok (((files.map Prod.fst).flatMap book).map Trade.row) := by
  induction files with
  | nil => rfl
  | cons f files ih =>
      rcases List.forall_mem_cons.mp hFiles with
        ⟨⟨hContent, hComplete⟩, hOthers⟩
      rcases f with ⟨name, content⟩
      have hText : content = .text (TradeFile.text (book name)) :=
        hContent
      unfold collect
      rw [hText]
      simp only [rows?_text hComplete, ih hOthers]
      simp [Except.map]

------------------------------------------------------------
-- The whole directory
------------------------------------------------------------

/-
  What a consolidation leaves: the table holds the rows of all
  trades, file after file in the order of their names, and
  everything else stands as it stood.  Still no two entries
  stand at one place.
-/
structure Consolidated
    (t : FileTree)
    (directory : Path)
    (here : Place)
    (book : String → List Trade)
    (names : List String)
    (u : FileTree) : Prop where
  ascending : names.Pairwise (· < ·)
  files :
    ∀ name, name ∈ names ↔ ∃ content, IsCsvFile t directory here name content
  result :
    run directory t
      = (.ok
          (some
            { path := directory.join fileName
              files := names.length
              rows := (names.flatMap book).length }),
        u)
  table :
    u.contentAt? (directory.join fileName)
      = some (.table ((names.flatMap book).map Trade.row))
  others : ∀ p ≠ here.child fileName, u.entry? p = t.entry? p
  distinct : u.Distinct

/-
  The files of a directory, written from lists of complete
  trades, are consolidated in full.
-/
theorem run_faithful
    {book : String → List Trade}
    (hDistinct : t.Distinct)
    (hHere : t.locate? directory = some here)
    (hDirectory : t.IsDirectory here)
    (hPath : (directory.join fileName).Acceptable)
    (hFree : ¬t.IsDirectory (here.child fileName))
    (hSome : ∃ name content, IsCsvFile t directory here name content)
    (hWrote :
      ∀ name content, IsCsvFile t directory here name content →
        TradeFile.Wrote (book name) content
          ∧ ∀ trade ∈ book name, trade.Complete) :
    ∃ names u, Consolidated t directory here book names u := by
  rcases csvFiles_eq hDistinct hHere hDirectory with
    ⟨files, hFiles, hAscending, hMem⟩
  have hPlain : FileTree.IsPlain fileName := by decide
  have hLocate := FileTree.locate?_join hHere hDirectory hPlain hPath
  have hRoom : t.HasRoom (here.child fileName) := by
    refine ⟨hFree, ?_, ?_⟩
    · rwa [Place.parent_child]
    · rw [Place.name?_child]
      decide
  have hOpened :
      t.writeFile? (directory.join fileName) (.table [])
        = some (t.set (here.child fileName) (.file (.table []))) :=
    FileTree.writeFile?_eq_some_iff.mpr ⟨_, hLocate, hRoom, rfl⟩
  have hSame := FileTree.isDirectory_writeFile?_iff hOpened
  have hClosed (rows : List (List Cell)) :
      (t.set (here.child fileName) (.file (.table []))).writeFile?
          (directory.join fileName) (.table rows)
        = some
            ((t.set (here.child fileName) (.file (.table []))).set
              (here.child fileName) (.file (.table rows))) := by
    refine FileTree.writeFile?_eq_some_iff.mpr ⟨_, ?_, ?_, rfl⟩
    · rwa [FileTree.locate?_congr hSame]
    · rwa [FileTree.hasRoom_congr hSame]
  have hRows :
      collect directory files
        = .ok (((files.map Prod.fst).flatMap book).map Trade.row) :=
    collect_eq
      (fun f hFile => by
        have hCsv := (hMem f.1 f.2).mp hFile
        rcases hWrote f.1 f.2 hCsv with ⟨hWritten, hComplete⟩
        exact ⟨TradeFile.wrote_iff.mp hWritten, hComplete⟩)
      directory
  refine
    ⟨files.map Prod.fst, _, hAscending, fun name => ?_, ?_,
      FileTree.contentAt?_writeFile? (hClosed _), ?_,
      FileTree.distinct_writeFile?
        (FileTree.distinct_writeFile? hDistinct hOpened) (hClosed _)⟩
  · rw [List.mem_map]
    constructor
    · rintro ⟨f, hFile, rfl⟩
      exact ⟨f.2, (hMem f.1 f.2).mp hFile⟩
    · rintro ⟨content, hCsv⟩
      exact ⟨(name, content), (hMem name content).mpr hCsv, rfl⟩
  · cases files with
    | nil =>
        rcases hSome with ⟨name, content, hCsv⟩
        exact absurd ((hMem name content).mpr hCsv) List.not_mem_nil
    | cons f files =>
        unfold run
        simp only [hFiles, hOpened, hRows, hClosed, Option.getD_some,
          List.length_map]
  · intro p hOther
    have hRoot := Place.child_ne_root here fileName
    rw [FileTree.entry?_set hRoot, FileTree.entry?_set hRoot,
      if_neg hOther, if_neg hOther]

/- A trade whose texts need quotes, and one without options. -/
def quotedTrade : Trade :=
  { seq := 7
    id := "BTC-1,\"2\"\n3"
    timestamp := -1
    tickDirection := 3
    price := { negative := false, coefficient := 10050, scale := 2 }
    markPrice := { negative := true, coefficient := 0, scale := 1 }
    iv := some { negative := false, coefficient := 1, scale := 28 }
    instrumentName := "BTC-PERPETUAL"
    indexPrice := { negative := false, coefficient := 3, scale := 0 }
    direction := .sell
    contracts := none
    amount := { negative := false, coefficient := 5, scale := 1 }
    blockLegCount := some 4294967295
    blockId := some ""
    blockRfqId := none
    comboId := some ", "
    comboTradeId := some 0
    liquidation := none }

/- The trades of each file of a directory. -/
def mixedBook : String → List Trade
  | "a.CSV" => [quotedTrade, { quotedTrade with seq := 8 }]
  | "b.csv" => []
  | _ => []

/-
  A directory with two files of trades, another file, a
  directory named like a file and an old table.
-/
def mixedTree : FileTree :=
  { entries :=
      [(.ofNames ["D"], .directory),
        (.ofNames ["D", "b.csv"],
          .file (.text (TradeFile.text (mixedBook "b.csv")))),
        (.ofNames ["D", "c.csv"], .directory),
        (.ofNames ["D", "notes.txt"], .file (.text "csv")),
        (.ofNames ["D", "a.CSV"],
          .file (.text (TradeFile.text (mixedBook "a.CSV")))),
        (.ofNames ["D", "data.parquet"], .file (.table []))] }

/- The table has both trades; nothing else counts as a file. -/
theorem run_faithful_of_mixed :
    ∃ names u,
      Consolidated mixedTree ⟨"D"⟩ (.ofNames ["D"]) mixedBook names u := by
  have hDistinct : mixedTree.Distinct := by
    unfold FileTree.Distinct
    decide +kernel
  refine
    run_faithful hDistinct (by decide +kernel) (by decide +kernel)
      (by decide +kernel) (by decide +kernel)
      ⟨"b.csv", _, by decide +kernel, rfl⟩ ?_
  rintro name content ⟨hName, hEntry⟩
  have hMem :=
    (FileTree.entry?_eq_some_iff hDistinct
      (Place.child_ne_root (.ofNames ["D"]) name)).mp hEntry
  have hNamed
      (other : String)
      (hPlace :
        (Place.ofNames ["D"]).child name
          = (Place.ofNames ["D"]).child other) :
      name = other :=
    Place.child_injective hPlace
  simp only [mixedTree, List.mem_cons, Prod.mk.injEq, Entry.file.injEq,
    reduceCtorEq, and_false, false_or, List.not_mem_nil, or_false] at hMem
  rcases hMem with
    ⟨hPlace, hText⟩ | ⟨hPlace, hText⟩ | ⟨hPlace, hText⟩ | ⟨hPlace, hText⟩
  · rw [hNamed "b.csv" hPlace]
    exact ⟨TradeFile.wrote_iff.mpr hText, by decide⟩
  · rw [hNamed "notes.txt" hPlace] at hName
    exact absurd hName (by decide)
  · rw [hNamed "a.CSV" hPlace]
    exact ⟨TradeFile.wrote_iff.mpr hText, by decide⟩
  · rw [hNamed "data.parquet" hPlace] at hName
    exact absurd hName (by decide)

end Files

end Consolidation

end TradeTape
