import Mathlib.Data.List.Forall2
import Mathlib.Data.String.Basic
import TradeTape.Deribit.Envelope
import TradeTape.Proofs.Store.Drafts
import TradeTape.Proofs.Text.Csv
import TradeTape.Store.Catalog

/-
  Catalogs keep every cell.

  Rows may have different keys.  The header lists each key of
  any row once, and under it each row has its value or an
  empty cell, so that no cell slips under another column.

  Key definitions include:
    * `Catalog.CellOf`
    * `Catalog.HeaderOf`
    * `Catalog.Tells`

  Key statements include:
    * `Catalog.pairwise_keys`
    * `Catalog.headerOf_columns`
    * `Catalog.parse_text`
    * `Catalog.write_tells`
-/

namespace TradeTape

/- A record begins as its first field does. -/
theorem Csv.head?_line
    {f : Field}
    (hSome : quoted f ≠ [])
    (fs : List Field) :
    (line (f :: fs)).head? = (quoted f).head? := by
  rcases List.exists_cons_of_ne_nil hSome with ⟨c, cs, hText⟩
  cases fs <;> simp [line, joined, hText]

namespace Catalog

variable {rows : List Row}

------------------------------------------------------------
-- Keys
------------------------------------------------------------

theorem mem_insertKey_iff
    {key c : String}
    {found : List String} :
    c ∈ insertKey key found ↔ c = key ∨ c ∈ found := by
  induction found with
  | nil => simp [insertKey]
  | cons k rest ih =>
      unfold insertKey
      split
      · exact List.mem_cons
      · split
        · rename_i hSame
          simp [hSame]
        · rw [List.mem_cons, ih, List.mem_cons]
          exact or_left_comm

/- A key is put where it keeps the others ascending. -/
theorem pairwise_insertKey
    {found : List String}
    (hAscend : found.Pairwise (· < ·))
    (key : String) :
    (insertKey key found).Pairwise (· < ·) := by
  induction found with
  | nil => exact List.pairwise_singleton _ _
  | cons k rest ih =>
      rcases List.pairwise_cons.mp hAscend with ⟨hFirst, hOthers⟩
      unfold insertKey
      split
      · rename_i hBefore
        refine List.pairwise_cons.mpr ⟨?_, hAscend⟩
        intro c hMem
        rcases List.mem_cons.mp hMem with rfl | hRest
        · exact hBefore
        · exact String.lt_trans hBefore (hFirst c hRest)
      · split
        · exact hAscend
        · rename_i hNotBefore hOther
          have hAfter : k < key :=
            lt_of_le_of_ne (String.not_lt.mp hNotBefore) (Ne.symm hOther)
          refine List.pairwise_cons.mpr ⟨?_, ih hOthers⟩
          intro c hMem
          rcases mem_insertKey_iff.mp hMem with rfl | hRest
          · exact hAfter
          · exact hFirst c hRest

theorem mem_keys_iff
    {key : String} :
    key ∈ keys rows ↔ ∃ row ∈ rows, key ∈ row.map Prod.fst := by
  have hFound (found : List String) :
      key ∈ found.foldr insertKey [] ↔ key ∈ found := by
    induction found with
    | nil => exact Iff.rfl
    | cons k rest ih =>
        rw [List.foldr_cons, mem_insertKey_iff, ih, List.mem_cons]
  unfold keys
  rw [hFound, List.mem_flatMap]

theorem pairwise_keys (rows : List Row) :
    (keys rows).Pairwise (· < ·) := by
  unfold keys
  induction rows.flatMap (·.map Prod.fst) with
  | nil => exact List.Pairwise.nil
  | cons key rest ih => exact pairwise_insertKey ih key

------------------------------------------------------------
-- Headers
------------------------------------------------------------

/-
  A header of some rows: each key of any row once, first some
  in a fixed order and then the others in ascending order.
-/
structure HeaderOf
    (rows : List Row)
    (header : List String) : Prop where
  once : header.Nodup
  keys :
    ∀ key, key ∈ header ↔ ∃ row ∈ rows, key ∈ row.map Prod.fst
  leads :
    ∃ others,
      header = leadingColumns ++ others ∧ others.Pairwise (· < ·)

/- Rows with the columns that come first, as all rows have them. -/
def Led (rows : List Row) : Prop :=
  ∀ row ∈ rows, ∀ c ∈ leadingColumns, c ∈ row.map Prod.fst

instance (rows : List Row) : Decidable (Led rows) := by
  unfold Led
  infer_instance

/- Instruments have these columns, whatever else they have. -/
theorem led_listed (listed : List Deribit.ListedInstrument) :
    Led (listed.map Deribit.ListedInstrument.row) := by
  intro row hRow c hMem
  rcases List.mem_map.mp hRow with ⟨i, -, rfl⟩
  unfold Deribit.ListedInstrument.row
  rw [((List.mergeSort_perm _ _).map Prod.fst).mem_iff, List.map_append]
  exact List.mem_append_left _ hMem

theorem leadingColumns_subset_keys
    (hSome : rows ≠ [])
    (hLed : Led rows)
    {c : String}
    (hMem : c ∈ leadingColumns) :
    c ∈ keys rows := by
  rcases List.exists_mem_of_ne_nil rows hSome with ⟨row, hRow⟩
  exact mem_keys_iff.mpr ⟨row, hRow, hLed row hRow c hMem⟩

/- All that come first are there, and what is left ascends. -/
theorem columns_eq
    (hSome : rows ≠ [])
    (hLed : Led rows) :
    columns rows
      = leadingColumns
        ++ (keys rows).filter (!leadingColumns.contains ·) := by
  have hAll :
      leadingColumns.filter ((keys rows).contains ·)
        = leadingColumns := by
    apply List.filter_eq_self.mpr
    intro c hMem
    exact
      List.contains_iff_mem.mpr
        (leadingColumns_subset_keys hSome hLed hMem)
  unfold columns
  simp only [hAll]

theorem headerOf_columns
    (hSome : rows ≠ [])
    (hLed : Led rows) :
    HeaderOf rows (columns rows) := by
  have hEq := columns_eq hSome hLed
  have hRest (c : String) :
      c ∈ (keys rows).filter (!leadingColumns.contains ·)
        ↔ c ∈ keys rows ∧ c ∉ leadingColumns := by
    rw [List.mem_filter, Bool.not_eq_true', ← Bool.not_eq_true,
      List.contains_iff_mem]
  have hAscend := (pairwise_keys rows).filter (!leadingColumns.contains ·)
  refine
    { once := ?_
      keys := ?_
      leads := ⟨_, hEq, hAscend⟩ }
  · rw [hEq]
    refine List.nodup_append.mpr ⟨by decide, hAscend.nodup, ?_⟩
    rintro c hLeading other hOther rfl
    exact ((hRest c).mp hOther).2 hLeading
  · intro key
    rw [hEq, List.mem_append, hRest, ← mem_keys_iff]
    constructor
    · rintro (hLeading | ⟨hKey, -⟩)
      · exact leadingColumns_subset_keys hSome hLed hLeading
      · exact hKey
    · intro hKey
      by_cases hLeading : key ∈ leadingColumns
      · exact Or.inl hLeading
      · exact Or.inr ⟨hKey, hLeading⟩

------------------------------------------------------------
-- Cells
------------------------------------------------------------

/-
  The cell of a row under a key: its value, or no text if the
  row lacks the key.  A row has a key once at most.
-/
def CellOf
    (row : Row)
    (key cell : String) : Prop :=
  (key, cell) ∈ row ∨ (key ∉ row.map Prod.fst ∧ cell = "")

instance (row : Row) (key cell : String) :
    Decidable (CellOf row key cell) := by
  unfold CellOf
  infer_instance

theorem cellOf_lookup
    (row : Row)
    (key : String) :
    CellOf row key ((row.lookup key).getD "") := by
  cases hLookup : row.lookup key with
  | some value =>
      rcases List.lookup_eq_some_iff.mp hLookup with
        ⟨before, after, hRow, -⟩
      exact Or.inl (by simp [hRow])
  | none =>
      refine Or.inr ⟨?_, rfl⟩
      intro hMem
      rcases List.mem_map.mp hMem with ⟨entry, hEntry, rfl⟩
      simpa using List.lookup_eq_none_iff.mp hLookup entry hEntry

/- Under each column stands the cell of the row. -/
theorem forall₂_cells
    (columns : List String)
    (row : Row) :
    List.Forall₂ (CellOf row) columns (cells columns row) :=
  List.forall₂_map_right_iff.mpr
    (List.forall₂_same.mpr fun key _ => cellOf_lookup row key)

/-
  Records that tell of rows: a header, and then one record per
  row in their order, with its cell under each column.
-/
def Tells
    (rows : List Row)
    (records : List (List String)) : Prop :=
  ∃ header body,
    records = header :: body ∧ HeaderOf rows header
      ∧ List.Forall₂
          (fun row => List.Forall₂ (CellOf row) header) rows body

theorem records_eq
    (hSome : rows ≠ [])
    (hLed : Led rows) :
    records rows
      = columns rows :: rows.map (cells (columns rows)) := by
  have hColumns : columns rows ≠ [] := by
    rw [columns_eq hSome hLed]
    exact fun h => (nomatch h)
  unfold records
  simp only [if_neg hColumns, List.singleton_append]

theorem tells_records
    (hSome : rows ≠ [])
    (hLed : Led rows) :
    Tells rows (records rows) :=
  ⟨_, _, records_eq hSome hLed, headerOf_columns hSome hLed,
    List.forall₂_map_right_iff.mpr
      (List.forall₂_same.mpr fun row _ => forall₂_cells _ row)⟩

------------------------------------------------------------
-- Files
------------------------------------------------------------

/-
  What is written is read as the same records.  The header
  begins with a letter, so it has no mark of a byte order.
-/
theorem parse_text
    (hSome : rows ≠ [])
    (hLed : Led rows) :
    (Csv.parse (text rows).toList).map (·.map String.ofList)
      = records rows := by
  have hRecords := records_eq hSome hLed
  have hColumns := columns_eq hSome hLed
  have hFields :
      ∀ r ∈ (records rows).map (·.map String.toList), r ≠ [] := by
    intro r hMem hNil
    rw [hRecords, List.map_cons, List.map_map] at hMem
    have hSize : r.length = (columns rows).length := by
      rcases List.mem_cons.mp hMem with rfl | hRow
      · exact List.length_map _
      · rcases List.mem_map.mp hRow with ⟨row, -, rfl⟩
        simp [cells]
    rw [hNil, hColumns] at hSize
    simp [leadingColumns] at hSize
  have hUnmarked :
      (Csv.render ((records rows).map (·.map String.toList))).head?
        ≠ some '\uFEFF' := by
    have hFirst :
        (Csv.quoted "instrument_name".toList).head? = some 'i' := by
      decide +kernel
    have hText : Csv.quoted "instrument_name".toList ≠ [] := by
      rintro hNil
      rw [hNil] at hFirst
      cases hFirst
    rw [hRecords, hColumns]
    unfold Csv.render leadingColumns
    rw [List.map_cons, List.flatMap_cons, List.head?_append,
      List.cons_append, List.map_cons, Csv.head?_line hText, hFirst,
      Option.some_or]
    decide
  unfold text Csv.text
  rw [String.toList_ofList, Csv.parse_render hFields hUnmarked,
    List.map_map]
  simp [Function.comp_def]

section Writing

variable {base : Path} {p : Partition} {t u : FileTree}

theorem write_of_unmade
    (hMade :
      t.createDirectories (p.catalogPath base).parent = (false, u)) :
    write base p rows t
      = (.error (.createDirectory (p.catalogPath base).parent), u) := by
  unfold write
  simp only [hMade, Bool.false_eq_true, if_false]

theorem write_of_made
    (hMade :
      t.createDirectories (p.catalogPath base).parent = (true, u)) :
    write base p rows t
      = match u.writeFile? (p.catalogPath base) (.text (text rows)) with
        | some written => (.ok (p.catalogPath base), written)
        | none => (.error (.create (p.catalogPath base)), u) := by
  unfold write
  cases hFile : u.writeFile? (p.catalogPath base) (.text (text rows))
    <;> simp only [hMade, hFile, if_true]

/- What a catalog that could be written leaves at its path. -/
theorem exists_write_of_made
    (hMade :
      t.createDirectories (p.catalogPath base).parent = (true, u))
    (hHold : u.CanHold (p.catalogPath base))
    (rows : List Row) :
    ∃ written,
      u.writeFile? (p.catalogPath base) (.text (text rows))
          = some written
        ∧ write base p rows t = (.ok (p.catalogPath base), written) := by
  cases hFile :
      u.writeFile? (p.catalogPath base) (.text (text rows)) with
  | none => exact absurd hHold (FileTree.writeFile?_eq_none_iff.mp hFile)
  | some written => exact ⟨written, rfl, by rw [write_of_made hMade, hFile]⟩

end Writing

/-
  A catalog is written just when its directory can be made and
  then holds the file, and the file tells of all rows.
-/
theorem write_tells
    (hSome : rows ≠ [])
    (hLed : Led rows)
    (base : Path)
    (p : Partition)
    (t : FileTree) :
    let path := p.catalogPath base
    let made := t.createDirectories path.parent
    let written := write base p rows t
    (written.1 = .ok path ↔ made.1 = true ∧ made.2.CanHold path)
      ∧ ∀ path', written.1 = .ok path' →
          path' = path
            ∧ ∃ text, written.2.contentAt? path = some (.text text)
                ∧ Tells rows
                  ((Csv.parse text.toList).map (·.map String.ofList)) := by
  intro path made written
  rcases hMade : t.createDirectories path.parent with ⟨done, u⟩
  have hIs : made = (done, u) := hMade
  rw [hIs]
  cases done with
  | false =>
      have hWrite : written = _ := write_of_unmade hMade
      rw [hWrite]
      simp
  | true =>
      by_cases hHold : u.CanHold path
      · rcases exists_write_of_made hMade hHold rows with
          ⟨after, hFile, hWrite⟩
        have hWrite : written = _ := hWrite
        rw [hWrite]
        refine ⟨by simp [hHold, path], ?_⟩
        intro path' hPath
        refine
          ⟨(Except.ok.inj hPath).symm, text rows,
            FileTree.contentAt?_writeFile? hFile, ?_⟩
        rw [parse_text hSome hLed]
        exact tells_records hSome hLed
      · have hFile :
            u.writeFile? path (.text (text rows)) = none :=
          FileTree.writeFile?_eq_none_iff.mpr hHold
        have hWrite : written = _ := write_of_made hMade
        rw [hFile] at hWrite
        rw [hWrite]
        simp [hHold]

/- An instrument with a text full of marks, and one without it. -/
def markedListing : List Deribit.ListedInstrument :=
  [{ name := "A"
     listing := .option
     creationMs := 0
     expirationMs := 9
     isActive := true
     extra := [("note", .string "a,\"b\"\nc"), ("", .null)] },
    { name := "B"
      listing := .option
      creationMs := -5
      expirationMs := 7
      isActive := false
      extra := [("fee", .int 3)] }]

/- Both have all their cells in the catalog that is written. -/
theorem write_tells_of_marked :
    let rows := markedListing.map Deribit.ListedInstrument.row
    let path : Path := ⟨"data/BTC/option/BTC-active-option-list.csv"⟩
    let written := write ⟨"data"⟩ ⟨"BTC", .option, false⟩ rows .empty
    rows ≠ [] ∧ Led rows ∧ written.1 = .ok path
      ∧ ∃ text, written.2.contentAt? path = some (.text text)
          ∧ Tells rows
            ((Csv.parse text.toList).map (·.map String.ofList)) := by
  intro rows path written
  have hSome : rows ≠ [] := fun h => (nomatch h)
  have hLed : Led rows := led_listed markedListing
  have hTells :=
    write_tells hSome hLed ⟨"data"⟩ ⟨"BTC", .option, false⟩ .empty
  have hDone : written.1 = .ok path := by
    decide +kernel
  exact ⟨hSome, hLed, hDone, (hTells.2 path hDone).2⟩

end Catalog

end TradeTape
