import TradeTape.Store.Partition
import TradeTape.Text.Csv

/-
  Catalogs: the instruments of a partition as a table.

  The columns are the keys that occur in any row: some come
  first in a fixed order, the others follow in ascending
  order.  A row without a key leaves its cell empty.

  Key definitions include:
    * `Catalog.leadingColumns`
    * `Catalog.columns`
    * `Catalog.records`
    * `Catalog.write`
-/

namespace TradeTape

namespace Catalog

------------------------------------------------------------
-- Columns
------------------------------------------------------------

/- Values by their key. -/
abbrev Row := List (String × String)

/- The columns that come first if they are there. -/
def leadingColumns : List String :=
  ["instrument_name", "kind", "creation_timestamp",
    "expiration_timestamp", "is_active"]

/- A key put into an ascending list that lacks it. -/
def insertKey (key : String) : List String → List String
  | [] => [key]
  | k :: rest =>
      if key < k then key :: k :: rest
      else if key = k then k :: rest
      else k :: insertKey key rest

/- The keys that occur in any row, in ascending order. -/
def keys (rows : List Row) : List String :=
  (rows.flatMap (·.map Prod.fst)).foldr insertKey []

/- The columns of the table of some rows. -/
def columns (rows : List Row) : List String :=
  let found := keys rows
  leadingColumns.filter (found.contains ·)
    ++ found.filter (!leadingColumns.contains ·)

------------------------------------------------------------
-- Tables
------------------------------------------------------------

/- The cells of a row under some columns. -/
def cells
    (columns : List String)
    (row : Row) : List String :=
  columns.map fun c => (row.lookup c).getD ""

/- The header, unless there is no column, and all rows. -/
def records (rows : List Row) : List (List String) :=
  let columns := columns rows
  (if columns = [] then [] else [columns])
    ++ rows.map (cells columns)

/- The text of the table of some rows. -/
def text (rows : List Row) : String :=
  Csv.text (records rows)

/- Writes the catalog of a partition. -/
def write
    (base : Path)
    (p : Partition)
    (rows : List Row)
    (t : FileTree) : Except StoreFault Path × FileTree :=
  let path := p.catalogPath base
  let (made, t) := t.createDirectories path.parent
  if made then
    match t.writeFile? path (.text (text rows)) with
    | some t => (.ok path, t)
    | none => (.error (.create path), t)
  else
    (.error (.createDirectory path.parent), t)

end Catalog

end TradeTape
