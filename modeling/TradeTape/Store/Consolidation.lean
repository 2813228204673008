import TradeTape.Store.Fault
import TradeTape.Store.FileTree
import TradeTape.Text.Csv

/-
  Consolidation: the files with trades of a directory as one
  table.

  The records of all files, in the order of their names, are
  read under one schema.  What was written is removed again
  when a file does not follow it.

  Key definitions include:
    * `Consolidation.schema`
    * `Consolidation.rows?`
    * `Consolidation.csvFiles`
    * `Consolidation.run`
-/

namespace TradeTape

/- The table that was written, and what it was made of. -/
structure Consolidation where
  path : Path
  files : Nat
  rows : Nat
deriving DecidableEq, Repr

namespace Consolidation

------------------------------------------------------------
-- Tables
------------------------------------------------------------

/- The name of the table of a directory. -/
def fileName : String := "data.parquet"

/- The columns of the table. -/
def schema : List Column :=
  let column := fun name type nullable =>
    ({ name := name, type := type, nullable := nullable } : Column)
  [column "trade_seq" .int64 false,
    column "trade_id" .utf8 false,
    column "timestamp" .int64 false,
    column "tick_direction" .int8 false,
    column "price" .float64 false,
    column "mark_price" .float64 false,
    column "iv" .float64 true,
    column "instrument_name" .utf8 false,
    column "index_price" .float64 false,
    column "direction" .utf8 false,
    column "contracts" .float64 true,
    column "amount" .float64 false,
    column "block_trade_leg_count" .uint32 true,
    column "block_trade_id" .utf8 true,
    column "block_rfq_id" .int64 true,
    column "combo_id" .utf8 true,
    column "combo_trade_id" .int64 true,
    column "liquidation" .utf8 true]

/-
  The rows of a text.  Its first record is skipped whatever
  it says, but has one field per column as all others do.
-/
def rows? (text : String) : Option (List (List Cell)) :=
  match Csv.parse text.toList with
  | [] => some []
  | header :: records =>
      if header.length = schema.length then
        records.mapM (Column.row? schema)
      else
        none

------------------------------------------------------------
-- Files
------------------------------------------------------------

/- What follows the last point of a name that has a stem. -/
def extension? (name : String) : Option (List Char) :=
  let backward := name.toList.reverse
  let ext := backward.takeWhile (· != '.')
  match backward.drop ext.length with
  | [] => none
  | _ :: stem => if stem = [] then none else some ext.reverse

/- The names of files with trades, in any case of letters. -/
def IsCsvName (name : String) : Prop :=
  (extension? name).map (·.map Char.toLower) = some "csv".toList

instance (name : String) : Decidable (IsCsvName name) := by
  unfold IsCsvName
  infer_instance

/-
  The names and texts of the files with trades, in order.  An
  entry whose path is too long is not seen as a file.
-/
def csvFiles
    (directory : Path)
    (t : FileTree) :
    Except StoreFault (List (String × Content)) :=
  match t.children? directory with
  | none => .error (.readDirectory directory)
  | some children =>
      let files :=
        children.filterMap fun c =>
          match c.2 with
          | .file content =>
              if IsCsvName c.1 ∧ (directory.join c.1).Acceptable then
                some (c.1, content)
              else
                none
          | .directory => none
      .ok (files.mergeSort fun a b => !decide (b.1 < a.1))

/- The rows of all files, or the first file without any. -/
def collect
    (directory : Path) :
    List (String × Content) → Except StoreFault (List (List Cell))
  | [] => .ok []
  | (name, content) :: rest =>
      let rows :=
        match content with
        | .text s => rows? s
        | .table _ => none
      match rows with
      | none => .error (.invalidTable (directory.join name))
      | some rows => (collect directory rest).map (rows ++ ·)

/-
  Writes the table of a directory, and removes what was
  written when a file has no rows for it.
-/
def run
    (directory : Path)
    (t : FileTree) :
    Except StoreFault (Option Consolidation) × FileTree :=
  match csvFiles directory t with
  | .error f => (.error f, t)
  | .ok [] => (.ok none, t)
  | .ok files =>
      let path := directory.join fileName
      match t.writeFile? path (.table []) with
      | none => (.error (.create path), t.removeFile path)
      | some opened =>
          match collect directory files with
          | .error f => (.error f, opened.removeFile path)
          | .ok rows =>
              (.ok
                (some
                  { path := path
                    files := files.length
                    rows := rows.length }),
                (opened.writeFile? path (.table rows)).getD opened)

end Consolidation

end TradeTape
