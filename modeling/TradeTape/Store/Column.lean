import TradeTape.Number.Literal
import TradeTape.Number.Word
import TradeTape.Text.Named

/-
  Columns of typed cells.

  Key definitions include:
    * `ColumnType`
    * `Column`
    * `Cell`
    * `Column.cell?`
-/

namespace TradeTape

------------------------------------------------------------
-- Types
------------------------------------------------------------

/- The types of the cells of a column. -/
inductive ColumnType where
  | int8
  | int64
  | uint32
  | float64
  | utf8
deriving DecidableEq, Repr

instance : Named ColumnType where
  all := [.int8, .int64, .uint32, .float64, .utf8]
  name
    | .int8 => "Int8"
    | .int64 => "Int64"
    | .uint32 => "UInt32"
    | .float64 => "Float64"
    | .utf8 => "Utf8"

/- A column: its name, its type and whether it has gaps. -/
structure Column where
  name : String
  type : ColumnType
  nullable : Bool
deriving DecidableEq, Repr

------------------------------------------------------------
-- Cells
------------------------------------------------------------

/- What a table holds in one row of a column. -/
inductive Cell where
  | null
  | int (n : Int)
  | double (encoding : Nat)
  | text (s : String)
deriving DecidableEq, Repr

/- An integer between two bounds. -/
def Cell.intIn?
    (low high : Int)
    (cs : List Char) : Option Cell := do
  let n ← Digits.int? cs
  if low ≤ n ∧ n ≤ high then some (.int n) else none

/- A cell that is not empty. -/
def ColumnType.cell?
    (t : ColumnType)
    (cs : List Char) : Option Cell :=
  match t with
  | .int8 => Cell.intIn? (-128) 127 cs
  | .int64 => Cell.intIn? Word.int64Min Word.int64Max cs
  | .uint32 => Cell.intIn? 0 Word.uint32Max cs
  | .float64 => (Binary64.encoding? cs).map .double
  | .utf8 => some (.text (String.ofList cs))

/- The cell of a column that a text stands for. -/
def Column.cell?
    (c : Column)
    (cs : List Char) : Option Cell :=
  if cs = [] then
    if c.nullable then some .null else none
  else
    c.type.cell? cs

/- The row of cells that a record stands for. -/
def Column.row? :
    List Column → List (List Char) → Option (List Cell)
  | [], [] => some []
  | c :: columns, cs :: rest => do
      let cell ← c.cell? cs
      let row ← Column.row? columns rest
      some (cell :: row)
  | _, _ => none

end TradeTape
