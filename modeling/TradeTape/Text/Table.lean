import TradeTape.Text.Width

/-
  Tables in boxes with rounded corners.

  A column is as wide as the widest line in it.  A cell may
  have several lines; the row is then as high as its highest
  cell.

  Key definitions include:
    * `Table.lines`
    * `Table.render`
-/

namespace TradeTape

namespace Table

------------------------------------------------------------
-- Cells
------------------------------------------------------------

/- The lines of a text. -/
def lines : List Char → List (List Char)
  | [] => [[]]
  | c :: rest =>
      if c = '\n' then
        [] :: lines rest
      else
        match lines rest with
        | [] => [[c]]
        | line :: others => (c :: line) :: others

/- The width of the widest line of a text. -/
def textWidth (text : String) : Nat :=
  ((lines text.toList).map Width.columns).foldl max 0

/- A line filled with blanks to a width. -/
def fill
    (columns : Nat)
    (line : List Char) : List Char :=
  line ++ List.replicate (columns - Width.columns line) ' '

/- The greater of two widths, column by column. -/
def widest : List Nat → List Nat → List Nat
  | a :: as, b :: bs => max a b :: widest as bs
  | as, [] => as
  | [], bs => bs

/- The widths of the columns of some rows. -/
def columnWidths (rows : List (List String)) : List Nat :=
  rows.foldl (fun ws row => widest ws (row.map textWidth)) []

------------------------------------------------------------
-- Boxes
------------------------------------------------------------

/- A horizontal line between the columns. -/
def rule
    (left middle right : Char)
    (widths : List Nat) : List Char :=
  let dashes := widths.map fun w => List.replicate (w + 2) '─'
  left :: ([middle].intercalate dashes ++ [right])

/- One line of a row: the same line of each of its cells. -/
def rowLine
    (widths : List Nat)
    (row : List String)
    (i : Nat) : List Char :=
  let cell := fun (w : Nat) (text : String) =>
    ' ' :: fill w ((lines text.toList).getD i []) ++ [' ']
  '│' :: (['│'].intercalate (widths.zipWith cell row) ++ ['│'])

/- The lines of a row. -/
def rowLines
    (widths : List Nat)
    (row : List String) : List (List Char) :=
  let heights := row.map fun text => (lines text.toList).length
  (List.range (heights.foldl max 1)).map (rowLine widths row)

/- A table with a row of titles, without a final line break. -/
def render
    (titles : List String)
    (rows : List (List String)) : String :=
  let widths := columnWidths (titles :: rows)
  let text :=
    rule '╭' '┬' '╮' widths
      :: rowLines widths titles
      ++ rule '├' '┼' '┤' widths
      :: rows.flatMap (rowLines widths)
      ++ [rule '╰' '┴' '╯' widths]
  String.ofList (['\n'].intercalate text)

end Table

end TradeTape
