/-
Tables drawn with box characters: rounded corners, a rule under the heading, and cells that start
at the left with one blank on each side. A column is as wide as its widest line; a cell of several
lines makes its row as high as it needs.
-/
import TeImage.Text.Numeral
import TeImage.Text.Width

namespace TeImage.Text

/-- The lines of a text, one more than it has line feeds. -/
def lines (s : String) : List (List Char) := s.toList.splitOn '\n'

structure Table where
  heading : List String
  /-- Each row has a cell for every column of the heading. -/
  rows : List (List String)

namespace Table

/-- The columns a cell takes. -/
def cellWidth (cell : String) : Nat := ((lines cell).map width).foldl max 0

/-- How wide each column is. -/
def columnWidths (t : Table) : List Nat :=
  (t.heading :: t.rows).foldl (fun widths row => widths.zipWith max (row.map cellWidth))
    (t.heading.map fun _ => 0)

/-- A line between rows. -/
def rule (left middle right : Char) (widths : List Nat) : List Char :=
  let bars := widths.map fun w => List.replicate (w + 2) '─'
  left :: [middle].intercalate bars ++ [right]

/-- One line of a cell, filled up to the width of its column. -/
def paddedLine (w : Nat) (line : List Char) : List Char :=
  ' ' :: line ++ List.replicate (w - width line) ' ' ++ [' ']

/-- The lines that a row takes. -/
def rowLines (widths : List Nat) (row : List String) : List (List Char) :=
  let cells := row.map lines
  let height := (cells.map List.length).foldl max 0
  (List.range height).map fun i =>
    let parts := widths.zipWith (fun w cell => paddedLine w (cell.getD i [])) cells
    '│' :: ['│'].intercalate parts ++ ['│']

/-- All lines of the table. -/
def render (t : Table) : List (List Char) :=
  let widths := t.columnWidths
  [rule '╭' '┬' '╮' widths] ++ rowLines widths t.heading ++ [rule '├' '┼' '┤' widths]
    ++ t.rows.flatMap (rowLines widths) ++ [rule '╰' '┴' '╯' widths]

end Table

end TeImage.Text
