import ReplaceRules.Text.Columns

/-!
# Drawn tables

A table of texts drawn with lines and round corners. A column is as wide as its widest cell, measured in terminal columns;
cells are set to the left with one space on each side. A cell with several lines makes its row as high as it needs.
-/

namespace ReplaceRules

/-- A table of texts under a row of headings. -/
structure Grid where
  headings : List String
  rows : List (List String)

namespace Grid

/-- The lines of a cell. -/
def cellLines (cell : String) : List String := cell.splitOn "\n"

/-- The width of a cell: that of its widest line. -/
def cellWidth (cell : String) : Nat := ((cellLines cell).map columns).foldl max 0

/-- The width of each column. -/
def widths (g : Grid) : List Nat :=
  g.rows.foldl (fun ws row => List.zipWith max ws (row.map cellWidth)) (g.headings.map cellWidth)

/-- A text filled up with spaces to a width, with one space on each side. -/
def padded (width : Nat) (text : String) : String :=
  " " ++ text ++ String.ofList (List.replicate (width - columns text + 1) ' ')

/-- The lines of a row; a cell with fewer lines than the row is blank below them. -/
def rowLines (ws : List Nat) (row : List String) : List String :=
  let cells := row.map cellLines
  let height := (cells.map List.length).foldl max 1
  (List.range height).map fun i =>
    "│" ++ "│".intercalate (List.zipWith padded ws (cells.map fun lines => lines[i]?.getD "")) ++ "│"

/-- A line across the table with its ends and crossings. -/
def rule (ws : List Nat) (first crossing last : String) : String :=
  first ++ crossing.intercalate (ws.map fun w => String.ofList (List.replicate (w + 2) '─')) ++ last

/-- Draws a table. -/
def draw (g : Grid) : String :=
  let ws := g.widths
  "\n".intercalate
    (rule ws "╭" "┬" "╮" :: rowLines ws g.headings ++ rule ws "├" "┼" "┤" :: g.rows.flatMap (rowLines ws) ++
      [rule ws "╰" "┴" "╯"])

end Grid

end ReplaceRules
