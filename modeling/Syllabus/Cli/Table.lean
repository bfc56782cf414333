import Syllabus.Text.Columns

/-!
# Syllabus: tables in a terminal

Rows of cells in a frame with round corners and a line below the first row. Every column is as wide
as its widest line; a cell may have several lines.
-/

namespace Syllabus.Cli.Table

def cellLines (cell : String) : List (List Char) := cell.toList.splitOn '\n'

def cellWidth (cell : String) : Nat :=
  (cellLines cell).foldl (fun width line => max width (Text.columns line)) 0

def widths (rows : List (List String)) : List Nat :=
  match rows with
  | [] => []
  | first :: rest =>
    rest.foldl (fun widths row => List.zipWith max widths (row.map cellWidth))
      (first.map cellWidth)

def rule (left middle right : String) (widths : List Nat) : String :=
  let lines := widths.map fun width => String.ofList (List.replicate (width + 2) '─')
  left ++ middle.intercalate lines ++ right

def pad (width : Nat) (line : List Char) : String :=
  -- A cell has a blank on either side, and more of them up to the width of its column.
  " " ++ .ofList (line ++ List.replicate (width - Text.columns line) ' ') ++ " "

def rowLines (widths : List Nat) (row : List String) : List String :=
  let cells := row.map cellLines
  -- A row has at least one line, even where all of its cells are empty.
  let height := cells.foldl (fun height lines => max height lines.length) 1
  (List.range height).map fun i =>
    let line := List.zipWith (fun width lines => pad width (lines.getD i [])) widths cells
    "│" ++ "│".intercalate line ++ "│"

/-- The lines of a table with a row of titles. -/
def render (titles : List String) (rows : List (List String)) : List String :=
  let widths := widths (titles :: rows)
  -- Only the row of titles is set off from what follows.
  rule "╭" "┬" "╮" widths :: rowLines widths titles
    ++ rule "├" "┼" "┤" widths :: rows.flatMap (rowLines widths)
    ++ [rule "╰" "┴" "╯" widths]

end Syllabus.Cli.Table
