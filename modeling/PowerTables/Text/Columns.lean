import PowerTables.Text.Blank
import PowerTables.Text.Width

/-!
# Aligned columns

A text whose lines are cells with tabs between them is set in columns.  Every cell but the last
one of its line is filled up with blanks, so that the cells of neighbouring lines stand under
each other; a line with fewer cells ends a column.

## Main definitions

* `Text.cellWidth` : the width that a cell is filled up to.
* `Text.aligned` : the text in columns.
-/

namespace PowerTables.Text

/-- The least width of a column. -/
def leastWidth : Nat := 2

/-- The number of blanks between two columns. -/
def columnGap : Nat := 2

/-- Whether a line has a cell in a column with another one after it. -/
def isFilled (column : Nat) (line : List (List Char)) : Bool := column + 1 < line.length

/-- The greatest width in a column of the lines at the front that have a filled cell there. -/
def frontWidth (column : Nat) (lines : List (List (List Char))) : Nat :=
  (lines.takeWhile (isFilled column)).foldl (fun w line =>
    max w (width (line.getD column []))) leastWidth

/-- The width of the cell in a column of one line, between the lines above it, the nearest
first, and those below. -/
def cellWidth (above : List (List (List Char))) (line : List (List Char))
    (below : List (List (List Char))) (column : Nat) : Nat :=
  max (frontWidth column above) (frontWidth column (line :: below))

/-- A cell filled up to a width, with the gap after it. -/
def fillTo (w : Nat) (cell : List Char) : List Char :=
  cell ++ List.replicate (w - width cell + columnGap) ' '

/-- One line in columns. -/
def alignLine (above : List (List (List Char))) (line : List (List Char))
    (below : List (List (List Char))) : List Char :=
  line.zipIdx.flatMap fun (cell, column) =>
    if isFilled column line then fillTo (cellWidth above line below column) cell else cell

/-- Lines in columns, below some lines, the nearest first. -/
def alignLines (above : List (List (List Char))) : List (List (List Char)) → List (List Char)
  | [] => []
  | line :: below => alignLine above line below :: alignLines (line :: above) below

/-- The text of some lines in columns. -/
def aligned (lines : List String) : String :=
  let cells := lines.map fun line => splitChars '\t' line.toList
  joinWith "\n" ((alignLines [] cells).map String.ofList)

/-- The text in columns; every line is made of cells. -/
def table (rows : List (List String)) : String :=
  aligned (split '\n' (String.join (rows.map fun cells => joinWith "\t" cells ++ "\n")))

end PowerTables.Text
