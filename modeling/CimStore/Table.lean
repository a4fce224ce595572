import CimStore.Text.Cut
import CimStore.Text.Width

/-!
# Tables of text

`Table.render` draws a heading and rows of cells in a box with round corners. A column is as wide
as its widest line, in columns of a terminal; a cell of several lines makes its row that much
higher. All cells stand at the left. Without rows the line under the heading ends the table.
-/

namespace CimStore.Table

/-- The lines of a cell. -/
def lines (cell : String) : List (List Char) := Text.splitAt '\n' cell.toList

/-- The width of the widest line of a cell. -/
def cellWidth (cell : String) : Nat := ((lines cell).map Text.columns).foldl max 0

/-- The widths of the columns: in each, that of the widest cell. -/
def widths : List (List String) → List Nat
  | [] => []
  | [row] => row.map cellWidth
  | row :: rows => List.zipWith (fun cell w => max (cellWidth cell) w) row (widths rows)

/-- Blanks after a line up to a width, and one blank on either side. -/
def pad (width : Nat) (line : List Char) : List Char :=
  ' ' :: (line ++ List.replicate (width - Text.columns line) ' ' ++ [' '])

/-- Parts between a left and a right end, with a mark between two parts. -/
def between (left mark right : Char) (parts : List (List Char)) : List Char :=
  left :: (parts.intersperse [mark]).flatten ++ [right]

/-- A horizontal line across all columns. -/
def rule (left mark right : Char) (ws : List Nat) : List Char :=
  between left mark right (ws.map fun w => List.replicate (w + 2) '─')

/-- The lines of a row, as many as its highest cell has. -/
def rowLines (ws : List Nat) (row : List String) : List (List Char) :=
  let cells := row.map lines
  (List.range ((cells.map List.length).foldl max 0)).map fun i =>
    between '│' '│' '│' (List.zipWith (fun w cell => pad w (cell[i]?.getD [])) ws cells)

/-- The lines of a table. -/
def renderLines (heading : List String) (rows : List (List String)) : List (List Char) :=
  let ws := widths (heading :: rows)
  rule '╭' '┬' '╮' ws :: rowLines ws heading ++
    rule '├' '┼' '┤' ws :: rows.flatMap (rowLines ws) ++
    (if rows.isEmpty then [] else [rule '╰' '┴' '╯' ws])

/-- A heading and rows in a box. -/
def render (heading : List String) (rows : List (List String)) : String :=
  String.ofList ((renderLines heading rows).intersperse ['\n']).flatten

/-- A table of values by label; nothing at all if there are none. -/
def metrics (rows : List (String × String)) : String :=
  if rows.isEmpty then "" else render ["Metric", "Value"] (rows.map fun r => [r.1, r.2])

end CimStore.Table
