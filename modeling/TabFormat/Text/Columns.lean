import TabFormat.Text.Columns.Table
import TabFormat.Text.RunTable

/-!
# Column widths

The number of columns that a character takes where all characters have a multiple of one width, as
on a terminal. Control characters count as one column.
-/

namespace TabFormat.Text

/-- The table of the column widths. -/
def columnTable : RunTable := .ofRuns columnRuns

/-- The number of columns that a character takes. -/
def columns (c : Char) : Nat :=
  match columnTable.code c with
  | "Z" => 0
  | "W" => 2
  | "T" => 3
  | _ => 1

end TabFormat.Text
