import TabFormat.Text.RunTable
import TabFormat.Text.Script.Table

/-!
# Scripts

Every character belongs to one script, named by a code of four letters and by a long name. The
characters that several scripts use are in the scripts Common and Inherited.
-/

namespace TabFormat.Text

/-- The scripts of all characters. -/
def scriptTable : RunTable :=
  .ofRuns scriptRuns

/-- The code of the script of a character. -/
def script (c : Char) : String :=
  scriptTable.code c

end TabFormat.Text
