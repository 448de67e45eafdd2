import TabFormat.Text.Basic

/-!
# Tables of runs

A property that gives every code point a code is written as the list of its runs: a code in letters
and the number of consecutive code points that have it. Read into the starts of the runs, such a
table is searched by halving.
-/

namespace TabFormat.Text

/-- The runs of a table: where each one starts, and the code of its code points. -/
structure RunTable where
  /-- The first code point of each run, in ascending order. -/
  starts : Array Nat := #[]
  /-- The code of each run. -/
  codes : Array String := #[]

namespace RunTable

/-- A table while it is read: the runs before the current one, and the letters and the length of
the current one. -/
structure Reading where
  /-- The finished runs. -/
  table : RunTable := {}
  /-- The first code point of the current run. -/
  start : Nat := 0
  /-- The letters of the current run, last one first. -/
  letters : List Char := []
  /-- The length of the current run, or nothing before its first digit. -/
  length : Option Nat := none

namespace Reading

/-- Finishes the current run. -/
def close (r : Reading) : Reading :=
  match r.length with
  | none => r
  | some n =>
    { table :=
        { starts := r.table.starts.push r.start
          codes := r.table.codes.push (String.ofList r.letters.reverse) }
      start := r.start + n }

/-- Reads one more character: a digit lengthens the run, a letter after a digit starts another. -/
def read (r : Reading) (c : Char) : Reading :=
  if c.isDigit then
    { r with length := some (10 * r.length.getD 0 + (c.toNat - '0'.toNat)) }
  else
    let next := r.close
    { next with letters := c :: next.letters }

end Reading

/-- The table that is written as runs of letters and digits, in several lines. -/
def ofRuns (lines : List String) : RunTable :=
  (lines.foldl (fun reading line => String.foldl Reading.read reading line) {}).close.table

/-- The index of the last run among those from `lo` on and before `hi` that starts at or before a
code point, if the first of them does. -/
def search (t : RunTable) (n lo hi : Nat) : Nat :=
  if lo + 1 < hi then
    let middle := (lo + hi) / 2
    if t.starts.getD middle 0 ≤ n then t.search n middle hi else t.search n lo middle
  else lo
termination_by hi - lo

/-- The code of a character. -/
def code (t : RunTable) (c : Char) : String :=
  t.codes.getD (t.search c.toNat 0 t.starts.size) ""

end RunTable

end TabFormat.Text
