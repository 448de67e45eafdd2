import TabFormat.Template.Fault
import TabFormat.Text.Blank
import TabFormat.Text.Columns
import TabFormat.Text.Line

/-!
# Reports

A report shows a fault in its template, for a terminal with colours: a headline, the place, the
lines that the fault concerns with a margin of line numbers, and below them an arrow to the message.
A fault within one line is underlined; one that spans several lines is bracketed at the margin, and
the lines in between are left out.
-/

namespace TabFormat

/-- A half-open range of character positions. -/
structure Stretch where
  /-- The position of the first character. -/
  start : Nat
  /-- The position just past the last character. -/
  stop : Nat
deriving DecidableEq, Repr

namespace Stretch

/-- Whether a position lies in the range. -/
def contains (r : Stretch) (position : Nat) : Bool :=
  r.start ≤ position && position < r.stop

/-- The position of the last character, or of the first one if there are none. -/
def last (r : Stretch) : Nat :=
  max (r.stop - 1) r.start

end Stretch

/-- The characters of a range of bytes. A position inside a character counts as the start of that
character, and a position beyond the end as the end. -/
def Span.stretch (source : Text) (span : Span) : Stretch where
  start := (source.upTo span.start).length
  stop := (source.upTo span.stop).length

namespace Report

/-- The colours of a report. -/
inductive Ink where
  /-- For the fault. -/
  | fault
  /-- For the margin. -/
  | margin
  /-- For the margin beside lines that are not of the template. -/
  | faint
  /-- For the text around the fault. -/
  | around
deriving DecidableEq, Repr

/-- The code of a colour on a terminal. -/
def Ink.code : Ink → String
  | fault => "31"
  | margin => "38;5;246"
  | faint => "38;5;240"
  | around => "38;5;249"

/-- A text in a colour. -/
def paint (ink : Ink) (s : Text) : Text :=
  "\x1b[".toList ++ ink.code.toList ++ 'm' :: s ++ "\x1b[0m".toList

/-- So many spaces. -/
def spaces (n : Nat) : Text :=
  List.replicate n ' '

/-- The character that is drawn for the one at index `i` of a line, and the number of its columns. A
tab reaches to the next multiple of four characters, and other white space is drawn as a space. -/
def drawn (c : Char) (i : Nat) : Char × Nat :=
  if c = '\t' then (' ', (i / 4 + 1) * 4 - i)
  else if Text.isBlank c then (' ', 1)
  else (c, Text.columns c)

/-- The widths of the first `n` characters of a line. Beyond its end they are 1. -/
def widths (line : Text) (n : Nat) : List Nat :=
  ((line.zipIdx.map fun (c, i) => (drawn c i).2) ++ List.replicate n 1).take n

/-- A cell that takes so many columns: its first one and all others. -/
def cell (width : Nat) (first other : Text) : Text :=
  match width with
  | 0 => []
  | n + 1 => first ++ (List.replicate n other).flatten

/-- The rows below a line are made of a cell for each of its first `n` characters. -/
def row (line : Text) (n : Nat) (draw : Nat → Text × Text) : Text :=
  (widths line n).zipIdx.flatMap fun (width, i) => cell width (draw i).1 (draw i).2

/-- A cell in the colour of the fault. -/
def inked (first other : Char) : Text × Text :=
  (paint .fault [first], paint .fault [other])

/-- A line of the template, without the white space at its end. The characters of the fault stand
out. -/
def sourceLine (r : Stretch) (line : Text.Line) : Text :=
  line.text.trimEnd.zipIdx.flatMap fun (c, i) =>
    let (shown, width) := drawn c i
    let painted := paint (if r.contains (line.start + i) then .fault else .around) [shown]
    if shown = ' ' then (List.replicate width painted).flatten else painted

/-- The margin beside a line of the template. Numbers take `width` columns. -/
def numbered (width : Nat) (line : Text.Line) : Text :=
  ' ' :: paint .margin ((Text.ofNat line.number).leftpad width ' ' ++ [' ', '│']) ++ [' ']

/-- The margin beside other lines. -/
def unnumbered (width : Nat) (bar : Char) : Text :=
  ' ' :: paint .faint (spaces (width + 1) ++ [bar]) ++ [' ']

/-- The rows for a fault within a line. The arrow starts in its middle. -/
def inlineRows (width : Nat) (r : Stretch) (line : Text.Line) (message : Text) : List Text :=
  let anchor := (r.start + r.stop) / 2 - line.start
  let reach := r.stop - line.start + 2
  let underline i :=
    if i = anchor then
      if r.contains (line.start + i) then inked '┬' '─' else inked '│' ' '
    else if r.contains (line.start + i) then inked '─' '─'
    else ([' '], [' '])
  let arrow i :=
    if i = anchor then inked '╰' '─' else if anchor < i then inked '─' '─' else ([' '], [' '])
  [numbered width line ++ sourceLine r line,
   unnumbered width '│' ++ row line.text.trimEnd reach underline,
   unnumbered width '│' ++ row line.text.trimEnd reach arrow ++ ' ' :: message]

/-- The bracket at the margin beside the first or the last line of a fault. -/
def bracket (corner : Char) : Text :=
  [corner, '─', '▶', ' '].flatMap fun c => paint .fault [c]

/-- The rows for a fault from one line to another. The arrow starts at the margin. -/
def bracketedRows (width : Nat) (r : Stretch) (first last : Text.Line) (message : Text) :
    List Text :=
  let reach := last.text.length + 2
  [numbered width first ++ bracket '╭' ++ sourceLine r first] ++
    (if first.number + 1 < last.number then
      [unnumbered width '┆' ++ paint .fault ['┆'] ++ spaces 3]
    else []) ++
    [numbered width last ++ bracket '├' ++ sourceLine r last,
     unnumbered width '│' ++ paint .fault ['│'] ++ spaces 3 ++
      row last.text.trimEnd reach fun _ => ([' '], [' ']),
     unnumbered width '│' ++ (['╰', '─', '─', '─'].flatMap fun c => paint .fault [c]) ++
      (row last.text.trimEnd reach fun _ => inked '─' '─') ++ ' ' :: message]

/-- The rows that show where the message belongs. An empty template has none. -/
def placeRows (source filename : Text) (r : Stretch) (message : Text) : List Text :=
  match source.lineAt? r.start, source.lineAt? r.last with
  | some first, some last =>
    let width := (Text.ofNat last.number).length
    let place := Text.join [':'] [filename, Text.ofNat first.number,
      Text.ofNat (r.start - first.start + 1)]
    [spaces (width + 2) ++ (['╭', '─', '['].flatMap fun c => paint .margin [c]) ++ place ++
        paint .margin [']'],
      spaces (width + 2) ++ paint .margin ['│']] ++
      (if first.number = last.number then inlineRows width r first message
        else bracketedRows width r first last message) ++
      [paint .margin (List.replicate (width + 2) '─' ++ ['╯'])]
  | _, _ => []

end Report

/-- The report of a fault in a template, which is called `filename`. -/
def Template.SyntaxError.report (e : SyntaxError) (source filename : Text) : Text :=
  let headline := Report.paint .fault "Error:".toList ++ ' ' :: e.fault.headline
  (headline :: Report.placeRows source filename (e.span.stretch source) e.fault.headline).flatMap
    fun line => line ++ ['\n']

end TabFormat
