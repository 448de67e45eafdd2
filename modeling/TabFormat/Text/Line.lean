import TabFormat.Text.Basic

/-!
# Lines of a text

A text is split into lines after each line end; a carriage return and a line feed are one line end
together.
-/

namespace TabFormat.Text

/-- Whether the character ends a line. -/
def isLineEnd (c : Char) : Bool :=
  ['\n', '\x0b', '\x0c', '\r', '\u0085', '\u2028', '\u2029'].contains c

/-- The lines of a text with their line ends. -/
def lines : Text → List Text
  | [] => []
  | '\r' :: '\n' :: s => ['\r', '\n'] :: lines s
  | c :: s =>
    if isLineEnd c then [c] :: lines s
    else
      match lines s with
      | [] => [[c]]
      | line :: rest => (c :: line) :: rest

/-- A line of a text, with its place in the text. -/
structure Line where
  /-- The number of the line, from 1 on. -/
  number : Nat
  /-- The number of characters before it. -/
  start : Nat
  /-- The line with its line end. -/
  text : Text
deriving DecidableEq, Repr

/-- Lines with their places, of which the first one has the given number and so many characters
before it. -/
def placed (number start : Nat) : List Text → List Line
  | [] => []
  | line :: rest => ⟨number, start, line⟩ :: placed (number + 1) (start + line.length) rest

/-- The line around a character position: the last one that starts at or before it. -/
def lineAt? (s : Text) (position : Nat) : Option Line :=
  ((placed 1 0 (lines s)).takeWhile fun line => line.start ≤ position).getLast?

end TabFormat.Text
