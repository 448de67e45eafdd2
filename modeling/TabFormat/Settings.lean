import TabFormat.Template.Expand

/-!
# Settings

The options that apply while tabs are formatted.
-/

namespace TabFormat

/-- What stands between the texts of two tabs. -/
inductive Delimiter where
  /-- The line ending, which also follows the last of several texts. -/
  | lineBreak
  /-- A space. -/
  | space
  /-- A tab character. -/
  | tab
deriving DecidableEq, Repr

/-- The names by which delimiters are chosen. -/
def Delimiter.names : List (String × Delimiter) :=
  [("line-break", lineBreak), ("space", space), ("tab", tab)]

/-- The delimiter of a name. -/
def Delimiter.ofName? (name : Text) : Option Delimiter :=
  (names.find? fun entry => entry.1.toList == name).map Prod.snd

/-- The options that apply while tabs are formatted. -/
structure Settings where
  /-- Whether lines end with a carriage return and a line feed, instead of a line feed alone. -/
  useCrlf : Bool := false
  /-- What stands between the texts of two tabs. -/
  delimiter : Delimiter := .lineBreak
  /-- The deepest nesting of placeholders. -/
  maxDepth : Nat := Template.defaultLimit
deriving DecidableEq, Repr

namespace Settings

/-- The line ending. -/
def eol (settings : Settings) : Text :=
  if settings.useCrlf then ['\r', '\n'] else ['\n']

/-- What stands between the texts of two tabs. -/
def separator (settings : Settings) : Text :=
  match settings.delimiter with
  | .lineBreak => settings.eol
  | .space => [' ']
  | .tab => ['\t']

end Settings

end TabFormat
