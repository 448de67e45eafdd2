import TabFormat.Format
import TabFormat.Text.Case

/-!
# The log

What happens while tabs are formatted is noted in a log. An entry has a level, a message and named
values. Entries that are less grave than the chosen level are left out.
-/

namespace TabFormat

/-- How grave an entry is. -/
inductive LogLevel where
  /-- The work cannot be done. -/
  | error
  /-- The result may not be what was meant. -/
  | warn
  /-- A step of the work. -/
  | info
  /-- A detail. -/
  | debug
  /-- A minute detail. -/
  | trace
deriving DecidableEq, Repr

namespace LogLevel

/-- The levels with their names, the gravest first. -/
def names : List (String × LogLevel) :=
  [("error", error), ("warn", warn), ("info", info), ("debug", debug), ("trace", trace)]

/-- The name of a level, in capitals. -/
def label : LogLevel → String
  | error => "ERROR"
  | warn => "WARN"
  | info => "INFO"
  | debug => "DEBUG"
  | trace => "TRACE"

/-- The place of a level among all levels, the gravest first. -/
def rank (level : LogLevel) : Nat :=
  names.findIdx fun entry => entry.2 == level

end LogLevel

/-- Which entries are shown. -/
inductive LogFilter where
  /-- None. -/
  | off
  /-- Those of a level and the graver ones. -/
  | upTo (level : LogLevel)
deriving DecidableEq, Repr

namespace LogFilter

/-- The filter of a name, whose case does not matter. -/
def ofName? (name : Text) : Option LogFilter :=
  if Text.eqIgnoringCase name "off".toList then some off
  else (LogLevel.names.find? fun entry => Text.eqIgnoringCase name entry.1.toList).map
    fun entry => .upTo entry.2

/-- Whether entries of a level are shown. -/
def shows : LogFilter → LogLevel → Bool
  | off, _ => false
  | upTo limit, level => level.rank ≤ limit.rank

end LogFilter

/-- An entry of the log. -/
structure LogEntry where
  /-- How grave it is. -/
  level : LogLevel
  /-- What happened. -/
  message : String
  /-- The values concerned, with their names. -/
  values : List (String × Text) := []
deriving DecidableEq, Repr

namespace LogEntry

/-- The entry as it is written at a time. -/
def line (time : CivilTime) (entry : LogEntry) : Text :=
  '[' :: time.stamp ++ ' ' :: entry.level.label.toList.rightpad 5 ' ' ++
    " tabformat] ".toList ++ entry.message.toList ++
    (entry.values.flatMap fun v => ' ' :: v.1.toList ++ '=' :: v.2) ++ ['\n']

/-- The entries that a filter shows, as they are written at a time. -/
def lines (filter : LogFilter) (time : CivilTime) (entries : List LogEntry) : Text :=
  (entries.filter fun entry => filter.shows entry.level).flatMap (line time)

end LogEntry

/-- The entry for a warning. -/
def Warning.entry : Warning → LogEntry
  | ignored w =>
    { level := .warn
      message := "Ignoring text between placeholder arguments and closing '%'"
      values := [("name", w.name), ("text", w.text)] }
  | failed url reason =>
    { level := .warn
      message := "Failed to format record"
      values := [("url", url), ("error", reason)] }

end TabFormat
