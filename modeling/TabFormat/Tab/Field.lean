import TabFormat.Builtin.Function
import TabFormat.Calendar
import TabFormat.Tab.Record

/-!
# Fields of a tab

A template that formats a tab can refer to the functions, to the fields of the tab and to the time.
A field that the tab lacks is empty.
-/

namespace TabFormat

open Template

/-- The time of a batch, as it is written in the two time fields. -/
structure Times where
  /-- The universal time. -/
  universal : Text
  /-- The local time. -/
  here : Text
deriving DecidableEq, Repr

/-- The times of a moment where local time is universal time. -/
def Times.ofSeconds (seconds : Int) : Times where
  universal := (CivilTime.ofSeconds seconds).header
  here := (CivilTime.ofSeconds seconds).plain

/-- What a template can refer to. -/
structure Context where
  /-- The tab. -/
  tab : Tab
  /-- The line ending. -/
  eol : Text
  /-- The time. -/
  times : Times
deriving DecidableEq, Repr

namespace Tab

/-- The units that a call for the indentation asks for: its arguments, or else the source text
between the parentheses, or else two spaces. There is at least one. -/
def indentUnits (call : Call) : List Text :=
  if !call.args.isEmpty then call.args
  else if !call.rawArgs.isEmpty then [call.rawArgs]
  else [[' ', ' ']]

/-- The unit of a level, counted from the innermost one. The last unit is used again for all levels
beyond. -/
def indentUnit (units : List Text) (level : Nat) : Text :=
  units.getD (min level (units.length - 1)) []

/-- The units of so many levels, the innermost one last. -/
def indentation (units : List Text) : Nat → Text
  | 0 => []
  | n + 1 => indentUnit units n ++ indentation units n

/-- The address by which a tab is opened in its container. -/
def containerUrl (tab : Tab) : Text :=
  match tab.container with
  | some container => "ext+container:name=".toList ++ container ++ "&url=".toList ++ tab.url
  | none => tab.url

end Tab

namespace Context

/-- What a field answers to a call. -/
def field (ctx : Context) (f : Field) (call : Call) : Text :=
  match f with
  | .richText | .ignored => []
  | .eol => ctx.eol
  | .url => ctx.tab.url
  | .title => ctx.tab.title
  | .containerName =>
    match ctx.tab.container with
    | some container => call.arg 0 ++ container ++ call.arg 1
    | none => []
  | .containerUrl => ctx.tab.containerUrl
  | .author => ctx.tab.author.getD []
  | .description => ctx.tab.description.getD []
  | .keywords => ctx.tab.keywords.getD []
  | .utcTime => ctx.times.universal
  | .localTime => ctx.times.here
  | .treeIndent => Tab.indentation (Tab.indentUnits call) ctx.tab.indentLevel

/-- What a known placeholder answers to a call. -/
def apply (ctx : Context) (b : Builtin) (call : Call) : Except ReplaceError Text :=
  match b with
  | .function f => f.apply call
  | .field f => .ok (ctx.field f call)

/-- What is answered to a call: the answer of a known placeholder, escaped for HTML if the name asks
for it, and every other placeholder as it was written. -/
def answer (ctx : Context) (call : Call) : Except ReplaceError Text :=
  match Builtin.lookup call.name with
  | some b => ctx.apply b call
  | none =>
    match Builtin.lookupHtmlSuffixed call.name with
    | some b => (ctx.apply b call).map Escape.html
    | none => .ok call.passthrough

/-- Answers the calls of known placeholders, and leaves every other placeholder as it was
written. -/
def resolver (ctx : Context) : Resolver ReplaceError := fun call =>
  (ctx.answer call).mapError .other

end Context

end TabFormat
