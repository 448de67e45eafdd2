import TabFormat.CommandLine.Options
import TabFormat.File
import TabFormat.Log
import TabFormat.Report

/-!
# Running a command line

What a command line does depends on the files, on the standard input and on the time, which are
given by functions in any monad. The result is what is printed and the exit code.
-/

namespace TabFormat.CommandLine

/-- What a command line can see of the world. -/
structure Surroundings (m : Type → Type) where
  /-- The contents of the file at a path. -/
  fileAt : Text → m Contents
  /-- The contents of the standard input, unless it is a terminal. -/
  input : m (Option Contents)
  /-- The seconds since the start of 1970. -/
  seconds : m Int

/-- What comes of a command line. -/
structure Outcome where
  /-- What is printed to the standard output. -/
  output : Text := []
  /-- What is printed to the standard error output. -/
  errors : Text := []
  /-- The exit code. -/
  code : UInt32 := 0
deriving DecidableEq, Repr

namespace Outcome

/-- The outcome with a text printed to the standard error output before all else. -/
def after (errors : Text) (outcome : Outcome) : Outcome :=
  { outcome with errors := errors ++ outcome.errors }

/-- The outcome of a failure that is explained by a line. -/
def failure (line : Text) : Outcome where
  errors := line ++ ['\n']
  code := 1

end Outcome

/-- The formats with their positions, one on each line. -/
def listing (formats : List LabelledFormat) : Text :=
  formats.zipIdx.flatMap fun (f, i) =>
    Text.ofNat (i + 1) ++ '.' :: ' ' :: f.label ++ '\t' :: f.template ++ ['\n']

/-- The name of the template in reports. -/
def templateName : Text := "<template>".toList

/-- How the log is written: which entries are shown, and at which time. -/
structure Journal where
  /-- Which entries are shown. -/
  filter : LogFilter
  /-- The time. -/
  time : CivilTime
deriving DecidableEq, Repr

/-- Writes entries. -/
def Journal.write (journal : Journal) (entries : List LogEntry) : Text :=
  LogEntry.lines journal.filter journal.time entries

/-- Looks for faults in a template. -/
def checked (journal : Journal) (template : Text) (settings : Settings) : Outcome :=
  let run := checkTemplate template settings
  Outcome.after (journal.write (run.warnings.map fun w => (Warning.ignored w).entry)) <|
    match run.outcome with
    | .error (.malformed e) => { errors := e.report template templateName, code := 1 }
    | .ok _ => { output := "OK\n".toList }

/-- Formats tabs, as rich text if that is asked for and there is any. -/
def formatted (journal : Journal) (template : Text) (settings : Settings) (times : Times)
    (rich : Bool) (tabs : List Tab) : Outcome :=
  let item := formatTabs template settings times tabs
  { output :=
      match rich, item.formatted.rich with
      | true, some text => text ++ ['\n']
      | _, _ => item.formatted.plain
    errors := journal.write (item.warnings.map Warning.entry) }

namespace Options

/-- The filter of the log, and what is said if its name is not known. -/
def logFilter (o : Options) : LogFilter × Text :=
  match LogFilter.ofName? o.logLevel with
  | some filter => (filter, [])
  | none =>
    (.upTo .warn,
      "Invalid log level: ".toList ++ o.logLevel ++ ". Using 'warn' instead.\n".toList)

/-- The settings that apply: the configured ones, unless the options say otherwise. -/
def settings (o : Options) (configured : Settings) : Settings :=
  { configured with
    useCrlf := o.crlf || configured.useCrlf
    maxDepth := o.maxDepth.getD configured.maxDepth }

/-- The template that is chosen, or why there is none. -/
def chosenTemplate (o : Options) (config : Config) : Except Text Text :=
  match o.template, config.format? o.format with
  | some template, _ => .ok template
  | none, some f => .ok f.template
  | none, none => .error (Config.unknownFormatMessage o.format)

variable {m : Type → Type} [Monad m]

/-- The configuration that applies, or why there is none. -/
def loadConfig (s : Surroundings m) (o : Options) : m (Except Text Config) := do
  match o.config with
  | none => return .ok .stock
  | some path =>
    return (Config.readContents (← s.fileAt path)).mapError fun e =>
      "Error loading config '".toList ++ path ++ "': ".toList ++ e.message

/-- The tabs that are to be formatted, or why there are none. They come from the file, or in JSON
from the standard input. -/
def loadTabs (s : Surroundings m) (o : Options) : m (Except Text (List Tab)) := do
  match o.tabs with
  | some path =>
    return (Tab.readContents path (← s.fileAt path)).mapError fun e =>
      '\'' :: path ++ "': ".toList ++ e.message
  | none =>
    match ← s.input with
    | none => return .error "no records file given and stdin is a terminal".toList
    | some contents =>
      match contents.text with
      | .error e => return .error ("reading from stdin: ".toList ++ e.message)
      | .ok text => return (Tab.readText .json text).mapError TabsFailure.message

/-- Formats the tabs with a template. -/
def formatLoaded (s : Surroundings m) (o : Options) (journal : Journal) (template : Text)
    (settings : Settings) (times : Times) : m Outcome := do
  match ← o.loadTabs s with
  | .error message =>
    return (Outcome.failure ("Error: ".toList ++ message)).after
      (journal.write [⟨.error, "Failed to load records", [("error", message)]⟩])
  | .ok tabs =>
    return (formatted journal template settings times o.rich tabs).after
      (journal.write [⟨.info, "Loaded records", [("count", Text.ofNat tabs.length)]⟩])

/-- Does what the options ask for. -/
def run (s : Surroundings m) (o : Options) : m Outcome := do
  let seconds ← s.seconds
  let (filter, complaint) := o.logFilter
  let journal : Journal := ⟨filter, .ofSeconds seconds⟩
  let outcome ←
    match ← o.loadConfig s with
    | .error message => pure (Outcome.failure message)
    | .ok config =>
      if o.listFormats then pure { output := listing config.formats }
      else
        match o.chosenTemplate config with
        | .error message => pure (Outcome.failure ("Error: ".toList ++ message))
        | .ok template =>
          let settings := o.settings config.settings
          let selected := journal.write [⟨.info, "Selected template", [("template", template)]⟩]
          if o.check then pure ((checked journal template settings).after selected)
          else do
            let outcome ← o.formatLoaded s journal template settings (.ofSeconds seconds)
            pure (outcome.after selected)
  return outcome.after complaint

end Options

/-- How the command line is used. -/
def usage : Text :=
  "Usage: tabformat [OPTIONS] [RECORDS]

Formats browser tabs as text.

Arguments:
  [RECORDS]  File with the tabs, JSON or TOML (JSON from standard input if not given)

Options:
  -c, --config <FILE>      Configuration file
  -f, --format <NAME>      Format, by label or position [default: 1]
  -t, --template <TEXT>    Template, instead of a format
      --crlf               Use CRLF line endings
      --max-depth <DEPTH>  Maximum nesting of placeholders
      --check              Report faults in the template and exit
      --list-formats       List the formats and exit
      --rich               Print rich text if there is any
      --log-level <LEVEL>  Log level (off, error, warn, info, debug, trace) [default: warn]
  -h, --help               Print help
".toList

/-- Runs a command line. A command line that is not understood has an exit code of its own. -/
def run {m : Type → Type} [Monad m] (s : Surroundings m) (arguments : List Text) : m Outcome :=
  match Request.ofArguments arguments with
  | .error _ => pure { errors := usage, code := 2 }
  | .ok .help => pure { output := usage }
  | .ok (.run o) => o.run s

end TabFormat.CommandLine
