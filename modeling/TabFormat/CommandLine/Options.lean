import TabFormat.Text.Digits

/-!
# Command-line options

A command line consists of options, which begin with a hyphen, and of at most one operand, the file
with the tabs. The value of an option follows in the same argument, after an equals sign or, for a
short option, at once, or it is the next argument. No option may be given twice. After the argument
`--` there are only operands.
-/

namespace TabFormat.CommandLine

/-- The options by name. -/
inductive Switch where
  /-- The file with the configuration. -/
  | config
  /-- The format, by label or position. -/
  | format
  /-- The template, instead of a format. -/
  | template
  /-- Lines end with a carriage return and a line feed. -/
  | crlf
  /-- The deepest nesting of placeholders. -/
  | maxDepth
  /-- Looks for faults in the template only. -/
  | check
  /-- Lists the formats only. -/
  | listFormats
  /-- Prints rich text if there is any. -/
  | rich
  /-- Which entries of the log are shown. -/
  | logLevel
  /-- Explains the options. -/
  | help
deriving DecidableEq, Repr

namespace Switch

/-- The options with their long names. -/
def names : List (String × Switch) :=
  [("config", config), ("format", format), ("template", template), ("crlf", crlf),
   ("max-depth", maxDepth), ("check", check), ("list-formats", listFormats), ("rich", rich),
   ("log-level", logLevel), ("help", help)]

/-- The option of a long name. -/
def ofName? (name : Text) : Option Switch :=
  (names.find? fun entry => entry.1.toList == name).map Prod.snd

/-- The option of a letter. -/
def ofLetter? : Char → Option Switch
  | 'c' => some config
  | 'f' => some format
  | 't' => some template
  | 'h' => some help
  | _ => none

/-- Whether the option has a value. -/
def takesValue : Switch → Bool
  | config | format | template | maxDepth | logLevel => true
  | crlf | check | listFormats | rich | help => false

end Switch

/-- What is wrong with a command line. -/
inductive UsageError where
  /-- There is no such option. -/
  | unknown (argument : Text)
  /-- The value of an option is missing. -/
  | missingValue (s : Switch)
  /-- An option without a value has one. -/
  | unexpectedValue (s : Switch)
  /-- An option is given twice. -/
  | repeated (s : Switch)
  /-- The value of an option cannot be used. -/
  | unusableValue (s : Switch) (value : Text)
  /-- The operand cannot be used, or is not the only one. -/
  | unusableOperand (argument : Text)
deriving DecidableEq, Repr

/-- What a command line asks for. -/
structure Options where
  /-- The file with the tabs. -/
  tabs : Option Text := none
  /-- The file with the configuration. -/
  config : Option Text := none
  /-- The format, by label or position. -/
  format : Text := ['1']
  /-- The template, instead of a format. -/
  template : Option Text := none
  /-- Whether lines end with a carriage return and a line feed, whatever is configured. -/
  crlf : Bool := false
  /-- The deepest nesting of placeholders, instead of the configured one. -/
  maxDepth : Option Nat := none
  /-- Whether faults in the template are looked for only. -/
  check : Bool := false
  /-- Whether the formats are listed only. -/
  listFormats : Bool := false
  /-- Whether rich text is printed if there is any. -/
  rich : Bool := false
  /-- The name of the log level. -/
  logLevel : Text := "warn".toList
deriving DecidableEq, Repr

namespace Options

/-- The options with one more, which has a value if it takes one. -/
def set (o : Options) (s : Switch) (value : Text) : Except UsageError Options :=
  match s with
  | .config =>
    if value.isEmpty then .error (.unusableValue s value) else .ok { o with config := some value }
  | .format => .ok { o with format := value }
  | .template => .ok { o with template := some value }
  | .crlf => .ok { o with crlf := true }
  | .maxDepth =>
    match value.natural? with
    | some n =>
      if n ≤ Text.wordLimit then .ok { o with maxDepth := some n }
      else .error (.unusableValue s value)
    | none => .error (.unusableValue s value)
  | .check => .ok { o with check := true }
  | .listFormats => .ok { o with listFormats := true }
  | .rich => .ok { o with rich := true }
  | .logLevel => .ok { o with logLevel := value }
  | .help => .ok o

/-- The options with the operand. -/
def withOperand (o : Options) (argument : Text) : Except UsageError Options :=
  if argument.isEmpty || o.tabs.isSome then .error (.unusableOperand argument)
  else .ok { o with tabs := some argument }

end Options

/-- An argument by its form. -/
inductive Argument where
  /-- The argument `--`. -/
  | separator
  /-- An option, with the value in the same argument if there is one. -/
  | switch (s : Switch) (value : Option Text)
  /-- Something like an option. -/
  | unknown
  /-- Anything else. -/
  | operand
deriving DecidableEq, Repr

/-- The form of an argument. -/
def Argument.ofText : Text → Argument
  | ['-', '-'] => separator
  | '-' :: '-' :: body =>
    match Switch.ofName? (body.takeWhile (· != '=')) with
    | some s => switch s ((body.dropWhile (· != '=')).tail?)
    | none => unknown
  | ['-', letter] =>
    match Switch.ofLetter? letter with
    | some s => switch s none
    | none => unknown
  | '-' :: letter :: body =>
    match Switch.ofLetter? letter with
    | some s => switch s (some (if body.head? = some '=' then body.tail else body))
    | none => unknown
  | _ => operand

/-- What a command line asks for. -/
inductive Request where
  /-- To explain the options. -/
  | help
  /-- To format tabs. -/
  | run (o : Options)
deriving DecidableEq, Repr

/-- Reads arguments one after another. `seen` are the options that came before. -/
def readArguments (o : Options) (seen : List Switch) : List Text → Except UsageError Request
  | [] => .ok (.run o)
  | argument :: rest =>
    match Argument.ofText argument with
    | .separator => (rest.foldlM Options.withOperand o).map .run
    | .unknown => .error (.unknown argument)
    | .operand => do readArguments (← o.withOperand argument) seen rest
    | .switch .help _ => .ok .help
    | .switch s value =>
      if seen.contains s then .error (.repeated s)
      else if s.takesValue then
        match value, rest with
        | some value, rest => do readArguments (← o.set s value) (s :: seen) rest
        | none, value :: rest =>
          if Argument.ofText value = .operand then do
            readArguments (← o.set s value) (s :: seen) rest
          else .error (.missingValue s)
        | none, [] => .error (.missingValue s)
      else
        match value with
        | some _ => .error (.unexpectedValue s)
        | none => do readArguments (← o.set s []) (s :: seen) rest

/-- What the arguments of a command line ask for. -/
def Request.ofArguments (arguments : List Text) : Except UsageError Request :=
  readArguments {} [] arguments

end TabFormat.CommandLine
