import TabFormat.Settings
import TabFormat.Text.Blank
import TabFormat.Text.Case
import TabFormat.Text.Digits
import TabFormat.Toml.Excerpt
import TabFormat.Toml.Reader

/-!
# Configuration

A configuration names the formats on offer and holds the settings. It is read from a TOML document;
what the document leaves out is taken from the stock configuration. A format is chosen by its label
or by its position.
-/

namespace TabFormat

/-- A template with the label under which it is offered. -/
structure LabelledFormat where
  /-- The label. -/
  label : Text
  /-- The template. -/
  template : Text
deriving DecidableEq, Repr

/-- The formats on offer and the settings. -/
structure Config where
  /-- The settings. -/
  settings : Settings := {}
  /-- The formats, in the order in which they are offered. -/
  formats : List LabelledFormat
deriving DecidableEq, Repr

namespace Config

/-- The formats that are offered unless others are configured, as labels with templates. -/
def stockFormats : List (String × String) :=
  [("URL", "%URL%"),
   ("Title and URL", "%TITLE%%EOL%%URL%"),
   ("HTML Link",
    "<a title=\"%HTML_SAFE(%TITLE%)%\" href=\"%HTML_SAFE(%URL%)%\">%HTML_SAFE(%TITLE%)%</a>"),
   ("Markdown", "[%MD_SAFE(%TITLE%)%](%URL% \"%MD_LINK_TITLE_SAFE(%TITLE%)%\")"),
   ("Markdown List",
    "%TREE_INDENT(\"  \")%* [%MD_SAFE(%TITLE%)%](%URL% \"%MD_LINK_TITLE_SAFE(%TITLE%)%\")")]

/-- The stock configuration. -/
def stock : Config where
  formats := stockFormats.map fun f => ⟨f.1.toList, f.2.toList⟩

/-- The delimiter that a value chooses: a name, or a table with the name as its only key and nothing
under it. -/
def delimiterOfToml? : Toml → Option Delimiter
  | .string name => Delimiter.ofName? name
  | .table [(name, value)] => if value.isEmpty then Delimiter.ofName? name else none
  | _ => none

/-- The format that a value describes. -/
def formatOfToml? (value : Toml) : Option LabelledFormat := do
  match ← value.fields? ["label", "format"] with
  | [some label, some template] => return ⟨← label.text?, ← template.text?⟩
  | _ => none

/-- The value of a key of a document, or a default if the key is missing. -/
def setting (document : List (Text × Toml)) (key : String) (read : Toml → Option α) (default : α) :
    Option α :=
  match document.lookup key.toList with
  | none => some default
  | some value => read value

/-- The configuration that a document describes. -/
def ofToml? (document : List (Text × Toml)) : Option Config := do
  return {
    settings := {
      useCrlf := ← setting document "use-crlf" Toml.bool? stock.settings.useCrlf
      delimiter := ← setting document "delimiter" delimiterOfToml? stock.settings.delimiter
      maxDepth := ← setting document "max-depth" Toml.natural? stock.settings.maxDepth }
    formats := ← setting document "formats" (fun value => do (← value.items?).mapM formatOfToml?)
      stock.formats }

/-- The configuration that a TOML text describes. -/
def readToml (s : Text) : Except Toml.Failure Config :=
  match Toml.parse s with
  | .error position => .error (.malformed (.around s position))
  | .ok document =>
    match ofToml? document with
    | some config => .ok config
    | none => .error .unsuitable

/-- The first format with a label, whose case does not matter. -/
def formatLabelled? (config : Config) (label : Text) : Option LabelledFormat :=
  config.formats.find? fun f => Text.eqIgnoringCase f.label label

/-- The format at a position, from 1 on. -/
def formatAt? (config : Config) (position : Nat) : Option LabelledFormat :=
  if position = 0 then none else config.formats[position - 1]?

/-- The format that a key chooses: by its label or else by its position. White space around the key
does not matter. -/
def format? (config : Config) (key : Text) : Option LabelledFormat :=
  config.formatLabelled? key.trim <|> key.trim.natural?.bind config.formatAt?

/-- What is said about a key that chooses no format. -/
def unknownFormatMessage (key : Text) : Text :=
  "Unknown format '".toList ++ key ++ ['\'']

end Config

end TabFormat
