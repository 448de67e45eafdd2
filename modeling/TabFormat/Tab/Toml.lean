import TabFormat.Tab.Record
import TabFormat.Toml.Excerpt
import TabFormat.Toml.Reader

/-!
# Tabs in TOML

Tabs are described by the list of tables `tabs` of a document; without it there are none. Each tab
is a table with a key for each field, or a list of the fields in order. The address and the title
are required. Other keys and values are passed over.
-/

namespace TabFormat.Tab

/-- A part that may be missing, but that must be right if it is there. -/
def optional (read : Toml → Option α) : Option Toml → Option (Option α)
  | none => some none
  | some value => (read value).map some

/-- The tab that a value describes. -/
def ofToml? (value : Toml) : Option Tab := do
  match ← value.fields? fieldNames with
  | [url, title, container, author, description, keywords, indentLevel] =>
    return {
      url := ← url.bind Toml.text?
      title := ← title.bind Toml.text?
      container := ← optional Toml.text? container
      author := ← optional Toml.text? author
      description := ← optional Toml.text? description
      keywords := ← optional Toml.text? keywords
      indentLevel := (← optional Toml.natural? indentLevel).getD 0 }
  | _ => none

/-- The tabs that a document describes. -/
def allOfToml? (document : List (Text × Toml)) : Option (List Tab) :=
  match document.lookup "tabs".toList with
  | none => some []
  | some value => do (← value.items?).mapM ofToml?

/-- The tabs that a TOML text describes. -/
def readToml (s : Text) : Except Toml.Failure (List Tab) :=
  match Toml.parse s with
  | .error position => .error (.malformed (.around s position))
  | .ok document =>
    match allOfToml? document with
    | some tabs => .ok tabs
    | none => .error .unsuitable

end TabFormat.Tab
