import TabFormat.Json.Reader
import TabFormat.Tab.Record

/-!
# Tabs in JSON

Tabs are described by a list, or by an object whose member `tabs` is a list. Each tab is an object
with a member for each field, or a list of the fields in order. The address and the title are
required. Other members of objects are passed over, but no field may be given twice.
-/

namespace TabFormat

namespace Json

/-- The text that a value is. -/
def text? : Json → Option Text
  | string s => some s
  | _ => none

/-- The text that a value is, where `null` stands for the lack of one. -/
def optionalText? : Json → Option (Option Text)
  | null => some none
  | string s => some (some s)
  | _ => none

/-- The natural number that a value is. -/
def natural? : Json → Option Nat
  | natural n => some n
  | _ => none

/-- The value of a key that occurs once. The outer result is nothing if it occurs more often. -/
def member? (key : String) (members : List (Text × Json)) : Option (Option Json) :=
  match members.filter fun m => m.1 == key.toList with
  | [] => some none
  | [m] => some (some m.2)
  | _ => none

/-- The values of the fields of a record with the given names. A record is an object, or a list of
some of the values in order. Other members of an object are passed over. -/
def fields? (names : List String) : Json → Option (List (Option Json))
  | array items =>
    if names.length < items.length then none
    else some ((List.range names.length).map fun i => items[i]?)
  | object members => names.mapM fun name => member? name members
  | _ => none

end Json

namespace Tab

/-- The tab that a value describes. -/
def ofJson? (value : Json) : Option Tab := do
  match ← value.fields? fieldNames with
  | [url, title, container, author, description, keywords, indentLevel] =>
    return {
      url := ← url.bind Json.text?
      title := ← title.bind Json.text?
      container := ← (container.map Json.optionalText?).getD (some none)
      author := ← (author.map Json.optionalText?).getD (some none)
      description := ← (description.map Json.optionalText?).getD (some none)
      keywords := ← (keywords.map Json.optionalText?).getD (some none)
      indentLevel := ← (indentLevel.map Json.natural?).getD (some 0) }
  | _ => none

/-- The tabs that a list of values describes. -/
def listOfJson? : Json → Option (List Tab)
  | .array items => items.mapM ofJson?
  | _ => none

/-- The tabs that a whole text describes. -/
def allOfJson? (value : Json) : Option (List Tab) :=
  match value with
  | .object members => do
    match ← Json.member? "tabs" members with
    | some tabs => listOfJson? tabs
    | none => none
  | value => listOfJson? value

end Tab

/-- Why no tabs can be read from a JSON text. -/
inductive JsonFailure where
  /-- The text is malformed. -/
  | malformed (e : Json.SyntaxError)
  /-- The value does not describe tabs. -/
  | noTabs
deriving DecidableEq, Repr

/-- The wording of the failure. -/
def JsonFailure.message : JsonFailure → Text
  | malformed e => e.message
  | noTabs => "data did not match any variant of untagged enum JsonRecords".toList

/-- The tabs that a JSON text describes. -/
def Tab.readJson (s : Text) : Except JsonFailure (List Tab) :=
  Json.parseWith s .malformed fun value =>
    match Tab.allOfJson? value with
    | some tabs => .ok tabs
    | none => .error .noTabs

end TabFormat
