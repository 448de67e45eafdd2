import TabFormat.Settings
import TabFormat.Tab.Field

/-!
# Formatting tabs

A template turns a tab into a text, and a list of tabs into the list of their texts. A template with
the marker `%RT%` yields rich text as well. A tab that cannot be formatted does not spoil a list:
the reason takes the place of its text.
-/

namespace TabFormat

open Template

/-- What a template makes of one tab or of several. -/
structure Formatted where
  /-- The plain text. -/
  plain : Text
  /-- The rich text, if the template asks for it. -/
  rich : Option Text := none
deriving DecidableEq, Repr

/-- A warning that is given while tabs are formatted. -/
inductive Warning where
  /-- Text after the arguments of a placeholder is passed over. -/
  | ignored (w : Ignored)
  /-- The tab with an address cannot be formatted. -/
  | failed (url reason : Text)
deriving DecidableEq, Repr

/-- The wording of the failure to format a tab. -/
def failureMessage : Error ReplaceError → Text
  | .malformed e => e.message
  | .other e => e.message

/-- Whether the template has the marker of rich text. -/
def isRichText (template : Text) : Bool :=
  Text.occursIn "%rt%".toList (Text.fold template)

/-- What is made of a tab, once its template is filled. If nothing but blanks came of a template for
rich text, the tab becomes a link. -/
def Formatted.ofFilled (template : Text) (tab : Tab) (filled : Text) : Formatted :=
  if !isRichText template then { plain := filled }
  else if filled.trim.isEmpty then
    { plain := tab.title ++ '<' :: tab.url ++ ['>']
      rich := some ("<a href=\"".toList ++ Escape.html tab.url ++ "\">".toList ++
        Escape.html tab.title ++ "</a>".toList) }
  else { plain := filled, rich := some filled }

/-- Formats a tab. -/
def formatTab (template : Text) (settings : Settings) (times : Times) (tab : Tab) :
    Run ReplaceError Formatted :=
  (expand settings.maxDepth (Context.resolver ⟨tab, settings.eol, times⟩) template).andThen
    fun filled => .done (.ofFilled template tab filled)

/-- A tab of a list, with the warnings that were given for it. -/
structure Item where
  /-- What came of the tab. -/
  formatted : Formatted
  /-- The warnings. -/
  warnings : List Warning
deriving DecidableEq, Repr

/-- Formats a tab of a list. -/
def formatItem (template : Text) (settings : Settings) (times : Times) (tab : Tab) : Item :=
  let run := formatTab template settings times tab
  let warnings := run.warnings.map Warning.ignored
  match run.outcome with
  | .ok formatted => ⟨formatted, warnings⟩
  | .error e =>
    ⟨{ plain := failureMessage e }, warnings ++ [.failed tab.url (failureMessage e)]⟩

/-- Joins the texts of several tabs. -/
def joinItems (template : Text) (settings : Settings) (items : List Formatted) : Formatted where
  plain :=
    Text.join settings.separator (items.map Formatted.plain) ++
      if settings.delimiter = .lineBreak ∧ 1 < items.length then settings.separator else []
  rich :=
    if isRichText template then
      some (Text.join "<br />".toList (items.map fun item => item.rich.getD []))
    else none

/-- Formats a list of tabs. -/
def formatTabs (template : Text) (settings : Settings) (times : Times) (tabs : List Tab) : Item :=
  let items := tabs.map (formatItem template settings times)
  ⟨joinItems template settings (items.map Item.formatted), items.flatMap Item.warnings⟩

/-- Looks for faults in a template without answering any call. -/
def checkTemplate (template : Text) (settings : Settings) : Run Empty Text :=
  expand settings.maxDepth Resolver.passthrough template

end TabFormat
