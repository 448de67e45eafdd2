import TabFormat.Text.Basic

/-!
# Tabs

The record of a browser tab: what a template can say about it.
-/

namespace TabFormat

/-- A browser tab to be formatted. -/
structure Tab where
  /-- The address. -/
  url : Text
  /-- The title. -/
  title : Text
  /-- The name of the container that the tab belongs to. -/
  container : Option Text := none
  /-- The author of the page. -/
  author : Option Text := none
  /-- The description of the page. -/
  description : Option Text := none
  /-- The keywords of the page. -/
  keywords : Option Text := none
  /-- The number of selected ancestors in the tree of tabs. -/
  indentLevel : Nat := 0
deriving DecidableEq, Repr

/-- The names of the fields where tabs are described, in order. -/
def Tab.fieldNames : List String :=
  ["url", "title", "container", "author", "description", "keywords", "indent_level"]

end TabFormat
