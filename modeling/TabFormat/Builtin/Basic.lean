import TabFormat.Text.Blank
import TabFormat.Text.Case

/-!
# The vocabulary of placeholders

The placeholders that are known are functions of their arguments and fields of the tab being
formatted. Each has one or more names. A name is found whatever its letter case and the white space
around it, and the older way of asking for HTML, a name with `_html` or `_htmlified` at its end, is
recognised as well.
-/

namespace TabFormat

/-- The placeholders that depend on their arguments only. -/
inductive Function where
  /-- Replaces what patterns match. -/
  | replace
  /-- Escapes a text for HTML. -/
  | htmlSafe
  /-- Escapes a text for Markdown. -/
  | mdSafe
  /-- Escapes a text for the title of a Markdown link. -/
  | mdLinkTitleSafe
  /-- Chooses the first argument that is not empty. -/
  | any
  /-- Stands for a tab character. -/
  | tab
deriving DecidableEq, Repr

/-- The placeholders that are filled from the tab being formatted. -/
inductive Field where
  /-- Marks a template for rich text and stands for nothing. -/
  | richText
  /-- A placeholder of a page, which stands for nothing here. -/
  | ignored
  /-- The line ending. -/
  | eol
  /-- The address. -/
  | url
  /-- The title. -/
  | title
  /-- The name of the container. -/
  | containerName
  /-- The address, together with the container. -/
  | containerUrl
  /-- The author of the page. -/
  | author
  /-- The description of the page. -/
  | description
  /-- The keywords of the page. -/
  | keywords
  /-- The time in universal time. -/
  | utcTime
  /-- The time in local time. -/
  | localTime
  /-- The indentation in the tree of tabs. -/
  | treeIndent
deriving DecidableEq, Repr

/-- The placeholders that are known. -/
inductive Builtin where
  /-- A function. -/
  | function (f : Function)
  /-- A field. -/
  | field (f : Field)
deriving DecidableEq, Repr

namespace Builtin

/-- All placeholders that are known. -/
def all : List Builtin :=
  [function .replace, function .htmlSafe, function .mdSafe, function .mdLinkTitleSafe,
   function .any, function .tab,
   field .richText, field .ignored, field .eol, field .url, field .title, field .containerName,
   field .containerUrl, field .author, field .description, field .keywords, field .utcTime,
   field .localTime, field .treeIndent]

/-- The names of a placeholder, in lower case. -/
def aliases : Builtin → List String
  | function .replace => ["replace"]
  | function .htmlSafe => ["html", "html_safe"]
  | function .mdSafe => ["md", "md_safe"]
  | function .mdLinkTitleSafe => ["md_link_title", "md_link_title_safe"]
  | function .any => ["any"]
  | function .tab => ["tab"]
  | field .richText => ["rt"]
  | field .ignored => ["rlink", "sel"]
  | field .eol => ["eol"]
  | field .url => ["url"]
  | field .title => ["title", "text"]
  | field .containerName => ["container_name", "container_title"]
  | field .containerUrl => ["container_url"]
  | field .author => ["author"]
  | field .description => ["desc", "description"]
  | field .keywords => ["keywords"]
  | field .utcTime => ["utc_time"]
  | field .localTime => ["local_time"]
  | field .treeIndent => ["tst_indent", "tree_indent"]

/-- Whether a text is one of the names of the placeholder. -/
def hasName (b : Builtin) (s : Text) : Bool :=
  b.aliases.any fun name => name.toList == s

/-- The placeholder of a name, whatever its letter case and the white space around it. -/
def lookup (name : Text) : Option Builtin :=
  all.find? (·.hasName (Text.fold name.trim))

/-- The text without an ending, if it has that ending. -/
def withoutEnd? (ending s : Text) : Option Text :=
  if ending.isSuffixOf s then some (s.take (s.length - ending.length)) else none

/-- The placeholder whose name, followed by `_html` or `_htmlified`, is the given one. -/
def lookupHtmlSuffixed (name : Text) : Option Builtin :=
  let folded := Text.fold name.trim
  match withoutEnd? "_htmlified".toList folded <|> withoutEnd? "_html".toList folded with
  | some (c :: base) => lookup (c :: base)
  | _ => none

end Builtin

end TabFormat
