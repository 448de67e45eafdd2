import TabFormat.Text.Basic

/-!
# Escaping

Texts are escaped for three places: HTML content and attribute values, Markdown text, and the title
of a Markdown link. HTML replaces four characters by entities; Markdown puts a backslash before
each character of a set.
-/

namespace TabFormat.Escape

/-- The entity that stands for a character in HTML, or else the character itself. -/
def entity : Char → Text
  | '&' => "&amp;".toList
  | '"' => "&quot;".toList
  | '<' => "&lt;".toList
  | '>' => "&gt;".toList
  | c => [c]

/-- The text as it is written in HTML content and attribute values. -/
def html (s : Text) : Text :=
  s.flatMap entity

/-- The text with a backslash before each character of a set. -/
def backslash (special : Char → Bool) (s : Text) : Text :=
  s.flatMap fun c => if special c then ['\\', c] else [c]

/-- The ASCII punctuation characters, all of which may mean something in Markdown. -/
def isPunctuation (c : Char) : Bool :=
  "!\"#$%&'()*+,-./:;<=>?@[\\]^_\x60\x7b|\x7d~".toList.contains c

/-- The text as it is written in Markdown. -/
def markdown (s : Text) : Text :=
  backslash isPunctuation s

/-- The characters that are escaped in the title of a Markdown link. -/
def isLinkTitleSpecial (c : Char) : Bool :=
  "\"'()&\\".toList.contains c

/-- The text as it is written in the title of a Markdown link. -/
def markdownLinkTitle (s : Text) : Text :=
  backslash isLinkTitleSpecial s

end TabFormat.Escape
