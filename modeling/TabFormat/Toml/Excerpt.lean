import TabFormat.Text.Basic

/-!
# Excerpts of a document

Where something is wrong with a TOML document, the line is shown with a mark below the place.
-/

namespace TabFormat.Toml

/-- A place of a document with the line around it. -/
structure Excerpt where
  /-- The line, from 1 on. -/
  line : Nat
  /-- The column, from 1 on. -/
  column : Nat
  /-- The text of the line. -/
  text : Text
  /-- The width of the mark. -/
  width : Nat
deriving DecidableEq, Repr

namespace Excerpt

/-- The characters after the last line feed. -/
def lastLine (s : Text) : Text :=
  (s.reverse.takeWhile (· != '\n')).reverse

/-- The excerpt around a byte position. The end of the document belongs to the line of the last
character. Columns count characters, but bytes before a character of several bytes. -/
def around (s : Text) (position : Nat) : Excerpt :=
  let before := s.upTo position
  let rest := s.drop before.length
  let (inside, beyond) :=
    if rest.isEmpty then (before.dropLast, min 1 before.length) else (before, 0)
  let lineBefore := lastLine inside
  let size := (rest.head?.map Char.utf8Size).getD 0
  let column := (if 1 < size then Text.byteLength lineBefore else lineBefore.length) + beyond
  let text := lineBefore ++ (s.drop inside.length).takeWhile (· != '\n')
  { line := inside.count '\n' + 1
    column := column + 1
    text
    width := max 1 (min size (Text.byteLength text - column)) }

/-- The excerpt as it is shown. -/
def message (e : Excerpt) : Text :=
  let number := Text.ofNat e.line
  let margin := List.replicate (number.length + 1) ' ' ++ ['|']
  "TOML parse error at line ".toList ++ number ++ ", column ".toList ++ Text.ofNat e.column ++
    '\n' :: margin ++ '\n' :: number ++ " | ".toList ++ e.text ++ '\n' :: margin ++
    List.replicate e.column ' ' ++ List.replicate e.width '^' ++ ['\n', '\n']

end Excerpt

/-- Why a document cannot be used. -/
inductive Failure where
  /-- The document is malformed at the place of the excerpt. -/
  | malformed (e : Excerpt)
  /-- The document does not have the right values. -/
  | unsuitable
deriving DecidableEq, Repr

/-- The wording of the failure. -/
def Failure.message : Failure → Text
  | malformed e => e.message
  | unsuitable => "the document lacks a value or has one of the wrong type".toList

end TabFormat.Toml
