import Mathlib.Data.List.DropRight
import TabFormat.Template.Outline

/-!
# The form of a placeholder

A placeholder is written as a percent sign, a name, perhaps groups of arguments with text between
them, and a percent sign. This file says which token sequences have this form, and reads off the
name, the source text of the arguments and the texts of the arguments, all without the states of
the reader: the texts of the arguments are found by splitting a group at its commas and trimming
each stretch between quotations as a whole.

## Main definitions

* `Piece` : a part of a name or of a group.
* `argumentText`, `argumentTexts` : the arguments of a group.
* `Placeholder`, `Placeholder.WellFormed`, `Placeholder.tokens` : the form of a placeholder.
* `Placeholder.nameText`, `Placeholder.rawArgs`, `Placeholder.argumentTexts` : what it says.
-/

namespace TabFormat

namespace Token

/-- What the token stands for in literal text and in names: an escape stands for its character,
and every other token for itself. -/
def spoken : Token → Text
  | escape c => [c]
  | token => token.chars

/-- What the token contributes to the text of an argument. Escapes of `%` and of the backslash
stay as they are, since the argument is read again. -/
def kept : Token → Text
  | escape c => Template.Argument.escaped c
  | token => token.chars

/-- Whether the token is white space. -/
def isBlank : Token → Bool
  | blank _ => true
  | _ => false

/-- The tokens without the white space at both ends. -/
def trim (tokens : List Token) : List Token :=
  (tokens.dropWhile isBlank).rdropWhile isBlank

/-- The source text of the tokens. -/
def source (tokens : List Token) : Text :=
  tokens.flatMap chars

theorem source_append (first second : List Token) :
    source (first ++ second) = source first ++ source second :=
  List.flatMap_append

end Token

namespace Template

/-! ### Names and groups -/

/-- A part of a name or of a group: a token by itself, or a quotation. -/
inductive Piece where
  /-- A token outside of quotations. -/
  | token (t : Token)
  /-- A quotation of a kind. -/
  | quotation (q : Quote) (body : List Token)
deriving DecidableEq, Repr

namespace Piece

/-- The tokens of the part. -/
def tokens : Piece → List Token
  | token t => [t]
  | quotation q body => .quote q :: body ++ [.quote q]

/-- Whether the part can stand where the tokens `stops` would end the whole: a token by itself is
none of them and no quotation mark, and a quotation ends at the first mark of its kind. -/
def Fits (stops : List Token) : Piece → Prop
  | token t => t ∉ stops ∧ ∀ q, t ≠ .quote q
  | quotation q body => .quote q ∉ body

/-- What the part stands for in a name. -/
def spoken : Piece → Text
  | token t => t.spoken
  | quotation _ body => body.flatMap Token.spoken

/-- Whether the part is white space outside of quotations. -/
def isBlank : Piece → Bool
  | token t => t.isBlank
  | quotation _ _ => false

end Piece

/-- The tokens of a sequence of parts. -/
def spell (pieces : List Piece) : List Token :=
  pieces.flatMap Piece.tokens

theorem spell_cons (piece : Piece) (pieces : List Piece) :
    spell (piece :: pieces) = piece.tokens ++ spell pieces :=
  List.flatMap_cons

theorem spell_append (first second : List Piece) :
    spell (first ++ second) = spell first ++ spell second :=
  List.flatMap_append

/-! ### The arguments of a group -/

/-- The text of a stretch of an argument between two quotations: white space at its ends does not
count. -/
def stretchText (stretch : List Token) : Text :=
  (Token.trim stretch).flatMap Token.kept

/-- The text of the rest of an argument, after the tokens `stretch` since the last quotation. -/
def argumentTextFrom (stretch : List Token) : List Piece → Text
  | [] => stretchText stretch
  | .token t :: rest => argumentTextFrom (stretch ++ [t]) rest
  | .quotation _ body :: rest =>
    stretchText stretch ++ (body.flatMap Token.kept ++ argumentTextFrom [] rest)

/-- The text of an argument: its quotations as they are, and the stretches between them trimmed. -/
def argumentText (pieces : List Piece) : Text :=
  argumentTextFrom [] pieces

/-- The texts of the arguments of a group. A group of white space has none; any other group has
one more than it has commas outside of quotations. -/
def argumentTexts (content : List Piece) : List Text :=
  if content.all Piece.isBlank then [] else (content.splitOn (.token .comma)).map argumentText

/-! ### Placeholders -/

/-- What may follow the name of a placeholder. -/
inductive Sequel where
  /-- A group of arguments. -/
  | group (content : List Piece)
  /-- A token that is passed over. -/
  | passed (t : Token)
deriving DecidableEq, Repr

namespace Sequel

/-- The tokens of a sequel. -/
def tokens : Sequel → List Token
  | group content => .openParen :: spell content ++ [.closeParen]
  | passed t => [t]

/-- A group ends at its first closing parenthesis outside of quotations, and a token that is passed
over neither opens a group nor ends the placeholder. -/
def WellFormed : Sequel → Prop
  | group content => ∀ piece ∈ content, piece.Fits [.closeParen]
  | passed t => t ≠ .percent ∧ t ≠ .openParen

/-- The source text of a group. -/
def rawGroup : Sequel → List Text
  | group content => [Token.source (spell content)]
  | passed _ => []

/-- The texts of the arguments of a group. -/
def arguments : Sequel → List Text
  | group content => argumentTexts content
  | passed _ => []

/-- The text that is passed over with a warning. White space is passed over silently. -/
def ignored : Sequel → List Text
  | group _ => []
  | passed t => if t.isBlank then [] else [t.chars]

end Sequel

/-- A placeholder as it is written. -/
structure Placeholder where
  /-- The parts of the name. -/
  name : List Piece
  /-- What follows the name. -/
  sequels : List Sequel
deriving DecidableEq, Repr

namespace Placeholder

/-- The tokens of the placeholder. -/
def tokens (p : Placeholder) : List Token :=
  .percent :: (spell p.name ++ (p.sequels.flatMap Sequel.tokens ++ [.percent]))

/-- The name. -/
def nameText (p : Placeholder) : Text :=
  p.name.flatMap Piece.spoken

/-- The source text of the arguments: the groups that are not empty, joined by a comma and a
space. -/
def rawArgs (p : Placeholder) : Text :=
  Text.join [',', ' '] ((p.sequels.flatMap Sequel.rawGroup).filter (!·.isEmpty))

/-- The texts of the arguments of all groups. -/
def argumentTexts (p : Placeholder) : List Text :=
  p.sequels.flatMap Sequel.arguments

/-- The texts that are passed over with a warning. -/
def ignored (p : Placeholder) : List Text :=
  p.sequels.flatMap Sequel.ignored

/-- The name is not empty and ends at the first percent sign or opening parenthesis outside of
quotations; text is passed over only after a group. -/
structure WellFormed (p : Placeholder) : Prop where
  /-- The name ends where it should. -/
  name_fits : ∀ piece ∈ p.name, piece.Fits [.percent, .openParen]
  /-- The name is not empty. -/
  nameText_ne_nil : p.nameText ≠ []
  /-- The name is followed by a group, if by anything. -/
  head_group : ∀ t, p.sequels.head? ≠ some (.passed t)
  /-- Each sequel is well-formed. -/
  sequels_wellFormed : ∀ sequel ∈ p.sequels, sequel.WellFormed

end Placeholder

end Template

end TabFormat
