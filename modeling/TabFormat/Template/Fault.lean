import TabFormat.Text.Basic

/-!
# Faults of a template

What can be wrong with a template, and the two wordings of each fault: the message, which repeats
the text read so far, and the headline of a report, which shows the text by itself. An expansion
ends with such a fault or with an error of another kind.
-/

namespace TabFormat.Template

/-- What is wrong with a template. -/
inductive Fault where
  /-- A placeholder has no name. -/
  | missingName
  /-- A placeholder has no closing percent sign. -/
  | unterminatedPlaceholder
  /-- A group of arguments of the placeholder `name` is not closed. -/
  | unterminatedArgs (name : Text)
  /-- A quotation is not closed. -/
  | unterminatedString
  /-- A placeholder lies deeper than `limit` levels. -/
  | nestingTooDeep (limit : Nat)
deriving DecidableEq, Repr

/-- What the fault is, as a message begins. -/
def Fault.summary : Fault → Text
  | missingName => "Missing placeholder name".toList
  | unterminatedPlaceholder => "Unterminated placeholder".toList
  | unterminatedArgs name =>
    "Unterminated arguments for the placeholder \"".toList ++ name ++ ['"']
  | unterminatedString => "Unterminated string".toList
  | nestingTooDeep limit =>
    "Placeholder nesting exceeds ".toList ++ Text.ofNat limit ++ " levels".toList

/-- What the fault is, as a report says beside the text. -/
def Fault.headline : Fault → Text
  | missingName => "missing placeholder name".toList
  | unterminatedPlaceholder => "placeholder is never closed with '%'".toList
  | unterminatedArgs name =>
    "arguments of \"".toList ++ name ++ "\" are never closed with ')'".toList
  | unterminatedString => "quoted string is never closed".toList
  | nestingTooDeep limit =>
    "placeholders nested more than ".toList ++ Text.ofNat limit ++ " levels deep".toList

/-- A fault with its place in the template. -/
structure SyntaxError where
  /-- What is wrong. -/
  fault : Fault
  /-- The bytes of the template that the fault concerns. -/
  span : Span
  /-- The template up to where the fault showed. -/
  consumed : Text
deriving DecidableEq, Repr

namespace SyntaxError

/-- The message for the author of the template. -/
def message (e : SyntaxError) : Text :=
  e.fault.summary ++ [':', ' '] ++ e.consumed

/-- The fault of an argument, as a fault of the text around it. -/
def relocate (e : SyntaxError) (span : Span) (consumed : Text) : SyntaxError :=
  { e with span, consumed }

end SyntaxError

/-- An error of an expansion. The errors of other kinds are those of the type `ε`. -/
inductive Error (ε : Type) where
  /-- A template is malformed. -/
  | malformed (e : SyntaxError)
  /-- An error of another kind. -/
  | other (e : ε)
deriving DecidableEq, Repr

/-- The error of an argument, as an error of the text around it. Only the fault of a template has a
place, and only that changes. -/
def Error.relocate {ε : Type} (span : Span) (consumed : Text) : Error ε → Error ε
  | malformed e => malformed (e.relocate span consumed)
  | other e => other e

end TabFormat.Template
