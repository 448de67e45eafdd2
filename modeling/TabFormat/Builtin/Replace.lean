import TabFormat.Pattern.Replacement

/-!
# Replacing by patterns

The function `replace` takes a text and pairs of a pattern and a replacement text. The pairs act one
after another, each on the result of the one before, and each replaces the first match only.
-/

namespace TabFormat

/-- Why a replacement is refused. -/
inductive ReplaceError where
  /-- There are no arguments. -/
  | missingArgument
  /-- There is no pair. -/
  | missingPair
  /-- The last pattern has no replacement text. -/
  | missingReplaceText
  /-- A pattern cannot be used. -/
  | invalidPattern (pattern : Text) (reason : Pattern.Failure)
deriving DecidableEq, Repr

/-- What the function takes. -/
def ReplaceError.usage : Text :=
  ": Replacer must take one base text and one or more matcher/replace-text pairs".toList

/-- The wording of a refusal. -/
def ReplaceError.message : ReplaceError → Text
  | missingArgument => "Missing argument".toList ++ usage
  | missingPair => "Missing matcher/replace-text pair".toList ++ usage
  | missingReplaceText => "Missing replace text for the last matcher".toList ++ usage
  | invalidPattern pattern reason =>
    "Invalid matcher \"".toList ++ pattern ++ "\": ".toList ++ reason.message

namespace Replace

/-- The text with the first match of a pattern replaced, or as it is if there is no match. -/
def firstMatch (pattern replacement s : Text) : Except ReplaceError Text :=
  let found := do (← Pattern.Matcher.ofText pattern).first? s
  match found with
  | .error reason => .error (.invalidPattern pattern reason)
  | .ok none => .ok s
  | .ok (some m) => .ok (m.replaceBy (Pattern.Replacement.expand m replacement))

/-- Applies pairs of a pattern and a replacement text one after another. -/
def pairs (s : Text) : List Text → Except ReplaceError Text
  | pattern :: replacement :: rest => do pairs (← firstMatch pattern replacement s) rest
  | _ => .ok s

/-- The text that the arguments ask for: a text, followed by pairs. -/
def run : List Text → Except ReplaceError Text
  | [] => .error .missingArgument
  | [_] | [_, _] => .error .missingPair
  | s :: rest => if rest.length % 2 = 1 then .error .missingReplaceText else pairs s rest

end Replace

end TabFormat
