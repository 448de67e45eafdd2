import TabFormat.Text.Basic

/-!
# Faults of patterns

Why a pattern cannot be used: its text is malformed, it asks for something that is not supported, or
matching it takes too long.
-/

namespace TabFormat.Pattern

/-- What is wrong with the text of a pattern. -/
inductive Fault where
  /-- A parenthesis is not closed. -/
  | unclosedParen
  /-- Something else stands where a closing parenthesis should be. -/
  | closeParenExpected
  /-- The text goes on after the end of the pattern. -/
  | endExpected
  /-- A conditional group says nothing but its condition. -/
  | branchExpected
  /-- Groups are nested too deeply. -/
  | tooDeep
  /-- A backslash is the last character. -/
  | trailingBackslash
  /-- A backslash stands before a letter that means nothing. -/
  | invalidEscape (escape : Text)
  /-- The name of a character property is not closed. -/
  | unclosedProperty
  /-- A character number is malformed. -/
  | invalidHex
  /-- A character number stands for no character. -/
  | invalidCodePoint
  /-- A set in brackets is malformed. -/
  | invalidSet
  /-- The name of a character property is not known. -/
  | unknownProperty
  /-- A flag is not known. -/
  | unknownFlag (flags : Text)
  /-- A flag cannot be turned off. -/
  | unicodeRequired
  /-- A reference by number has no group. -/
  | invalidReference
  /-- The name of a group is malformed. -/
  | invalidName
  /-- A reference by name has no group. -/
  | unknownName (name : Text)
  /-- Something is repeated that cannot be. -/
  | notRepeatable
  /-- Groups have names, but are referred to by numbers. -/
  | mixedReferences
deriving DecidableEq, Repr

/-- The wording of a fault. -/
def Fault.message : Fault → Text
  | unclosedParen => "Opening parenthesis without closing parenthesis".toList
  | closeParenExpected => "General parsing error: expected close paren".toList
  | endExpected => "General parsing error: end of string not reached".toList
  | branchExpected =>
    "General parsing error: expected conditional to be a backreference or ".toList ++
      "at least an expression ".toList
      ++ "for when the condition is true".toList
  | tooDeep => "Pattern too deeply nested".toList
  | trailingBackslash => "Backslash without following character".toList
  | invalidEscape escape => "Invalid escape: ".toList ++ escape
  | unclosedProperty => "Unicode escape not closed".toList
  | invalidHex => "Invalid hex escape".toList
  | invalidCodePoint => "Invalid codepoint for hex or unicode escape".toList
  | invalidSet => "Invalid character class".toList
  | unknownProperty => "Unicode property not found".toList
  | unknownFlag flags => "Unknown group flag: ".toList ++ flags
  | unicodeRequired => "Disabling Unicode not supported".toList
  | invalidReference => "Invalid back reference".toList
  | invalidName => "Could not parse group name".toList
  | unknownName name => "Invalid group name in back reference: ".toList ++ name
  | notRepeatable => "Target of repeat operator is invalid".toList
  | mixedReferences =>
    "Numbered backref/call not allowed because named group was used, ".toList ++
      "use a named backref instead".toList

/-- Why a pattern cannot be used. -/
inductive Failure where
  /-- The text is malformed at a byte position. -/
  | malformed (position : Nat) (fault : Fault)
  /-- What is looked for before a place has no fixed size. -/
  | variableLookBehind
  /-- A part is beyond the limits of regular patterns. -/
  | beyondLimits
  /-- Matching has to keep too many choices. -/
  | tooManyChoices
  /-- Matching has to take back too many choices. -/
  | tooManyRetries
deriving DecidableEq, Repr

/-- The wording of a failure. -/
def Failure.message : Failure → Text
  | malformed position fault =>
    "Parsing error at position ".toList ++ Text.ofNat position ++ ": ".toList ++ fault.message
  | variableLookBehind =>
    "Error compiling regex: Look-behind assertion without constant size".toList
  | beyondLimits => "Error compiling regex: Regex error: size limit exceeded".toList
  | tooManyChoices =>
    "Error executing regex: Max stack size exceeded for backtracking while executing regex".toList
  | tooManyRetries => "Error executing regex: Max limit for backtracking count exceeded".toList

end TabFormat.Pattern
