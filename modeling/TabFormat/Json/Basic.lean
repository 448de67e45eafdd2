import TabFormat.Text.Basic

/-!
# JSON values

The values that a JSON text describes, and what can be wrong with such a text. Of numbers it only
matters whether they are written as natural numbers of at most 64 bits; all others are alike.
-/

namespace TabFormat

/-- A JSON value. -/
inductive Json where
  /-- The value `null`. -/
  | null
  /-- A truth value. -/
  | bool (b : Bool)
  /-- A natural number. -/
  | natural (n : Nat)
  /-- A number that is not written as a natural number, or is too large. -/
  | number
  /-- A text. -/
  | string (s : Text)
  /-- A list of values. -/
  | array (items : List Json)
  /-- Keys with values, as they were written. -/
  | object (members : List (Text × Json))

namespace Json

/-- What is wrong with a JSON text. -/
inductive Fault where
  /-- The text ends where a list goes on. -/
  | endInList
  /-- The text ends where an object goes on. -/
  | endInObject
  /-- The text ends in a string. -/
  | endInString
  /-- The text ends before a value is complete. -/
  | endInValue
  /-- A key has no colon after it. -/
  | colonExpected
  /-- An item of a list is followed by something else than a comma or the end of the list. -/
  | listEndExpected
  /-- A member of an object is followed by something else than a comma or the end of the object. -/
  | objectEndExpected
  /-- A word begins like `null`, `true` or `false` and goes on in another way. -/
  | wordExpected
  /-- Something cannot begin a value. -/
  | valueExpected
  /-- An escape is not known. -/
  | invalidEscape
  /-- A number is malformed. -/
  | invalidNumber
  /-- A number is too large. -/
  | numberTooLarge
  /-- A control character stands in a string. -/
  | controlCharacter
  /-- A key is not a string. -/
  | keyNotString
  /-- The second half of a pair of escapes has no first half. -/
  | loneSurrogate
  /-- The first half of a pair of escapes has no second half. -/
  | unfinishedPair
  /-- The last item is followed by a comma. -/
  | trailingComma
  /-- Something follows the value. -/
  | trailingCharacters
  /-- Values are nested too deeply. -/
  | tooDeep
deriving DecidableEq, Repr

/-- The wording of a fault. -/
def Fault.message : Fault → String
  | endInList => "EOF while parsing a list"
  | endInObject => "EOF while parsing an object"
  | endInString => "EOF while parsing a string"
  | endInValue => "EOF while parsing a value"
  | colonExpected => "expected \x60:\x60"
  | listEndExpected => "expected \x60,\x60 or \x60]\x60"
  | objectEndExpected => "expected \x60,\x60 or \x60\x7d\x60"
  | wordExpected => "expected ident"
  | valueExpected => "expected value"
  | invalidEscape => "invalid escape"
  | invalidNumber => "invalid number"
  | numberTooLarge => "number out of range"
  | controlCharacter => "control character (\\u0000-\\u001F) found while parsing a string"
  | keyNotString => "key must be a string"
  | loneSurrogate => "lone leading surrogate in hex escape"
  | unfinishedPair => "unexpected end of hex escape"
  | trailingComma => "trailing comma"
  | trailingCharacters => "trailing characters"
  | tooDeep => "recursion limit exceeded"

/-- A fault with its place: the line, from 1 on, and the number of bytes of that line up to it. -/
structure SyntaxError where
  /-- What is wrong. -/
  fault : Fault
  /-- The line. -/
  line : Nat
  /-- The column. -/
  column : Nat
deriving DecidableEq, Repr

/-- The wording of a fault with its place. -/
def SyntaxError.message (e : SyntaxError) : Text :=
  e.fault.message.toList ++ " at line ".toList ++ Text.ofNat e.line ++ " column ".toList ++
    Text.ofNat e.column

/-- The line and the column of a byte position, counted on from a given line and column. -/
def locate (line column : Nat) : Nat → Text → Nat × Nat
  | 0, _ => (line, column)
  | n, [] => (line, column + n)
  | n, c :: s =>
    if c = '\n' then locate (line + 1) 0 (n - 1) s
    else if c.utf8Size ≤ n then locate line (column + c.utf8Size) (n - c.utf8Size) s
    else (line, column + n)

/-- A fault at a byte position of a text. -/
def SyntaxError.at (fault : Fault) (position : Nat) (s : Text) : SyntaxError :=
  let (line, column) := locate 1 0 position s
  { fault, line, column }

end Json

end TabFormat
