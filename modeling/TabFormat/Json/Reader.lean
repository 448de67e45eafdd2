import TabFormat.Json.Basic
import TabFormat.Text.Digits

/-!
# Reading JSON

A JSON text is read from left to right up to the first fault. Values may lie `nestingLimit` levels
deep. A fault is placed just past the last byte read, or just past the byte that cannot be read.
-/

namespace TabFormat.Json

/-- A fault as it is found: the number of bytes that follow its place. -/
structure Refusal where
  /-- What is wrong. -/
  fault : Fault
  /-- The number of bytes after the place. -/
  remaining : Nat

/-- Reads a part of a JSON text. The state is what is still to be read. -/
abbrev Reader := StateT Text (Except Refusal)

/-- Refuses the text because of what was read last, or because it ends here. -/
def refuse {α : Type} (fault : Fault) : Reader α := do
  throw ⟨fault, Text.byteLength (← get)⟩

/-- Refuses the text because of the byte that comes next. -/
def refuseNext {α : Type} (fault : Fault) : Reader α := do
  throw ⟨fault, Text.byteLength (← get) - 1⟩

/-- What comes next, after blanks. -/
def nextAfterBlanks : Reader (Option Char) := do
  let s := (← get).dropWhile fun c => c == ' ' || c == '\n' || c == '\t' || c == '\r'
  set s
  return s.head?

/-- Passes over the next character. -/
def skip : Reader Unit := modify (·.drop 1)

/-- Reads a given character. -/
def expect (c : Char) (atEnd otherwise : Fault) : Reader Unit := do
  match ← get with
  | [] => refuse atEnd
  | d :: s => if d = c then set s else refuseNext otherwise

/-- Reads the rest of a word. -/
def readWord : Text → Reader Unit
  | [] => return ()
  | c :: s => do
    expect c .endInValue .wordExpected
    readWord s

/-! ### Numbers -/

/-- Reads digits. -/
def readDigits : Reader Text := do
  let digits := (← get).takeWhile Char.isDigit
  modify (·.drop digits.length)
  return digits

/-- The leading digits that together are a number of at most 64 bits, as that number, and the number
of digits after them. -/
def leadingDigits : Nat → Text → Nat × Nat
  | n, [] => (n, 0)
  | n, c :: s =>
    let next := 10 * n + (c.toNat - '0'.toNat)
    if Text.wordLimit < next then (n, s.length + 1) else leadingDigits next s

/-- The largest exponent of ten that is considered by itself. -/
def exponentLimit : Int := 308

/-- Whether `n` times ten to a power lies beyond the numbers of double precision. -/
def isTooLarge (n : Nat) (exponent : Int) : Bool :=
  n != 0 && 0 ≤ exponent &&
    (exponentLimit < exponent || Text.doubleLimit ≤ n * Nat.pow 10 exponent.toNat)

/-- Reads the exponent of a number, whose letter is next. The digits before it have the value `n`
times ten to the power `scale`. -/
def readExponent (n : Nat) (scale : Int) : Reader Int := do
  skip
  let negative ←
    match (← get).head? with
    | some '+' => do skip; pure false
    | some '-' => do skip; pure true
    | _ => pure false
  let s ← get
  let digits ← readDigits
  if digits.isEmpty then
    if s.isEmpty then refuse .endInValue else refuseNext .invalidNumber
  let counts := (List.range digits.length).map (· + 1)
  match counts.find? fun count => 2147483647 < Text.ofDigits 10 (digits.take count) with
  | some count =>
    if n != 0 && !negative then
      set (s.drop count)
      refuse .numberTooLarge
    return -exponentLimit
  | none =>
    let exponent : Int := Text.ofDigits 10 digits
    return if negative then scale - exponent else scale + exponent

/-- Reads what follows the digits of a whole number. The result is the number, if it is natural. -/
def readFraction (negative : Bool) (whole : Text) : Reader Json := do
  let (n, dropped) := leadingDigits 0 whole
  match (← get).head? with
  | some '.' =>
    skip
    let digits ← readDigits
    if digits.isEmpty then
      if (← get).isEmpty then refuse .endInValue else refuseNext .invalidNumber
    let (n, scale) : Nat × Int :=
      let (m, rest) := leadingDigits n digits
      (m, (dropped : Int) - (digits.length - rest))
    finish n scale
  | _ =>
    if dropped = 0 && (← get).head? != some 'e' && (← get).head? != some 'E' then
      return if negative then .number else .natural n
    else finish n dropped
where
  /-- Reads the exponent, if there is one, and checks the size of the number. -/
  finish (n : Nat) (scale : Int) : Reader Json := do
    let exponent ←
      match (← get).head? with
      | some 'e' | some 'E' => readExponent n scale
      | _ => pure scale
    if isTooLarge n exponent then refuse .numberTooLarge
    return .number

/-- Reads a number, whose sign is read. -/
def readNumber (negative : Bool) : Reader Json := do
  match ← get with
  | [] => refuse .endInValue
  | '0' :: s =>
    set s
    if s.head?.any Char.isDigit then refuseNext .invalidNumber
    readFraction negative ['0']
  | c :: _ =>
    if c.isDigit then readFraction negative (← readDigits) else refuseNext .invalidNumber

/-! ### Strings -/

/-- Reads a number of four hexadecimal digits. -/
def readHex : Reader Nat := do
  let s ← get
  match (s.take 4).mapM Text.hexValue? with
  | some [a, b, c, d] =>
    set (s.drop 4)
    return 4096 * a + 256 * b + 16 * c + d
  | _ =>
    if Text.byteLength s < 4 then throw ⟨.endInString, 0⟩
    else throw ⟨.invalidEscape, Text.byteLength s - 4⟩

/-- Reads the numbers of an escape by number: one, or two that form a pair. -/
def readCodePoint : Reader Char := do
  let n ← readHex
  if 0xDC00 ≤ n ∧ n ≤ 0xDFFF then refuse .loneSurrogate
  else if 0xD800 ≤ n ∧ n ≤ 0xDBFF then
    expect '\\' .endInString .unfinishedPair
    expect 'u' .endInString .unfinishedPair
    let m ← readHex
    if m < 0xDC00 ∨ 0xDFFF < m then refuse .loneSurrogate
    return Char.ofNat (0x10000 + (n - 0xD800) * 1024 + (m - 0xDC00))
  else return Char.ofNat n

/-- The character that a letter after a backslash stands for. -/
def escaped? : Char → Option Char
  | '"' => some '"'
  | '\\' => some '\\'
  | '/' => some '/'
  | 'b' => some '\x08'
  | 'f' => some '\x0c'
  | 'n' => some '\n'
  | 'r' => some '\r'
  | 't' => some '\t'
  | _ => none

/-- Reads an escape, whose backslash is read. -/
def readEscape : Reader Char := do
  match ← get with
  | [] => refuse .endInString
  | 'u' :: s =>
    set s
    readCodePoint
  | c :: s =>
    match escaped? c with
    | some d =>
      set s
      return d
    | none => refuseNext .invalidEscape

/-- Reads a string, whose opening quotation mark is read. `fuel` bounds the number of characters. -/
def readString : Nat → Reader Text
  | 0 => refuse .endInString
  | fuel + 1 => do
    match ← get with
    | [] => refuse .endInString
    | '"' :: s =>
      set s
      return []
    | '\\' :: s =>
      set s
      return (← readEscape) :: (← readString fuel)
    | c :: s =>
      if c.toNat < 32 then refuseNext .controlCharacter
      set s
      return c :: (← readString fuel)

/-- Reads a string, with fuel for all that is left. -/
def readWholeString : Reader Text := do readString ((← get).length + 1)

/-! ### Values -/

/-- The number of levels up to which values may be nested. -/
def nestingLimit : Nat := 128

mutual

/-- Reads a value. `fuel` bounds the number of steps, and `depth` is the nesting of values. -/
def readValue : Nat → Nat → Reader Json
  | 0, _ => refuse .tooDeep
  | fuel + 1, depth => do
    match ← nextAfterBlanks with
    | none => refuse .endInValue
    | some 'n' =>
      skip
      readWord "ull".toList
      return .null
    | some 't' =>
      skip
      readWord "rue".toList
      return .bool true
    | some 'f' =>
      skip
      readWord "alse".toList
      return .bool false
    | some '-' =>
      skip
      readNumber true
    | some '"' =>
      skip
      return .string (← readWholeString)
    | some '[' =>
      if nestingLimit ≤ depth + 1 then refuseNext .tooDeep
      skip
      return .array (← readItems fuel (depth + 1) true)
    | some '{' =>
      if nestingLimit ≤ depth + 1 then refuseNext .tooDeep
      skip
      return .object (← readMembers fuel (depth + 1) true)
    | some c => if c.isDigit then readNumber false else refuseNext .valueExpected

/-- Reads the items of a list up to its end. -/
def readItems : Nat → Nat → Bool → Reader (List Json)
  | 0, _, _ => refuse .tooDeep
  | fuel + 1, depth, first => do
    match ← nextAfterBlanks with
    | none => refuse .endInList
    | some ']' =>
      skip
      return []
    | some c =>
      if !first then
        if c != ',' then refuseNext .listEndExpected
        skip
        match ← nextAfterBlanks with
        | some ']' => refuseNext .trailingComma
        | some _ => pure ()
        | none => refuse .endInValue
      let item ← readValue fuel depth
      return item :: (← readItems fuel depth false)

/-- Reads the members of an object up to its end. -/
def readMembers : Nat → Nat → Bool → Reader (List (Text × Json))
  | 0, _, _ => refuse .tooDeep
  | fuel + 1, depth, first => do
    match ← nextAfterBlanks with
    | none => refuse .endInObject
    | some '}' =>
      skip
      return []
    | some c =>
      if !first then
        if c != ',' then refuseNext .objectEndExpected
        skip
      match ← nextAfterBlanks with
      | some '"' => skip
      | some '}' => refuseNext .trailingComma
      | some _ => refuseNext .keyNotString
      | none => refuse .endInValue
      let key ← readWholeString
      match ← nextAfterBlanks with
      | some ':' => skip
      | some _ => refuseNext .colonExpected
      | none => refuse .endInObject
      let value ← readValue fuel depth
      return (key, value) :: (← readMembers fuel depth false)

end

/-- Checks that nothing but blanks is left. -/
def readEnd : Reader Unit := do
  if (← nextAfterBlanks).isSome then refuseNext .trailingCharacters

/-- The value at the start of a text, with what follows it. Each step reads a character at least, or
ends a list. -/
def readFirst (s : Text) : Except Refusal (Json × Text) :=
  (readValue (2 * s.length + 4) 0).run s

/-- Places a fault that was found in a text. -/
def Refusal.toError (r : Refusal) (s : Text) : SyntaxError :=
  .at r.fault (Text.byteLength s - r.remaining) s

/-- Makes something of the value that a text describes. What is wrong with the value itself comes
before what follows it in the text. -/
def parseWith {ε α : Type} (s : Text) (refused : SyntaxError → ε) (make : Json → Except ε α) :
    Except ε α :=
  match readFirst s with
  | .error r => .error (refused (r.toError s))
  | .ok (value, rest) => do
    let a ← make value
    match StateT.run readEnd rest with
    | .error r => .error (refused (r.toError s))
    | .ok _ => .ok a

end TabFormat.Json
