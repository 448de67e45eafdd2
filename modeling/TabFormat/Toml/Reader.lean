import TabFormat.Text.Digits
import TabFormat.Toml.Basic

/-!
# Reading TOML

The reader follows the grammar of TOML 1.0. What is wrong with a document is not told apart, but
where it shows is kept.
-/

namespace TabFormat.Toml

/-- Reads a part of a document. The state is what is still to be read; a failure says how many bytes
follow its place. -/
abbrev Reader := StateT Text (Except Nat)

/-- Refuses the document because of what comes next. -/
def refuse {α : Type} : Reader α := do throw (Text.byteLength (← get))

/-- Passes over so many characters. -/
def skip (count : Nat) : Reader Unit := modify (·.drop count)

/-- Passes over a text if it comes next; the result says whether it does. -/
def skipText (s : String) : Reader Bool := do
  if s.toList.isPrefixOf (← get) then
    skip s.length
    return true
  else return false

/-- Reads a given text. -/
def expect (s : String) : Reader Unit := do
  if !(← skipText s) then refuse

/-- Reads the longest run of characters of a kind. -/
def readWhile (kind : Char → Bool) : Reader Text := do
  let run := (← get).takeWhile kind
  skip run.length
  return run

/-! ### Blanks, comments and ends of lines -/

/-- Whether the character is a space or a tab. -/
def isSpace (c : Char) : Bool := c == ' ' || c == '\t'

/-- Whether the character may stand in a comment. -/
def isCommentChar (c : Char) : Bool := c == '\t' || ' ' ≤ c && c != '\x7f'

/-- Passes over spaces and tabs. -/
def skipSpaces : Reader Unit := do let _ ← readWhile isSpace

/-- Passes over the end of a line, if it comes next; the result says whether it does. -/
def skipNewline : Reader Bool := do
  if ← skipText "\n" then return true else skipText "\r\n"

/-- Passes over a comment, if it comes next. -/
def skipComment : Reader Unit := do
  if ← skipText "#" then
    let _ ← readWhile isCommentChar

/-- Reads the rest of a line after a statement. -/
def readLineEnd : Reader Unit := do
  skipSpaces
  skipComment
  if !(← get).isEmpty then
    if !(← skipNewline) then refuse

/-- Passes over blanks, comments and ends of lines. `fuel` bounds the number of lines. -/
def skipLines : Nat → Reader Unit
  | 0 => return ()
  | fuel + 1 => do
    skipSpaces
    skipComment
    if ← skipNewline then skipLines fuel

/-- Passes over blanks, comments and ends of lines, as many as there are. -/
def skipAllLines : Reader Unit := do skipLines ((← get).length + 1)

/-! ### Strings -/

/-- Whether the character may stand in a string between double quotation marks. -/
def isBasicChar (c : Char) : Bool := isCommentChar c && c != '"' && c != '\\'

/-- Whether the character may stand in a string between apostrophes. -/
def isLiteralChar (c : Char) : Bool := isCommentChar c && c != '\''

/-- Reads the number of a character, which has so many digits. -/
def readCodePoint (count : Nat) : Reader Char := do
  let digits := (← get).take count
  let n := Text.ofDigits 16 digits
  if digits.length = count ∧ digits.all Text.isHexDigit ∧ n.isValidChar then
    skip count
    return Char.ofNat n
  else refuse

/-- Reads an escape, whose backslash is read. -/
def readEscape : Reader Char := do
  match ← get with
  | [] => refuse
  | c :: s =>
    let simple (d : Char) : Reader Char := do
      set s
      return d
    match c with
    | 'b' => simple '\x08'
    | 'f' => simple '\x0c'
    | 'n' => simple '\n'
    | 'r' => simple '\r'
    | 't' => simple '\t'
    | '"' => simple '"'
    | '\\' => simple '\\'
    | 'u' =>
      set s
      readCodePoint 4
    | 'U' =>
      set s
      readCodePoint 8
    | _ => refuse

/-- Reads a string on one line, whose opening double quotation mark is read. -/
def readBasic : Nat → Reader Text
  | 0 => refuse
  | fuel + 1 => do
    match ← get with
    | '"' :: s =>
      set s
      return []
    | '\\' :: s =>
      set s
      return (← readEscape) :: (← readBasic fuel)
    | c :: s =>
      if !isBasicChar c then refuse
      set s
      return c :: (← readBasic fuel)
    | [] => refuse

/-- Reads a string on one line, whose opening apostrophe is read. -/
def readLiteral : Reader Text := do
  let s ← readWhile isLiteralChar
  expect "'"
  return s

/-- Reads quotation marks in a string of several lines: the marks that belong to the string, and
whether the string ends with them. Three marks end it, and up to two before them belong to it. -/
def readMarks (mark : Char) : Reader (Text × Bool) := do
  let count := ((← get).takeWhile (· == mark)).length
  if count < 3 then
    skip count
    return (List.replicate count mark, false)
  else
    let inside := min (count - 3) 2
    skip (inside + 3)
    return (List.replicate inside mark, true)

/-- Passes over the end of a line and the blanks after it, where a backslash stands before it. The
result says whether there is one. -/
def skipFoldedLines : Reader Bool := do
  let before ← get
  skipSpaces
  if ← skipNewline then
    let _ ← readWhile fun c => isSpace c || c == '\n' || c == '\r'
    return true
  else
    set before
    return false

/-- Reads a string of several lines, whose opening double quotation marks are read. -/
def readBasicLines : Nat → Reader Text
  | 0 => refuse
  | fuel + 1 => do
    match ← get with
    | '"' :: _ =>
      let (inside, closed) ← readMarks '"'
      return inside ++ (← if closed then pure [] else readBasicLines fuel)
    | '\\' :: s =>
      set s
      if ← skipFoldedLines then readBasicLines fuel
      else return (← readEscape) :: (← readBasicLines fuel)
    | c :: s =>
      if ← skipNewline then return '\n' :: (← readBasicLines fuel)
      else
        if !isBasicChar c then refuse
        set s
        return c :: (← readBasicLines fuel)
    | [] => refuse

/-- Reads a string of several lines, whose opening apostrophes are read. -/
def readLiteralLines : Nat → Reader Text
  | 0 => refuse
  | fuel + 1 => do
    match ← get with
    | '\'' :: _ =>
      let (inside, closed) ← readMarks '\''
      return inside ++ (← if closed then pure [] else readLiteralLines fuel)
    | c :: s =>
      if ← skipNewline then return '\n' :: (← readLiteralLines fuel)
      else
        if !isLiteralChar c then refuse
        set s
        return c :: (← readLiteralLines fuel)
    | [] => refuse

/-- Reads a string, which begins with a quotation mark. -/
def readString : Reader Text := do
  let fuel := (← get).length + 1
  if ← skipText "\"\"\"" then
    let _ ← skipNewline
    readBasicLines fuel
  else if ← skipText "'''" then
    let _ ← skipNewline
    readLiteralLines fuel
  else if ← skipText "\"" then readBasic fuel
  else
    expect "'"
    readLiteral

/-! ### Keys -/

/-- Whether the character may stand in a key without quotation marks. -/
def isKeyChar (c : Char) : Bool := c.isAlphanum || c == '_' || c == '-'

/-- Reads a single key, with spaces around it. -/
def readSimpleKey : Reader Text := do
  skipSpaces
  let fuel := (← get).length + 1
  let key ←
    if ← skipText "\"" then readBasic fuel
    else if ← skipText "'" then readLiteral
    else
      let key ← readWhile isKeyChar
      if key.isEmpty then refuse
      pure key
  skipSpaces
  return key

/-- The number of levels up to which values may be nested and keys be dotted. -/
def nestingLimit : Nat := 80

/-- Reads the keys after the first one of a dotted key. -/
def readMoreKeys : Nat → Reader (List Text)
  | 0 => refuse
  | fuel + 1 => do
    if ← skipText "." then return (← readSimpleKey) :: (← readMoreKeys fuel) else return []

/-- Reads a dotted key: the keys before the last one, and the last one. -/
def readKey : Reader (List Text × Text) := do
  let first ← readSimpleKey
  let keys := first :: (← readMoreKeys nestingLimit)
  if nestingLimit ≤ keys.length then refuse
  return (keys.dropLast, keys.getLastD [])

/-! ### Numbers -/

/-- The digits at the start of a text, among which single underscores may stand, with what follows
them. -/
def digits? (isDigit : Char → Bool) : Text → Option (Text × Text)
  | c :: '_' :: d :: rest =>
    if isDigit c then
      if isDigit d then (digits? isDigit (d :: rest)).map fun r => (c :: r.1, r.2)
      else some ([c], '_' :: d :: rest)
    else none
  | c :: rest =>
    if isDigit c then
      match digits? isDigit rest with
      | some (digits, rest) => some (c :: digits, rest)
      | none => some ([c], rest)
    else none
  | [] => none

/-- Whether the character is an octal digit. -/
def isOctalDigit (c : Char) : Bool := '0' ≤ c && c ≤ '7'

/-- Whether the character is a binary digit. -/
def isBinaryDigit (c : Char) : Bool := c == '0' || c == '1'

/-- The largest whole number. -/
def integerLimit : Nat := 9223372036854775807

/-- The value of a whole number, unless it is too large. -/
def integer? (negative : Bool) (n : Nat) : Option Toml :=
  if negative then if n ≤ integerLimit + 1 then some (.integer (-n)) else none
  else if n ≤ integerLimit then some (.integer n) else none

/-- The sign at the start of a text, as whether it is negative, with what follows it. -/
def splitSign : Text → Bool × Text
  | '-' :: s => (true, s)
  | '+' :: s => (false, s)
  | s => (false, s)

/-- The decimal digits of a whole number at the start of a text, which has no zeros in front, with
what follows them. -/
def wholeDigits? (s : Text) : Option (Text × Text) :=
  match s with
  | '0' :: rest => some (['0'], rest)
  | s => digits? Char.isDigit s

/-- The digits of the fraction at the start of a text, with what follows them. -/
def fraction? : Text → Option (Text × Text)
  | '.' :: s => digits? Char.isDigit s
  | _ => none

/-- The exponent at the start of a text, with what follows it. -/
def exponent? : Text → Option (Int × Text)
  | c :: s =>
    if c == 'e' || c == 'E' then do
      let (negative, s) := splitSign s
      let (digits, rest) ← digits? Char.isDigit s
      let n : Int := Text.ofDigits 10 digits
      return (if negative then -n else n, rest)
    else none
  | [] => none

/-- Whether a decimal number lies beyond the numbers of double precision. -/
def isTooLarge (digits : Text) (exponent : Int) : Bool :=
  let n := Text.ofDigits 10 digits
  let scale := exponent + digits.length
  n != 0 && 0 < scale &&
    (310 + digits.length < scale ||
      Text.doubleLimit * Nat.pow 10 digits.length ≤ n * Nat.pow 10 scale.toNat)

/-- The number with a fraction or an exponent at the start of a text, with what follows it. The
result is nothing if there is none, and holds no value if the number is too large. -/
def float? (s : Text) : Option (Option Toml × Text) := do
  let (negative, s) := splitSign s
  let (whole, s) ← wholeDigits? s
  let (fraction, s') := (fraction? s).getD ([], s)
  let (exponent, rest) := (exponent? s').getD (0, s')
  if rest.length = s.length then none
  else
    let large := !negative && isTooLarge (whole ++ fraction) (exponent - fraction.length)
    some (if large then none else some .other, rest)

/-- The infinity or the undefined number at the start of a text, with what follows it. -/
def specialFloat? (s : Text) : Option Text :=
  match (splitSign s).2 with
  | 'i' :: 'n' :: 'f' :: rest => some rest
  | 'n' :: 'a' :: 'n' :: rest => some rest
  | _ => none

/-- Reads a whole number in another base than ten, after the letter that says so. -/
def readBased (base : Nat) (isDigit : Char → Bool) : Reader Toml := do
  match digits? isDigit (← get) with
  | some (digits, rest) =>
    match integer? false (Text.ofDigits base digits) with
    | some v =>
      set rest
      return v
    | none => refuse
  | none => refuse

/-- Reads a number. -/
def readNumber : Reader Toml := do
  let s ← get
  match float? s, specialFloat? s with
  | some (some v, rest), _ =>
    set rest
    return v
  | some (none, _), _ => refuse
  | none, some rest =>
    set rest
    return .other
  | none, none =>
    if ← skipText "0x" then readBased 16 Text.isHexDigit
    else if ← skipText "0o" then readBased 8 isOctalDigit
    else if ← skipText "0b" then readBased 2 isBinaryDigit
    else
      let (negative, s) := splitSign s
      match wholeDigits? s with
      | some (digits, rest) =>
        match integer? negative (Text.ofDigits 10 digits) with
        | some v =>
          set rest
          return v
        | none => refuse
      | none => refuse

/-! ### Dates and times -/

/-- Reads a number of so many digits. -/
def readFixed (count : Nat) : Reader Nat := do
  let digits := (← get).take count
  if digits.length = count ∧ digits.all Char.isDigit then
    skip count
    return Text.ofDigits 10 digits
  else refuse

/-- Reads a number of two digits between bounds. -/
def readTwoDigits (least most : Nat) : Reader Nat := do
  let before ← get
  let n ← readFixed 2
  if n < least || most < n then
    set before
    refuse
  return n

/-- Whether a year has a leap day. -/
def isLeapYear (year : Nat) : Bool := year % 4 = 0 && (year % 100 != 0 || year % 400 = 0)

/-- The number of days of a month. -/
def daysIn (year month : Nat) : Nat :=
  if month = 2 then if isLeapYear year then 29 else 28
  else if [4, 6, 9, 11].contains month then 30
  else 31

/-- Reads a date, whose year and first hyphen are known to come next. -/
def readDate : Reader Unit := do
  let year ← readFixed 4
  expect "-"
  let month ← readTwoDigits 1 12
  expect "-"
  let _ ← readTwoDigits 1 (daysIn year month)

/-- Reads a time of day. -/
def readTime : Reader Unit := do
  let _ ← readTwoDigits 0 23
  expect ":"
  let _ ← readTwoDigits 0 59
  expect ":"
  let _ ← readTwoDigits 0 60
  match ← get with
  | '.' :: c :: s =>
    if c.isDigit then
      set s
      let _ ← readWhile Char.isDigit
  | _ => pure ()

/-- Reads the distance from universal time, if it is given. -/
def readOffset : Reader Unit := do
  match ← get with
  | 'Z' :: s | 'z' :: s => set s
  | '+' :: s | '-' :: s =>
    set s
    let _ ← readTwoDigits 0 23
    expect ":"
    let _ ← readTwoDigits 0 59
  | _ => pure ()

/-- Whether a text begins with so many digits and then a mark. -/
def startsWithDigits (count : Nat) (mark : Char) (s : Text) : Bool :=
  (s.take count).all Char.isDigit && (s.drop count).head? = some mark

/-- Reads a date or a time, if it comes next. -/
def readMoment : Reader (Option Toml) := do
  let s ← get
  if startsWithDigits 4 '-' s then
    readDate
    match ← get with
    | c :: rest =>
      if (c == 'T' || c == 't' || c == ' ') && startsWithDigits 2 ':' rest then
        set rest
        readTime
        readOffset
    | [] => pure ()
    return some .other
  else if startsWithDigits 2 ':' s then
    readTime
    return some .other
  else return none

/-! ### Values -/

mutual

/-- Reads a value. `fuel` bounds the number of steps, and `depth` is the nesting of values. -/
def readValue : Nat → Nat → Reader Toml
  | 0, _ => refuse
  | fuel + 1, depth => do
    match ← get with
    | [] => refuse
    | '"' :: _ | '\'' :: _ => return .string (← readString)
    | '[' :: s =>
      if nestingLimit ≤ depth + 1 then refuse
      set s
      return .array (← readItems fuel (depth + 1))
    | '{' :: s =>
      if nestingLimit ≤ depth + 1 then refuse
      set s
      skipSpaces
      if ← skipText "\x7d" then return .table []
      return .table (Entry.entriesToToml (← readInline fuel (depth + 1) []))
    | 't' :: _ =>
      expect "true"
      return .bool true
    | 'f' :: _ =>
      expect "false"
      return .bool false
    | _ =>
      match ← readMoment with
      | some v => return v
      | none => readNumber

/-- Reads the items of a list up to its end. -/
def readItems : Nat → Nat → Reader (List Toml)
  | 0, _ => refuse
  | fuel + 1, depth => do
    skipAllLines
    if ← skipText "]" then return []
    let item ← readValue fuel depth
    skipAllLines
    if ← skipText "," then return item :: (← readItems fuel depth)
    expect "]"
    return [item]

/-- Reads the pairs of a table in braces up to its end, and adds them to those before. -/
def readInline : Nat → Nat → Entries → Reader Entries
  | 0, _, _ => refuse
  | fuel + 1, depth, entries => do
    let before ← get
    let (path, key) ← readKey
    expect "="
    skipSpaces
    let v ← readValue fuel depth
    skipSpaces
    match Entry.addPair path key v entries with
    | none =>
      set before
      refuse
    | some entries =>
      if ← skipText "," then readInline fuel depth entries
      else
        expect "\x7d"
        return entries

end

/-! ### Documents -/

/-- A document while it is read: the outermost table, and the path of the table that the last header
named. -/
structure Document where
  /-- The outermost table. -/
  root : Entries := []
  /-- The path of the current table. -/
  path : List Text := []

/-- Reads a header, which begins with a bracket. -/
def readHeader (d : Document) : Reader Document := do
  let before ← get
  let list ← skipText "[["
  if !list then expect "["
  let (path, key) ← readKey
  expect (if list then "]]" else "]")
  readLineEnd
  let add := if list then Entry.addItem key else Entry.addTable key
  match Entry.changeAt .inner (fun _ => add) .header path d.root with
  | some root => return { root, path := path ++ [key] }
  | none =>
    set before
    refuse

/-- Reads a key with its value. -/
def readPair (d : Document) : Reader Document := do
  let before ← get
  let (path, key) ← readKey
  expect "="
  skipSpaces
  let v ← readValue (2 * before.length + 4) 0
  readLineEnd
  match Entry.changeAt .inner (fun _ => Entry.addPair path key v) .header d.path d.root with
  | some root => return { d with root }
  | none =>
    set before
    refuse

/-- Reads lines up to the end of the document. `fuel` bounds the number of lines. -/
def readLines : Nat → Document → Reader Document
  | 0, _ => refuse
  | fuel + 1, d => do
    skipSpaces
    match ← get with
    | [] => return d
    | '#' :: _ | '\n' :: _ | '\r' :: _ =>
      readLineEnd
      readLines fuel d
    | '[' :: _ => readLines fuel (← readHeader d)
    | _ => readLines fuel (← readPair d)

/-- The table that a document describes, or the byte position where something is wrong. A byte order
mark may come first. -/
def parse (s : Text) : Except Nat (List (Text × Toml)) :=
  let body := if s.head? = some '\ufeff' then s.drop 1 else s
  match (readLines (body.length + 1) {}).run body with
  | .ok (d, _) => .ok (Entry.entriesToToml d.root)
  | .error remaining => .error (Text.byteLength s - remaining)

end TabFormat.Toml
