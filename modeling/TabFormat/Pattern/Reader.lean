import TabFormat.Pattern.Basic
import TabFormat.Pattern.Bracket
import TabFormat.Pattern.Fault
import TabFormat.Text.Digits

/-!
# Reading patterns

A pattern is a list of alternatives, an alternative a sequence of pieces, and a piece an atom that
may be repeated. Flags that are set in the middle of a pattern hold from there on, up to the end of
the group of flags around them. Comments `(?#…)` are passed over everywhere, and with the flag `x`
white space and comments from `#` to the end of the line as well.
-/

namespace TabFormat.Pattern

/-! ### The state of the reading -/

/-- The flags of a pattern. -/
structure Flags where
  /-- Letter case is disregarded. -/
  fold : Bool := false
  /-- `^` and `$` stand for the ends of lines. -/
  multiline : Bool := false
  /-- `.` stands for the newline as well. -/
  dotAll : Bool := false
  /-- Repetitions are lazy unless marked, instead of greedy. -/
  swapGreed : Bool := false
  /-- White space and comments are passed over. -/
  extended : Bool := false
deriving DecidableEq, Repr

/-- What is known while a pattern is read. -/
structure Reading where
  /-- The number of bytes of the whole pattern. -/
  size : Nat
  /-- What is still to be read. -/
  rest : Text
  /-- The flags that hold here. -/
  flags : Flags := {}
  /-- The number of groups opened so far. -/
  groups : Nat := 0
  /-- The names of groups, last one first. -/
  names : List (Text × Nat) := []
  /-- The groups that are referred to. -/
  referenced : List Nat := []
  /-- Whether a group is referred to by a number. -/
  numbered : Bool := false
deriving Repr

/-- Reads a part of a pattern. -/
abbrev Reader := StateT Reading (Except Failure)

/-- Refuses the pattern because of a fault here. -/
def refuse {α : Type} (fault : Fault) : Reader α := do
  let r ← get
  throw (.malformed (r.size - Text.byteLength r.rest) fault)

/-- What is still to be read. -/
def ahead : Reader Text := do return (← get).rest

/-- Goes on to a later part of the text. -/
def continueAt (rest : Text) : Reader Unit := modify fun r => { r with rest }

/-- The flags that hold here. -/
def flagsHere : Reader Flags := do return (← get).flags

/-! ### Blanks and comments -/

/-- What is passed over. -/
inductive Passing where
  /-- Blanks, up to something else. -/
  | blanks
  /-- A comment up to the end of the line. -/
  | line
  /-- A comment up to a closing parenthesis. -/
  | group
deriving DecidableEq, Repr

/-- The text without the blanks and comments at its start, or nothing if a comment is not closed. -/
def pastBlanks? (extended : Bool) : Passing → Text → Option Text
  | .group, ')' :: rest => pastBlanks? extended .blanks rest
  | .group, '\\' :: _ :: rest => pastBlanks? extended .group rest
  | .group, _ :: rest => pastBlanks? extended .group rest
  | .group, [] => none
  | .line, '\n' :: rest => pastBlanks? extended .blanks rest
  | .line, _ :: rest => pastBlanks? extended .line rest
  | .line, [] => some []
  | .blanks, '(' :: '?' :: '#' :: rest => pastBlanks? extended .group rest
  | .blanks, c :: rest =>
    if extended && c == '#' then pastBlanks? extended .line rest
    else if extended && (c == ' ' || c == '\r' || c == '\n' || c == '\t') then
      pastBlanks? extended .blanks rest
    else some (c :: rest)
  | .blanks, [] => some []

/-- Passes over blanks and comments. -/
def skipBlanks : Reader Unit := do
  match pastBlanks? (← flagsHere).extended .blanks (← ahead) with
  | some rest => continueAt rest
  | none =>
    continueAt []
    refuse .unclosedParen

/-- Reads a closing parenthesis, with blanks before it. -/
def readCloseParen : Reader Unit := do
  skipBlanks
  match ← ahead with
  | ')' :: rest => continueAt rest
  | [] => refuse .unclosedParen
  | _ => refuse .closeParenExpected

/-! ### Numbers and names -/

/-- The decimal number at the start of a text, with what follows it. -/
def number? (s : Text) : Option (Nat × Text) :=
  let digits := s.takeWhile Char.isDigit
  if digits.isEmpty || Text.wordLimit < Text.ofDigits 10 digits then none
  else some (Text.ofDigits 10 digits, s.drop digits.length)

/-- Whether the character may occur in the name of a group. -/
def isNameChar (c : Char) : Bool := Text.isAlphanumeric c || c == '_'

/-- The name at the start of a text, with what follows it and the mark that closes it. -/
def name? (close : Char) (s : Text) : Option (Text × Text) :=
  let name := s.takeWhile isNameChar
  match s.drop name.length with
  | c :: rest => if c == close && !name.isEmpty then some (name, rest) else none
  | [] => none

/-- The bounds of a repetition whose opening brace is read, with what follows the closing one. -/
def bounds? (extended : Bool) (s : Text) : Option (Nat × Option Nat × Text) := do
  let s ← pastBlanks? extended .blanks s
  let (least, s) ← if s.head? = some ',' then some (0, s) else number? s
  match ← pastBlanks? extended .blanks s with
  | '}' :: rest => some (least, some least, rest)
  | ',' :: rest =>
    let s ← pastBlanks? extended .blanks rest
    let (most, s) :=
      match number? s with
      | some (most, s) => (if most = Text.wordLimit then none else some most, s)
      | none => (none, s)
    match ← pastBlanks? extended .blanks s with
    | '}' :: rest => some (least, most, rest)
    | _ => none
  | _ => none

/-! ### References -/

/-- A reference to a group, which must be opened before. -/
def referTo (index : Nat) : Reader Pattern := do
  if (← get).groups < index then refuse .invalidReference
  modify fun r => { r with referenced := index :: r.referenced }
  return .reference index

/-- Reads a reference by number. -/
def readNumberedReference : Reader Pattern := do
  match number? (← ahead) with
  | some (index, rest) =>
    if (← get).size / 2 ≤ index then refuse .invalidReference
    continueAt rest
    modify fun r => { r with numbered := true }
    referTo index
  | none => refuse .invalidReference

/-- Reads a reference by name, up to the mark that closes it. In place of a name, the number of the
group may be given, or with `relative` a number after a hyphen, which counts groups backwards. -/
def readNamedReference (close : Char) (relative : Bool) : Reader Pattern := do
  match ← ahead with
  | '-' :: s =>
    match name? close s, relative with
    | some (name, rest), true =>
      match number? name with
      | some (back, []) =>
        if back = 0 || (← get).groups < back then refuse .invalidReference
        continueAt rest
        referTo ((← get).groups + 1 - back)
      | _ => refuse .invalidName
    | _, _ => refuse .invalidName
  | s =>
    match name? close s with
    | some (name, rest) =>
      match (← get).names.lookup name, number? name with
      | some index, _ =>
        continueAt rest
        referTo index
      | none, some (index, []) =>
        continueAt rest
        referTo index
      | none, _ => refuse (.unknownName name)
    | none => refuse .invalidName

/-! ### Escapes -/

/-- What an escape stands for. -/
inductive Escaped where
  /-- A character that is matched as it is. -/
  | char (c : Char)
  /-- A character that was written as a number. -/
  | codePoint (c : Char)
  /-- A set of characters. -/
  | set (s : CharSet)
  /-- Something that has no meaning in a set. -/
  | other (p : Pattern)

/-- Reads the number of a character: so many digits, or one to eight digits in braces. -/
def readCodePoint (count : Nat) : Reader Escaped := do
  let s ← ahead
  let digits := s.take count
  let (digits, rest) ←
    if digits.length = count ∧ digits.all Text.isHexDigit then pure (digits, s.drop count)
    else
      match s with
      | '{' :: s =>
        let digits := s.takeWhile Text.isHexDigit
        match s.drop digits.length with
        | '}' :: rest =>
          if digits.isEmpty || 8 < digits.length then refuse .invalidHex
          pure (digits, rest)
        | _ => refuse .invalidHex
      | _ => refuse .invalidHex
  let n := Text.ofDigits 16 digits
  if n.isValidChar then
    continueAt rest
    return .codePoint (Char.ofNat n)
  else refuse .invalidCodePoint

/-- Reads a property of characters: a letter, or a description in braces. -/
def readProperty (negated : Bool) : Reader Escaped := do
  let (description, rest) ←
    match ← ahead with
    | '{' :: s =>
      let description := s.takeWhile (· != '}')
      match s.drop description.length with
      | _ :: rest => pure (description, rest)
      | [] => refuse .unclosedProperty
    | c :: rest => pure ([c], rest)
    | [] => refuse (.invalidEscape [])
  match CharSet.ofProperty? description negated with
  | some s =>
    continueAt rest
    return .set s
  | none => refuse .unknownProperty

/-- The characters that a backslash before a letter stands for. -/
def controlChar? : Char → Option Char
  | 'a' => some '\x07'
  | 'b' => some '\x08'
  | 'f' => some '\x0c'
  | 'n' => some '\n'
  | 'r' => some '\r'
  | 't' => some '\t'
  | 'v' => some '\x0b'
  | 'e' => some '\x1b'
  | _ => none

/-- Reads a test for a word boundary, whose letter is read. Braces are not allowed after it. -/
def readWordBoundary (anchor : Anchor) : Reader Escaped := do
  if (← ahead).head? = some '{' then refuse (.invalidEscape [])
  return .other (.anchor anchor)

/-- Reads an escape that has no meaning in a set, whose letter `c` is read; the result is nothing if
it is not one. -/
def readOuterEscape? (c : Char) : Reader (Option Escaped) := do
  match c with
  | 'k' =>
    match ← ahead with
    | '\'' :: rest =>
      continueAt rest
      return some (.other (← readNamedReference '\'' true))
    | '<' :: rest =>
      continueAt rest
      return some (.other (← readNamedReference '>' true))
    | _ => refuse .invalidName
  | 'A' => return some (.other (.anchor .textStart))
  | 'z' => return some (.other (.anchor .textEnd))
  | 'b' => return some (← readWordBoundary .wordBoundary)
  | 'B' => return some (← readWordBoundary .notWordBoundary)
  | '<' => return some (.other (.anchor .wordStart))
  | '>' => return some (.other (.anchor .wordEnd))
  | 'K' => return some (.other .keepOut)
  | 'G' => return some (.other .searchStart)
  | _ => return none

/-- Reads an escape that means the same everywhere, whose letter `c` is read. -/
def readCommonEscape (c : Char) : Reader Escaped := do
  match c with
  | 'd' => return .set (.shorthand .digit false)
  | 'D' => return .set (.shorthand .digit true)
  | 's' => return .set (.shorthand .space false)
  | 'S' => return .set (.shorthand .space true)
  | 'w' => return .set (.shorthand .word false)
  | 'W' => return .set (.shorthand .word true)
  | 'h' => return .set (.hexDigit false)
  | 'H' => return .set (.hexDigit true)
  | 'x' => readCodePoint 2
  | 'u' => readCodePoint 4
  | 'U' => readCodePoint 8
  | 'p' => readProperty false
  | 'P' => readProperty true
  | c =>
    match controlChar? c with
    | some control => return .char control
    | none =>
      if c.isAlpha && !(['k', 'A', 'z', 'B', 'K', 'G'].contains c) then
        refuse (.invalidEscape ['\\', c])
      else return .char c

/-- Reads an escape, whose backslash is read. -/
def readEscape (inSet : Bool) : Reader Escaped := do
  match ← ahead with
  | [] => refuse .trailingBackslash
  | c :: rest =>
    if c.isDigit then return .other (← readNumberedReference)
    continueAt rest
    if inSet then readCommonEscape c
    else
      match ← readOuterEscape? c with
      | some escaped => return escaped
      | none => readCommonEscape c

/-! ### Sets in brackets -/

/-- The characters that keep a meaning in a set unless they are escaped. -/
def isSetSpecial (c : Char) : Bool :=
  "\\.+*?()|[]\x7b\x7d^$#&-~".toList.contains c

/-- Reads the pieces of a set up to the bracket that closes it; `nesting` counts the brackets that
are open. `fuel` bounds the number of pieces. -/
def readPieces : Nat → Nat → Reader (List Bracket.Piece)
  | 0, _ => refuse .invalidSet
  | fuel + 1, nesting => do
    skipBlanks
    match ← ahead with
    | [] => refuse .invalidSet
    | '\\' :: rest =>
      continueAt rest
      let piece ←
        match ← readEscape true with
        | .char c => pure (if isSetSpecial c then .literal c else .raw c)
        | .codePoint c => pure (if isSetSpecial c then .literal c else .raw c)
        | .set s => pure (.set s)
        | .other _ => refuse .invalidSet
      return piece :: (← readPieces fuel nesting)
    | '[' :: rest =>
      continueAt rest
      return .raw '[' :: (← readPieces fuel (nesting + 1))
    | ']' :: rest =>
      continueAt rest
      if nesting = 1 then return [.raw ']']
      else return .raw ']' :: (← readPieces fuel (nesting - 1))
    | c :: rest =>
      continueAt rest
      return .raw c :: (← readPieces fuel nesting)

/-- Reads a set, whose opening bracket is read. -/
def readSet : Reader CharSet := do
  let (negation, s) : List Bracket.Piece × Text :=
    match ← ahead with
    | '^' :: rest => ([.raw '^'], rest)
    | s => ([], s)
  let (first, s) : List Bracket.Piece × Text :=
    match s with
    | ']' :: rest => ([.literal ']'], rest)
    | s => ([], s)
  continueAt s
  let pieces ← readPieces (s.length + 1) 1
  match Bracket.read? (negation ++ first ++ pieces) with
  | some inside => return inside
  | none => refuse .invalidSet

/-! ### Pieces, sequences and alternatives -/

/-- The pattern of a sequence. -/
def ofSequence : List Pattern → Pattern
  | [] => .empty
  | [p] => p
  | ps => .seq ps

/-- The pattern of one alternative, or of several. -/
def ofAlternatives : List Pattern → Pattern
  | [p] => p
  | ps => .alt ps

/-- Whether the pattern may be repeated. -/
def isRepeatable : Pattern → Bool
  | empty | anchor _ | look .. => false
  | _ => true

/-- Whether the pattern is the empty one. -/
def isEmpty : Pattern → Bool
  | empty => true
  | _ => false

/-- Opens a group; the result is its number. -/
def openGroup : Reader Nat := do
  modify fun r => { r with groups := r.groups + 1 }
  return (← get).groups

/-- Reads the name of a group that is opened, up to the closing angle bracket. -/
def readGroupName (index : Nat) : Reader Unit := do
  match name? '>' (← ahead) with
  | some (name, rest) =>
    continueAt rest
    modify fun r => { r with names := (name, index) :: r.names }
  | none => refuse .invalidName

/-- Sets or clears the flag of a letter; the result is nothing if there is no such flag. -/
def Flags.update? (flags : Flags) (on : Bool) : Char → Option Flags
  | 'i' => some { flags with fold := on }
  | 'm' => some { flags with multiline := on }
  | 's' => some { flags with dotAll := on }
  | 'U' => some { flags with swapGreed := on }
  | 'x' => some { flags with extended := on }
  | 'u' => some flags
  | _ => none

/-- Reads flags, up to the colon or the parenthesis that ends them. The result says whether it was a
colon. `fuel` bounds the number of flags, and `count` is the number of characters so far. -/
def readFlags : Nat → Nat → Bool → Reader Bool
  | 0, _, _ => refuse .unclosedParen
  | fuel + 1, count, negated => do
    skipBlanks
    match ← ahead with
    | [] => refuse .unclosedParen
    | ')' :: rest =>
      if count = 0 || negated && count = 1 then refuse (.unknownFlag "(?".toList)
      continueAt rest
      return false
    | ':' :: rest =>
      if negated && count = 1 then refuse (.unknownFlag "(?".toList)
      continueAt rest
      return true
    | '-' :: rest =>
      if negated then refuse (.unknownFlag "(?".toList)
      continueAt rest
      readFlags fuel (count + 1) true
    | c :: rest =>
      if c == 'u' && negated then refuse .unicodeRequired
      match (← flagsHere).update? (!negated) c with
      | some flags =>
        modify fun r => { r with flags, rest }
        readFlags fuel (count + 1) negated
      | none => refuse (.unknownFlag ['(', '?', c])

/-- The deepest nesting of groups that is allowed. -/
def nestingLimit : Nat := 63

/-- Reads the repetition of an atom, if there is one. -/
def readRepetition (atom : Pattern) : Reader Pattern := do
  skipBlanks
  let extended := (← flagsHere).extended
  let bounds : Option (Nat × Option Nat × Text) :=
    match ← ahead with
    | '?' :: rest => some (0, some 1, rest)
    | '*' :: rest => some (0, none, rest)
    | '+' :: rest => some (1, none, rest)
    | '{' :: rest => bounds? extended rest
    | _ => none
  match bounds with
  | none => return atom
  | some (least, most, rest) =>
    if !isRepeatable atom then refuse .notRepeatable
    continueAt rest
    skipBlanks
    let marked ←
      match ← ahead with
      | '?' :: rest => do
        continueAt rest
        pure true
      | _ => pure false
    let p := repeated atom least most (marked == (← flagsHere).swapGreed)
    match ← ahead with
    | '+' :: rest =>
      continueAt rest
      return .atomic p
    | _ => return p

/-- The condition that a pattern stands for: a reference asks whether its group has matched. -/
def toCondition : Pattern → Pattern
  | reference index => .hasMatched index
  | p => p

mutual

/-- Reads alternatives. `fuel` bounds the number of steps, and `depth` is the nesting of groups. -/
def readAlternatives : Nat → Nat → Reader Pattern
  | 0, _ => refuse .tooDeep
  | fuel + 1, depth => do
    let first ← readSequence fuel depth
    skipBlanks
    let others ← readOthers fuel depth
    if others.isEmpty && (← get).numbered && !(← get).names.isEmpty then refuse .mixedReferences
    return ofAlternatives (first :: others)

/-- Reads the alternatives after the first one. -/
def readOthers : Nat → Nat → Reader (List Pattern)
  | 0, _ => refuse .tooDeep
  | fuel + 1, depth => do
    match ← ahead with
    | '|' :: rest =>
      continueAt rest
      let p ← readSequence fuel depth
      skipBlanks
      return p :: (← readOthers fuel depth)
    | _ => return []

/-- Reads pieces one after another. -/
def readSequence : Nat → Nat → Reader Pattern
  | 0, _ => refuse .tooDeep
  | fuel + 1, depth => do return ofSequence (← readPiecesOf fuel depth)

/-- Reads the pieces of a sequence, without those that are empty. -/
def readPiecesOf : Nat → Nat → Reader (List Pattern)
  | 0, _ => refuse .tooDeep
  | fuel + 1, depth => do
    let before ← ahead
    if before.isEmpty then return []
    let p ← readRepetition (← readAtom fuel depth)
    if (← ahead).length = before.length then return []
    let ps ← readPiecesOf fuel depth
    return if isEmpty p then ps else p :: ps

/-- Reads an atom. -/
def readAtom : Nat → Nat → Reader Pattern
  | 0, _ => refuse .tooDeep
  | fuel + 1, depth => do
    skipBlanks
    let flags ← flagsHere
    match ← ahead with
    | [] => return .empty
    | '.' :: rest =>
      continueAt rest
      return .any flags.dotAll
    | '^' :: rest =>
      continueAt rest
      return .anchor (if flags.multiline then .lineStart else .textStart)
    | '$' :: rest =>
      continueAt rest
      return .anchor (if flags.multiline then .lineEnd else .textEnd)
    | '(' :: rest =>
      continueAt rest
      readGroup fuel (depth + 1)
    | '\\' :: rest =>
      continueAt rest
      match ← readEscape false with
      | .char c => return .char c false
      | .codePoint c => return .char c flags.fold
      | .set s => return .set s flags.fold
      | .other p => return p
    | '[' :: rest =>
      continueAt rest
      return .set (← readSet) flags.fold
    | c :: rest =>
      if ['+', '*', '?', '|', ')'].contains c then return .empty
      continueAt rest
      return .char c flags.fold

/-- Reads a group, whose opening parenthesis is read. -/
def readGroup : Nat → Nat → Reader Pattern
  | 0, _ => refuse .tooDeep
  | fuel + 1, depth => do
    if nestingLimit < depth then refuse .tooDeep
    skipBlanks
    let inside (rest : Text) : Reader Pattern := do
      continueAt rest
      let p ← readAlternatives fuel depth
      readCloseParen
      return p
    match ← ahead with
    | '?' :: '=' :: rest => return .look false false (← inside rest)
    | '?' :: '!' :: rest => return .look false true (← inside rest)
    | '?' :: '<' :: '=' :: rest => return .look true false (← inside rest)
    | '?' :: '<' :: '!' :: rest => return .look true true (← inside rest)
    | '?' :: '<' :: rest =>
      let index ← openGroup
      continueAt rest
      readGroupName index
      return .group index (← inside (← ahead))
    | '?' :: 'P' :: '<' :: rest =>
      let index ← openGroup
      continueAt rest
      readGroupName index
      return .group index (← inside (← ahead))
    | '?' :: 'P' :: '=' :: rest =>
      continueAt rest
      readNamedReference ')' false
    | '?' :: '>' :: rest => return .atomic (← inside rest)
    | '?' :: '(' :: rest =>
      continueAt rest
      readConditional fuel depth
    | '?' :: rest =>
      continueAt rest
      let before ← flagsHere
      if ← readFlags (rest.length + 1) 0 false then
        let p ← readAlternatives fuel depth
        match ← ahead with
        | ')' :: rest =>
          modify fun r => { r with flags := before, rest }
          return p
        | [] => refuse .unclosedParen
        | _ => refuse .closeParenExpected
      else return .empty
    | rest =>
      let index ← openGroup
      return .group index (← inside rest)

/-- Reads a conditional group from its condition on. -/
def readConditional : Nat → Nat → Reader Pattern
  | 0, _ => refuse .tooDeep
  | fuel + 1, depth => do
    let condition ←
      match ← ahead with
      | [] => refuse .unclosedParen
      | '\'' :: rest => do
        continueAt rest
        readNamedReference '\'' true
      | '<' :: rest => do
        continueAt rest
        readNamedReference '>' true
      | c :: _ => if c.isDigit then readNumberedReference else readAlternatives fuel depth
    readCloseParen
    let before ← ahead
    let branches ← readAlternatives fuel depth
    if (← ahead).length = before.length then
      match condition with
      | reference index =>
        readCloseParen
        return .hasMatched index
      | _ => refuse .branchExpected
    readCloseParen
    let (accepted, rejected) :=
      match branches with
      | .alt (p :: ps) => (p, ofAlternatives ps)
      | p => (p, .empty)
    if isEmpty accepted && isEmpty rejected then return toCondition condition
    return .conditional (toCondition condition) accepted rejected

end

/-! ### Whole patterns -/

/-- A pattern that has been read. -/
structure Parsed where
  /-- The pattern. -/
  pattern : Pattern
  /-- The number of its groups. -/
  groups : Nat
  /-- The names of groups, last one first. -/
  names : List (Text × Nat)
  /-- The groups that are referred to. -/
  referenced : List Nat
deriving Repr

/-- Reads a whole pattern. Between two steps that consume no character there are at most ten, which
bounds the number of steps. -/
def parse (s : Text) : Except Failure Parsed := do
  let (pattern, r) ←
    (readAlternatives (10 * (s.length + 2)) 0).run { size := s.byteLength, rest := s }
  if r.rest.isEmpty then
    return { pattern, groups := r.groups, names := r.names, referenced := r.referenced }
  else throw (.malformed (s.byteLength - Text.byteLength r.rest) .endExpected)

end TabFormat.Pattern
