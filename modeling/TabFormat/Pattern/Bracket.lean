import TabFormat.Pattern.CharSet

/-!
# Sets in brackets

The inside of brackets is read from its pieces, in which escapes are already resolved. A set in
brackets is a union of characters, ranges and nested sets; unions may be combined by `&&`, `--` and
`~~`, which group to the left. A hyphen at the start of a set and a closing bracket in the first
place stand for themselves.
-/

namespace TabFormat.Bracket

/-- A piece of the text of a set in brackets. -/
inductive Piece where
  /-- A character that may have a meaning of its own. -/
  | raw (c : Char)
  /-- A character that stands for itself. -/
  | literal (c : Char)
  /-- A set that was written by an escape. -/
  | set (s : CharSet)
deriving DecidableEq, Repr

/-- A set in brackets while it is read. -/
structure Level where
  /-- Whether the set is negated. -/
  negated : Bool := false
  /-- The sets before the last operation, and that operation. -/
  left : Option (CharSet × SetOperation) := none
  /-- The union since then. -/
  items : CharSet := .empty
deriving DecidableEq, Repr

namespace Level

/-- Adds a set to the union. -/
def add (level : Level) (s : CharSet) : Level :=
  { level with items := .union level.items s }

/-- The sets read so far, combined. -/
def combined (level : Level) : CharSet :=
  match level.left with
  | none => level.items
  | some (s, operation) => .combination operation s level.items

/-- Goes on to the right side of an operation. -/
def operate (level : Level) (operation : SetOperation) : Level :=
  { level with left := some (level.combined, operation), items := .empty }

/-- The set, once its closing bracket is read. -/
def close (level : Level) : CharSet :=
  .bracket level.combined level.negated

end Level

/-- The set of one piece, where it is not an operator. -/
def Piece.toSet : Piece → CharSet
  | raw c => .single c
  | literal c => .single c
  | set s => s

/-- The character of a piece, if it is one. -/
def Piece.char? : Piece → Option Char
  | raw c => some c
  | literal c => some c
  | set _ => none

/-- Opens a set, whose opening bracket is read: the level with the characters that stand for
themselves because of their place, and what follows them. -/
def openLevel (pieces : List Piece) : Level × List Piece :=
  let (negated, pieces) :=
    match pieces with
    | .raw '^' :: rest => (true, rest)
    | _ => (false, pieces)
  let rest := pieces.dropWhile (· == .raw '-')
  let level : Level := { negated }
  if rest.length < pieces.length then (level.add (.single '-'), rest)
  else
    match rest with
    | .raw ']' :: rest => (level.add (.single ']'), rest)
    | _ => (level, rest)

/-- The character of a piece, if it may have a meaning of its own. -/
def Piece.raw? : Piece → Option Char
  | raw c => some c
  | literal _ => none
  | set _ => none

/-- A named ASCII set, whose opening bracket is read: `:name:]`. -/
def asciiSet? (pieces : List Piece) : Option (CharSet × List Piece) :=
  match pieces with
  | .raw ':' :: rest =>
    let (negated, rest) :=
      match rest with
      | .raw '^' :: rest => (true, rest)
      | _ => (false, rest)
    let name := rest.takeWhile fun p => p != .raw ':'
    match rest.drop name.length with
    | .raw ':' :: .raw ']' :: rest =>
      (name.mapM Piece.raw?).bind fun name => (CharSet.ofAsciiName? name negated).map (·, rest)
    | _ => none
  | _ => none

/-- Reads a single piece or a range. The result is nothing if a range is malformed. -/
def readRange? (first : Piece) (rest : List Piece) : Option (CharSet × List Piece) :=
  match rest with
  | .raw '-' :: .raw ']' :: _ => some (first.toSet, rest)
  | .raw '-' :: .raw '-' :: _ => some (first.toSet, rest)
  | .raw '-' :: last :: rest =>
    match first.char?, last.char? with
    | some a, some b => if a ≤ b then some (.range a b, rest) else none
    | _, _ => none
  | _ => some (first.toSet, rest)

/-- Reads pieces, given the levels around the current one, innermost first. `fuel` bounds the number
of steps. The result is nothing unless the pieces end with the outermost set. -/
def readLevels? : Nat → Level → List Level → List Piece → Option CharSet
  | 0, _, _, _ => none
  | _ + 1, _, _, [] => none
  | fuel + 1, level, outer, .raw '[' :: rest =>
    match asciiSet? rest with
    | some (s, rest) => readLevels? fuel (level.add s) outer rest
    | none =>
      let (inner, rest) := openLevel rest
      readLevels? fuel inner (level :: outer) rest
  | fuel + 1, level, outer, .raw ']' :: rest =>
    match outer with
    | next :: outer => readLevels? fuel (next.add level.close) outer rest
    | [] => if rest.isEmpty then some level.close else none
  | fuel + 1, level, outer, .raw '&' :: .raw '&' :: rest =>
    readLevels? fuel (level.operate .intersection) outer rest
  | fuel + 1, level, outer, .raw '-' :: .raw '-' :: rest =>
    readLevels? fuel (level.operate .difference) outer rest
  | fuel + 1, level, outer, .raw '~' :: .raw '~' :: rest =>
    readLevels? fuel (level.operate .symmetricDifference) outer rest
  | fuel + 1, level, outer, piece :: rest =>
    match readRange? piece rest with
    | some (s, rest) => readLevels? fuel (level.add s) outer rest
    | none => none

/-- The set that is written by the pieces after an opening bracket, up to and with the closing
bracket. Each step consumes a piece at least. -/
def read? (pieces : List Piece) : Option CharSet :=
  let (level, rest) := openLevel pieces
  readLevels? (pieces.length + 1) level [] rest

example : (read? [.raw 'a', .raw '-', .raw 'c', .raw ']']).map (·.holds false 'b') = some true := by
  decide

end TabFormat.Bracket
