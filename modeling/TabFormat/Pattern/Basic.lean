import TabFormat.Pattern.CharSet

/-!
# Patterns

The syntax trees of patterns, and what can be told of them without matching: the least number of
characters that a pattern matches, whether that number is fixed, and whether the pattern is regular.
A regular pattern can be matched in one pass over the text. The other ones look around, refer back
to groups, commit to a choice or test for word boundaries, and are matched by backtracking.
-/

namespace TabFormat

/-- A condition on a place in a text. -/
inductive Anchor where
  /-- At the start of the text. -/
  | textStart
  /-- At the end of the text. -/
  | textEnd
  /-- At the start of a line. -/
  | lineStart
  /-- At the end of a line. -/
  | lineEnd
  /-- Between a character of a word and another or none. -/
  | wordBoundary
  /-- Not at a word boundary. -/
  | notWordBoundary
  /-- Before the first character of a word. -/
  | wordStart
  /-- After the last character of a word. -/
  | wordEnd
deriving DecidableEq, Repr

namespace Anchor

/-- Whether the condition concerns words. -/
def isWordly : Anchor → Bool
  | wordBoundary | notWordBoundary | wordStart | wordEnd => true
  | textStart | textEnd | lineStart | lineEnd => false

/-- Whether the condition holds between two characters of a text, either of which may be missing. -/
def holds (anchor : Anchor) (before after : Option Char) : Bool :=
  match anchor with
  | textStart => before.isNone
  | textEnd => after.isNone
  | lineStart => before.all (· == '\n')
  | lineEnd => after.all (· == '\n')
  | wordBoundary => before.any Text.isWord != after.any Text.isWord
  | notWordBoundary => before.any Text.isWord == after.any Text.isWord
  | wordStart => !before.any Text.isWord && after.any Text.isWord
  | wordEnd => before.any Text.isWord && !after.any Text.isWord

end Anchor

/-- A pattern. -/
inductive Pattern where
  /-- The empty text. -/
  | empty
  /-- Any character; the newline only if so said. -/
  | any (newline : Bool)
  /-- A character, with or without regard to letter case. -/
  | char (c : Char) (fold : Bool)
  /-- A character of a set, with or without regard to letter case. -/
  | set (s : CharSet) (fold : Bool)
  /-- The empty text where a condition holds. -/
  | anchor (a : Anchor)
  /-- Patterns one after another. -/
  | seq (ps : List Pattern)
  /-- The first of several patterns that leads to a match. -/
  | alt (ps : List Pattern)
  /-- A pattern whose match is kept under a number. -/
  | group (index : Nat) (p : Pattern)
  /-- The empty text where a pattern matches after it, or before it. -/
  | look (behind negated : Bool) (p : Pattern)
  /-- A pattern `least` times, and further times up to `most` times in all: as many as possible, or
  with `greedy` off as few as possible. -/
  | repeated (p : Pattern) (least : Nat) (most : Option Nat) (greedy : Bool)
  /-- The first match of a pattern, and no other. -/
  | atomic (p : Pattern)
  /-- What a group has matched. -/
  | reference (index : Nat)
  /-- The empty text, from which on the match is counted. -/
  | keepOut
  /-- The empty text where the search began. -/
  | searchStart
  /-- The empty text if a group has matched. -/
  | hasMatched (index : Nat)
  /-- A pattern and a second one, or a third one if the first does not match. -/
  | conditional (condition accepted rejected : Pattern)
deriving Repr

namespace Pattern

/-! ### Sizes -/

mutual

/-- A lower bound of the number of characters that the pattern matches. -/
def minSize : Pattern → Nat
  | empty | anchor _ | look .. | reference _ | keepOut | searchStart | hasMatched _ => 0
  | any _ | char .. | set .. => 1
  | seq ps => minSizeSum ps
  | alt ps => minSizeLeast ps
  | group _ p | atomic p => p.minSize
  | repeated p least _ _ => p.minSize * least
  | conditional c t f => c.minSize + min t.minSize f.minSize

/-- The sum of the least sizes. -/
def minSizeSum : List Pattern → Nat
  | [] => 0
  | p :: ps => p.minSize + minSizeSum ps

/-- The least of the least sizes. -/
def minSizeLeast : List Pattern → Nat
  | [] => 0
  | [p] => p.minSize
  | p :: ps => min p.minSize (minSizeLeast ps)

end

mutual

/-- Whether all matches of the pattern have `minSize` characters. -/
def hasFixedSize : Pattern → Bool
  | empty | anchor _ | look .. | keepOut | searchStart | hasMatched _ => true
  | any _ | char .. | set .. => true
  | reference _ => false
  | seq ps => allFixedSize ps
  | alt ps =>
    match ps with
    | [] => true
    | p :: ps => p.hasFixedSize && allFixedSizeOf p.minSize ps
  | group _ p | atomic p => p.hasFixedSize
  | repeated p least most _ => p.hasFixedSize && most == some least
  | conditional c t f =>
    c.hasFixedSize && t.hasFixedSize && f.hasFixedSize && c.minSize + t.minSize == f.minSize

/-- Whether all patterns have a fixed size. -/
def allFixedSize : List Pattern → Bool
  | [] => true
  | p :: ps => p.hasFixedSize && allFixedSize ps

/-- Whether all patterns have the fixed size `n`. -/
def allFixedSizeOf (n : Nat) : List Pattern → Bool
  | [] => true
  | p :: ps => p.hasFixedSize && p.minSize == n && allFixedSizeOf n ps

end

/-! ### Regular patterns -/

mutual

/-- Whether the pattern can be matched in one pass, given the groups that are referred to: those
may have to be matched in several ways. -/
def isRegular (referenced : List Nat) : Pattern → Bool
  | empty | any _ | char .. | set .. => true
  | anchor a => !a.isWordly
  | look .. | atomic _ | reference _ | keepOut | searchStart | hasMatched _ | conditional .. =>
    false
  | seq ps | alt ps => allRegular referenced ps
  | group index p => p.isRegular referenced && !referenced.contains index
  | repeated p _ _ _ => p.isRegular referenced

/-- Whether all patterns are regular. -/
def allRegular (referenced : List Nat) : List Pattern → Bool
  | [] => true
  | p :: ps => p.isRegular referenced && allRegular referenced ps

end

mutual

/-- The text that the pattern spells out, if it does nothing else and heeds letter case. -/
def literal? : Pattern → Option Text
  | char c false => some [c]
  | seq ps => literals? ps
  | _ => none

/-- The text that patterns spell out one after another. -/
def literals? : List Pattern → Option Text
  | [] => some []
  | p :: ps => do return (← p.literal?) ++ (← literals? ps)

end

/-! ### Limits -/

/-- The largest number of repetitions that a regular pattern may ask for. -/
def repetitionLimit : Nat := 4294967295

/-- The largest weight of a regular pattern. -/
def weightLimit : Nat := 10485760

mutual

/-- How much a regular pattern weighs when it is made ready for matching. -/
def weight : Pattern → Nat
  | set s _ => 64 + s.weight
  | seq ps | alt ps => 64 + weights ps
  | group _ p => 64 + p.weight
  | repeated p least most _ => 64 + p.weight * max 1 (most.getD (least + 1))
  | _ => 64

/-- The sum of the weights. -/
def weights : List Pattern → Nat
  | [] => 0
  | p :: ps => p.weight + weights ps

end

mutual

/-- Whether the numbers of repetitions in a regular pattern are in order and not too large. -/
def hasSoundCounts : Pattern → Bool
  | seq ps | alt ps => allSoundCounts ps
  | group _ p => p.hasSoundCounts
  | repeated p least most _ =>
    p.hasSoundCounts && least ≤ repetitionLimit &&
      most.all fun most => least ≤ most && most ≤ repetitionLimit
  | _ => true

/-- Whether the numbers of repetitions in several regular patterns are in order. -/
def allSoundCounts : List Pattern → Bool
  | [] => true
  | p :: ps => p.hasSoundCounts && allSoundCounts ps

end

/-- Whether a regular pattern is within the limits. -/
def isWithinLimits (p : Pattern) : Bool :=
  p.hasSoundCounts && p.weight ≤ weightLimit

end Pattern

end TabFormat
