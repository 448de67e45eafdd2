import TabFormat.Pattern.Machine
import TabFormat.Pattern.Reader

/-!
# Matchers

A matcher finds what a pattern matches in a text. A regular pattern as a whole is matched without
regard to letter case; the other ones heed it except where they say otherwise.
-/

namespace TabFormat.Pattern

/-- How a pattern is matched. -/
inductive Method where
  /-- In one pass. -/
  | automaton (a : Automaton)
  /-- By backtracking. -/
  | program (p : Program)

/-- A pattern that is ready for matching. -/
structure Matcher where
  /-- How the pattern is matched. -/
  method : Method
  /-- The number of groups. -/
  groups : Nat
  /-- The names of groups, last one first. -/
  names : List (Text × Nat)

/-- A match in a text. -/
structure Match where
  /-- Where the match starts. -/
  start : Place
  /-- Where it ends. -/
  stop : Place
  /-- The ends of the matches of groups. -/
  slots : Slots
  /-- The names of groups, last one first. -/
  names : List (Text × Nat)

namespace Match

/-- What a group has matched; group 0 is the whole match. -/
def group? (m : Match) (index : Nat) : Option Text :=
  match m.slots.getD (2 * index) none, m.slots.getD (2 * index + 1) none with
  | some start, some stop => some (start.upTo stop)
  | _, _ => none

/-- What the group of a name has matched. -/
def named? (m : Match) (name : Text) : Option Text :=
  (m.names.lookup name).bind m.group?

/-- The text with the match replaced. -/
def replaceBy (m : Match) (s : Text) : Text :=
  m.start.before ++ s ++ m.stop.ahead

end Match

namespace Matcher

/-- The matcher of a pattern. -/
def ofText (s : Text) : Except Failure Matcher := do
  let parsed ← parse s
  let p := parsed.pattern
  let method : Method ←
    if p.isRegular parsed.referenced then
      if p.isWithinLimits then pure (.automaton (.ofPattern true p)) else throw .beyondLimits
    else (Program.ofPattern parsed.referenced p).map Method.program
  return { method, groups := parsed.groups, names := parsed.names }

/-- The first match that starts at a place or after it. `origin` is the place where the search may
be said to begin. -/
def search (matcher : Matcher) (origin : Option Nat) (place : Place) :
    Except Failure (Option Match) := do
  match matcher.method with
  | .automaton a =>
    match a.matchFrom matcher.groups place with
    | some accepted =>
      let start := (accepted.slots.getD 0 none).getD place
      return some ⟨start, accepted.stop, accepted.slots.setIfInBounds 1 (some accepted.stop),
        matcher.names⟩
    | none => return none
  | .program p =>
    match ← p.matchFrom matcher.groups origin place with
    | some slots =>
      return some ⟨(slots.getD 0 none).getD place, (slots.getD 1 none).getD place, slots,
        matcher.names⟩
    | none => return none

/-- Looks for a match after one that ended at index `last`, and passes over an empty match at that
index. Only whether the search fails is of interest. `fuel` bounds the number of searches. -/
def checkBeyond (matcher : Matcher) (last : Nat) : Nat → Place → Except Failure Unit
  | 0, _ => return ()
  | fuel + 1, place => do
    let origin := if last < place.index then none else some place.index
    match ← matcher.search origin place with
    | none => return ()
    | some m =>
      if m.start.index = m.stop.index ∧ m.stop.index = last then
        match m.stop.forward with
        | some (_, next) => checkBeyond matcher last fuel next
        | none => return ()
      else return ()

/-- The first match in a text. The search goes on to a second match, and it fails if either of them
cannot be found within the limits. -/
def first? (matcher : Matcher) (s : Text) : Except Failure (Option Match) := do
  match ← matcher.search (some 0) (.start s) with
  | none => return none
  | some m =>
    if m.start.index = m.stop.index then
      match m.stop.forward with
      | some (_, next) => matcher.checkBeyond m.stop.index 2 next
      | none => pure ()
    else matcher.checkBeyond m.stop.index 2 m.stop
    return some m

end Matcher

end TabFormat.Pattern
