import TabFormat.Pattern.Automaton
import TabFormat.Pattern.Fault

/-!
# Programs

A pattern that is not regular becomes a program for backtracking: a list of instructions, each of
which hands on to instructions at given distances. Parts that are regular are handed over to
automata, where no choice inside them has to be taken back later. This is so for the whole inside of
a look-around or an atomic group, and for the parts of fixed size at both ends of a sequence.
-/

namespace TabFormat.Pattern

/-- An instruction. Unless said otherwise, the next instruction follows. An instruction that cannot
be carried out takes back the latest choice. -/
inductive Instruction where
  /-- Read a character. -/
  | test (t : Test)
  /-- Read a text. -/
  | text (s : Text)
  /-- Go on if a condition holds. -/
  | anchor (a : Anchor)
  /-- Match an automaton, whose groups have the given numbers. -/
  | regular (a : Automaton) (groups : List Nat)
  /-- Choose to go on at the first distance, and keep the second one as the other choice. -/
  | fork (first second : Int)
  /-- Go on at a distance. -/
  | jump (distance : Int)
  /-- Note the place in a slot. -/
  | save (slot : Nat)
  /-- Note the place under a mark. -/
  | mark (m : Nat)
  /-- Go back to the place of a mark. -/
  | returnTo (m : Nat)
  /-- Set a counter to zero. -/
  | reset (counter : Nat)
  /-- Begin another repetition if a counter allows it, or else leave at the distance `exit`. -/
  | repetition (least : Nat) (most : Option Nat) (greedy : Bool) (counter : Nat) (exit : Int)
  /-- Begin another of any number of repetitions. There must be none after one that was empty, which
  the place of a mark tells. -/
  | nonemptyRepetition (least : Nat) (greedy : Bool) (counter mark : Nat) (exit : Int)
  /-- Go back so many characters. -/
  | goBack (count : Nat)
  /-- Take back all choices since the one to go on with the next instruction, and that one too. -/
  | reject
  /-- Read what a group has matched. -/
  | reference (index : Nat)
  /-- Go on if a group has matched. -/
  | hasMatched (index : Nat)
  /-- Remember the number of choices. -/
  | beginAtomic
  /-- Keep no more choices than were remembered last. -/
  | endAtomic
  /-- Go on if the search began here. -/
  | searchStart
  /-- The pattern has matched. -/
  | accept

namespace Program

/-- How many marks and counters are in use. -/
structure Allocation where
  /-- The number of marks. -/
  marks : Nat := 0
  /-- The number of counters. -/
  counters : Nat := 0

/-- Makes instructions, or refuses the pattern. -/
abbrev Maker := StateT Allocation (Except Failure)

/-- A mark that is not in use yet. -/
def newMark : Maker Nat := do
  let a ← get
  modify fun a => { a with marks := a.marks + 1 }
  return a.marks

/-- A counter that is not in use yet. -/
def newCounter : Maker Nat := do
  let a ← get
  modify fun a => { a with counters := a.counters + 1 }
  return a.counters

mutual

/-- The numbers of the groups in a pattern. -/
def groupsIn : Pattern → List Nat
  | .seq ps | .alt ps => groupsInAll ps
  | .group index p => index :: groupsIn p
  | .look _ _ p | .repeated p _ _ _ | .atomic p => groupsIn p
  | .conditional c t f => groupsIn c ++ groupsIn t ++ groupsIn f
  | _ => []

/-- The numbers of the groups in several patterns. -/
def groupsInAll : List Pattern → List Nat
  | [] => []
  | p :: ps => groupsIn p ++ groupsInAll ps

end

/-- The instructions of regular patterns one after another. -/
def delegate (ps : List Pattern) : Maker (List Instruction) := do
  match ps with
  | [] | [.empty] => return []
  | [.any newline] => return [.test (if newline then .any else .notNewline)]
  | [.char c true] => return [.test (.ofChar c true)]
  | [.set s fold] => return [.test (.set s fold)]
  | [.anchor a] => return [.anchor a]
  | ps =>
    match literals? ps with
    | some s => return [.text s]
    | none =>
      let p := Pattern.seq ps
      if !p.isWithinLimits then throw .beyondLimits
      return [.regular (.ofPattern false p) (groupsIn p)]

/-- The instruction that enters what follows or passes over `length` instructions; greedily the
first way is preferred. -/
def enterOrPass (length : Nat) (greedy : Bool) : Instruction :=
  if greedy then .fork 1 (length + 1) else .fork (length + 1) 1

/-- The instructions of several alternatives, given the instructions of each. -/
def alternatives : List (List Instruction) → List Instruction
  | [] => []
  | [code] => code
  | code :: rest =>
    let others := alternatives rest
    .fork 1 (code.length + 2) :: code ++ .jump (others.length + 1) :: others

/-- The instructions of a repetition. -/
def repetitions (code : List Instruction) (mayBeEmpty : Bool) (least : Nat) (most : Option Nat)
    (greedy : Bool) : Maker (List Instruction) := do
  let again : Instruction := .jump (-(code.length + 1))
  match most, least with
  | some 1, 0 => return enterOrPass code.length greedy :: code
  | none, least =>
    if mayBeEmpty then
      let counter ← newCounter
      let mark ← newMark
      return .reset counter ::
        .nonemptyRepetition least greedy counter mark (code.length + 2) :: code ++ [again]
    else
      match least with
      | 0 => return enterOrPass (code.length + 1) greedy :: code ++ [again]
      | 1 =>
        let back : Int := -code.length
        return code ++ [if greedy then .fork back 1 else .fork 1 back]
      | least =>
        let counter ← newCounter
        return .reset counter ::
          .repetition least none greedy counter (code.length + 2) :: code ++ [again]
  | some most, least =>
    let counter ← newCounter
    return .reset counter ::
      .repetition least (some most) greedy counter (code.length + 2) :: code ++ [again]

/-- The instructions that look around, given those of what is looked for. Looking behind starts as
many characters before as the pattern has, so that it needs a fixed size. -/
def lookAround (behind negated : Bool) (p : Pattern) (code : List Instruction) :
    Maker (List Instruction) := do
  if behind && !p.hasFixedSize then throw .variableLookBehind
  let code := if behind then .goBack p.minSize :: code else code
  if negated then return .fork 1 (code.length + 2) :: code ++ [.reject]
  else
    let m ← newMark
    return .mark m :: code ++ [.returnTo m]

/-- The instructions that look around for each of several patterns. -/
def lookAroundEach (behind negated : Bool) :
    List Pattern → List (List Instruction) → Maker (List (List Instruction))
  | p :: ps, code :: codes => do
    return (← lookAround behind negated p code) :: (← lookAroundEach behind negated ps codes)
  | _, _ => return []

/-- The parts of a sequence: those at the start that are regular and have a fixed size, those at the
end that are regular and, within a larger context, have a fixed size, and those between, each with
its instructions. -/
def splitSequence (referenced : List Nat) (inContext : Bool)
    (parts : List (Pattern × List Instruction)) :
    List Pattern × List (List Instruction) × List Pattern :=
  let easy (p : Pattern) : Bool := p.isRegular referenced
  let first := parts.takeWhile fun part => part.1.hasFixedSize && easy part.1
  let rest := parts.drop first.length
  let last := (rest.reverse.takeWhile fun part =>
    easy part.1 && (!inContext || part.1.hasFixedSize)).reverse
  (first.map (·.1), (rest.take (rest.length - last.length)).map (·.2), last.map (·.1))

/-- Hands a pattern over to an automaton if it is regular and nothing that follows it matters;
otherwise it is taken apart. -/
def handOver (referenced : List Nat) (inContext : Bool) (p : Pattern)
    (apart : Maker (List Instruction)) : Maker (List Instruction) :=
  if !inContext && p.isRegular referenced then delegate [p] else apart

mutual

/-- The instructions of a pattern. `inContext` says that choices inside it may have to be taken back
because of what follows it; otherwise a regular pattern is handed over as a whole. -/
def visit (referenced : List Nat) (inContext : Bool) (p : Pattern) : Maker (List Instruction) :=
  handOver referenced inContext p <|
    match p with
    | .empty | .any _ | .char .. | .set .. | .anchor _ => delegate [p]
    | .seq ps => do
      let codes ← visitEach referenced true ps
      let (first, middle, last) := splitSequence referenced inContext (ps.zip codes)
      return (← delegate first) ++ middle.flatten ++ (← delegate last)
    | .alt ps => do return alternatives (← visitEach referenced inContext ps)
    | .group index q => do
      return .save (2 * index) :: (← visit referenced inContext q) ++ [.save (2 * index + 1)]
    | .look behind negated q =>
      if behind && !q.hasFixedSize then
        match q with
        | .alt ps => do
          let codes ← lookAroundEach behind negated ps (← visitEach referenced false ps)
          return if negated then codes.flatten else alternatives codes
        | _ => throw .variableLookBehind
      else do lookAround behind negated q (← visit referenced false q)
    | .repeated q least most greedy => do
      let single := least == 0 && most == some 1
      let code ← visit referenced (inContext || !single && !q.isRegular referenced) q
      repetitions code (q.minSize == 0) least most greedy
    | .atomic q => do return .beginAtomic :: (← visit referenced false q) ++ [.endAtomic]
    | .reference index => return [.reference index]
    | .keepOut => return [.save 0]
    | .searchStart => return [.searchStart]
    | .hasMatched index => return [.hasMatched index]
    | .conditional c t f => do
      let c ← visit referenced inContext c
      let t ← visit referenced inContext t
      let f ← visit referenced inContext f
      return .beginAtomic :: .fork 1 (c.length + t.length + 3) :: c ++ .endAtomic :: t ++
        .jump (f.length + 1) :: f

/-- The instructions of each of several patterns. -/
def visitEach (referenced : List Nat) (inContext : Bool) :
    List Pattern → Maker (List (List Instruction))
  | [] => return []
  | p :: ps => do
    return (← visit referenced inContext p) :: (← visitEach referenced inContext ps)

end

end Program

/-- A program for backtracking. -/
structure Program where
  /-- The instructions. The first ones try each place in turn as the start of a match. -/
  code : Array Instruction
  /-- The number of marks. -/
  marks : Nat
  /-- The number of counters. -/
  counters : Nat

/-- The program of a pattern. -/
def Program.ofPattern (referenced : List Nat) (p : Pattern) : Except Failure Program := do
  let (code, a) ← (visit referenced true p).run {}
  let search : List Instruction := [.fork 3 1, .test .any, .jump (-2), .save 0]
  return {
    code := (search ++ code ++ [Instruction.save 1, Instruction.accept]).toArray
    marks := a.marks
    counters := a.counters }

end TabFormat.Pattern
