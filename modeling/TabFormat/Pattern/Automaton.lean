import TabFormat.Pattern.Place

/-!
# Automata

A regular pattern becomes an automaton: a list of nodes, each of which hands on to nodes at given
distances. The text is read once. All ways of matching are followed side by side, in order of
preference; of those that meet in a node at the same place only the most preferred one goes on. So
the time is bounded by the product of the lengths of the automaton and of the text.
-/

namespace TabFormat.Pattern

/-- A node of an automaton. Unless said otherwise, the next node follows. -/
inductive Node where
  /-- Read a character. -/
  | test (t : Test)
  /-- Stop here unless a condition holds. -/
  | anchor (a : Anchor)
  /-- Go on at either of two distances, preferably the first. -/
  | fork (first second : Int)
  /-- Go on at a distance. -/
  | jump (distance : Int)
  /-- Note the place in a slot. -/
  | save (slot : Nat)
  /-- The pattern has matched. -/
  | accept
deriving DecidableEq, Repr

namespace Node

/-- Two ways to go on: into what follows, or past `length` further nodes; greedily the first way is
preferred. -/
def enterOrPass (length : Nat) (greedy : Bool) : Node :=
  if greedy then .fork 1 (length + 1) else .fork (length + 1) 1

/-- Two ways to go on: back over `length` nodes, or to what follows; greedily the first way is
preferred. -/
def againOrLeave (length : Nat) (greedy : Bool) : Node :=
  if greedy then .fork (-length) 1 else .fork 1 (-length)

/-- The nodes of several alternatives, given the nodes of each. -/
def alternatives : List (List Node) → List Node
  | [] => []
  | [nodes] => nodes
  | nodes :: rest =>
    let others := alternatives rest
    .fork 1 (nodes.length + 2) :: nodes ++ .jump (others.length + 1) :: others

/-- The nodes of up to so many repetitions, each of which is entered after the one before. -/
def upTo (nodes : List Node) (greedy : Bool) : Nat → List Node
  | 0 => []
  | n + 1 =>
    let rest := upTo nodes greedy n
    enterOrPass (nodes.length + rest.length) greedy :: nodes ++ rest

/-- The nodes of one or more repetitions. -/
def oneOrMore (nodes : List Node) (greedy : Bool) : List Node :=
  nodes ++ [againOrLeave nodes.length greedy]

/-- The nodes of any number of repetitions. If the repeated pattern may be empty, they are an
optional run of one or more, so that an empty repetition is tried before none. -/
def zeroOrMore (nodes : List Node) (mayBeEmpty greedy : Bool) : List Node :=
  if mayBeEmpty then
    let loop := oneOrMore nodes greedy
    enterOrPass loop.length greedy :: loop
  else
    enterOrPass (nodes.length + 1) greedy :: nodes ++ [.jump (-(nodes.length + 1))]

/-- The nodes of a number of repetitions. -/
def repetitions (nodes : List Node) (mayBeEmpty : Bool) (least : Nat) (most : Option Nat)
    (greedy : Bool) : List Node :=
  match most, least with
  | none, 0 => zeroOrMore nodes mayBeEmpty greedy
  | none, n + 1 => (List.replicate n nodes).flatten ++ oneOrMore nodes greedy
  | some most, least =>
    (List.replicate least nodes).flatten ++ upTo nodes greedy (most - least)

mutual

/-- The nodes of a regular pattern; with `fold`, letter case is disregarded throughout. Other
patterns have none. -/
def ofPattern (fold : Bool) : Pattern → List Node
  | .empty => []
  | .any newline => [.test (if newline then .any else .notNewline)]
  | .char c fold' => [.test (.ofChar c (fold || fold'))]
  | .set s fold' => [.test (.set s (fold || fold'))]
  | .anchor a => [.anchor a]
  | .seq ps => (ofPatterns fold ps).flatten
  | .alt ps => alternatives (ofPatterns fold ps)
  | .group index p => .save (2 * index) :: ofPattern fold p ++ [.save (2 * index + 1)]
  | .repeated p least most greedy =>
    repetitions (ofPattern fold p) (p.minSize == 0) least most greedy
  | _ => []

/-- The nodes of each of several patterns. -/
def ofPatterns (fold : Bool) : List Pattern → List (List Node)
  | [] => []
  | p :: ps => ofPattern fold p :: ofPatterns fold ps

end

end Node

/-- The places that are noted in slots. Slots `2 * n` and `2 * n + 1` hold the ends of the match of
group `n`. -/
abbrev Slots := Array (Option Place)

/-- An automaton. -/
structure Automaton where
  /-- The nodes; the first one is where a match starts. -/
  nodes : Array Node

/-- A way of matching, up to some place. -/
structure Thread where
  /-- The node that comes next. -/
  node : Nat
  /-- The places noted so far. -/
  slots : Slots

/-- The thread at a distance from the current node. -/
def Thread.move (t : Thread) (distance : Int) : Thread :=
  { t with node := (t.node + distance).toNat }

/-- A match: where it ends, and the places noted on the way. -/
structure Accepted where
  /-- The end of the match. -/
  stop : Place
  /-- The places noted. -/
  slots : Slots

namespace Automaton

/-- The automaton of a regular pattern. -/
def ofPattern (fold : Bool) (p : Pattern) : Automaton where
  nodes := (Node.ofPattern fold p ++ [Node.accept]).toArray

/-- Follows threads at a place, most preferred first, until each of them is about to read a
character: those threads, and the slots of the first thread that accepts, after which no other
thread counts. A node is visited once; `fuel` bounds the number of visits. -/
def follow (nodes : Array Node) (place : Place) :
    Nat → List Thread → Array Bool → List Thread → List Thread × Option Slots
  | 0, _, _, reached => (reached.reverse, none)
  | _ + 1, [], _, reached => (reached.reverse, none)
  | fuel + 1, t :: rest, visited, reached =>
    if visited.getD t.node true then follow nodes place fuel rest visited reached
    else
      let visited := visited.setIfInBounds t.node true
      match nodes.getD t.node .accept with
      | .test _ => follow nodes place fuel rest visited (t :: reached)
      | .anchor a =>
        if place.satisfies a then
          follow nodes place fuel (t.move 1 :: rest) visited reached
        else follow nodes place fuel rest visited reached
      | .fork first second =>
        follow nodes place fuel (t.move first :: t.move second :: rest) visited reached
      | .jump distance => follow nodes place fuel (t.move distance :: rest) visited reached
      | .save slot =>
        let next : Thread := ⟨t.node + 1, t.slots.setIfInBounds slot (some place)⟩
        follow nodes place fuel (next :: rest) visited reached
      | .accept => (reached.reverse, some t.slots)

/-- The thread after a character, if it may read it. -/
def advance (nodes : Array Node) (c : Char) (t : Thread) : Option Thread :=
  match nodes.getD t.node .accept with
  | .test test => if test.holds c then some (t.move 1) else none
  | _ => none

/-- The threads at a place that are about to read a character, and the best match so far: one that
ends here replaces an earlier one, because the threads that are still followed are preferred to it.
-/
def settle (nodes : Array Node) (place : Place) (threads : List Thread) (best : Option Accepted) :
    List Thread × Option Accepted :=
  let (threads, accepted) := follow nodes place (threads.length + 2 * nodes.size + 2) threads
    (Array.replicate nodes.size false) []
  (threads, (accepted.map fun slots => ⟨place, slots⟩) <|> best)

/-- Runs threads from the place between `behind` and the last argument. Unless the match is tied to
the place where the search began, a new thread starts at each place until there is a match. -/
def run (nodes : Array Node) (empty : Slots) (tied : Bool) (threads : List Thread)
    (best : Option Accepted) (index : Nat) (behind : Text) : Text → Option Accepted
  | [] => (settle nodes ⟨index, behind, []⟩ threads best).2
  | c :: rest =>
    let (threads, best) := settle nodes ⟨index, behind, c :: rest⟩ threads best
    let closed := tied || best.isSome
    if threads.isEmpty && closed then best
    else
      let fresh : List Thread :=
        if closed then []
        else [⟨0, empty.setIfInBounds 0 (some ⟨index + 1, c :: behind, rest⟩)⟩]
      run nodes empty tied (threads.filterMap (advance nodes c) ++ fresh) best (index + 1)
        (c :: behind) rest

/-- The match that starts at a place, for a pattern in which groups have numbers up to `groups`. -/
def matchAt (a : Automaton) (groups : Nat) (place : Place) : Option Accepted :=
  let slots : Slots := Array.replicate (2 * groups + 2) none
  run a.nodes slots true [⟨0, slots.setIfInBounds 0 (some place)⟩] none place.index place.behind
    place.ahead

/-- The first match that starts at a place or after it. -/
def matchFrom (a : Automaton) (groups : Nat) (place : Place) : Option Accepted :=
  let slots : Slots := Array.replicate (2 * groups + 2) none
  run a.nodes slots false [⟨0, slots.setIfInBounds 0 (some place)⟩] none place.index place.behind
    place.ahead

end Automaton

end TabFormat.Pattern
