import TabFormat.Pattern.Program

/-!
# Running programs

A program is run by a machine that keeps the choices it has not taken, each with all that was noted
when it was made. When an instruction cannot be carried out, the machine takes back the latest
choice and tries the other way. It gives up when it has to keep or to take back too many choices.
-/

namespace TabFormat.Pattern

/-- What a run has noted. -/
structure Notes where
  /-- The ends of the matches of groups. -/
  slots : Slots
  /-- The places of marks. -/
  marks : Array (Option Place)
  /-- The counters. -/
  counters : Array Nat
  /-- The numbers of choices that open atomic groups remember, innermost first. -/
  remembered : List Nat := []

/-- A choice that was not taken. -/
structure Choice where
  /-- The instruction to go on with. -/
  pc : Nat
  /-- The place where the choice was made. -/
  place : Place
  /-- What was noted then. -/
  notes : Notes

/-- A machine at work. -/
structure Machine where
  /-- The next instruction. -/
  pc : Nat
  /-- The place in the text. -/
  place : Place
  /-- What has been noted. -/
  notes : Notes
  /-- The choices that were not taken, latest first. -/
  choices : List Choice := []
  /-- The number of those choices. -/
  height : Nat := 0
  /-- How often a choice was taken back. -/
  retries : Nat := 0

/-- What comes of a step. -/
inductive Outcome where
  /-- The run goes on. -/
  | running (m : Machine)
  /-- The latest choice has to be taken back. -/
  | stuck (m : Machine)
  /-- The pattern has matched, with the given slots. -/
  | matched (slots : Slots)
  /-- The run is given up. -/
  | failed (e : Failure)

namespace Machine

/-- The largest number of choices that may be kept. -/
def choiceLimit : Nat := 1000000

/-- The largest number of choices that may be taken back. -/
def retryLimit : Nat := 1000000

/-- Goes on at a distance. -/
def move (m : Machine) (distance : Int) : Machine :=
  { m with pc := (m.pc + distance).toNat }

/-- Goes on with the next instruction at a place. -/
def next (m : Machine) (place : Place) : Machine :=
  { m with pc := m.pc + 1, place }

/-- Goes on with the next instruction with other notes. -/
def note (m : Machine) (notes : Notes) : Machine :=
  { m with pc := m.pc + 1, notes }

/-- Goes on at one distance and keeps the choice of another one. -/
def fork (m : Machine) (first second : Int) : Outcome :=
  if choiceLimit ≤ m.height then .failed .tooManyChoices
  else
    .running { m.move first with
      choices := ⟨(m.pc + second).toNat, m.place, m.notes⟩ :: m.choices
      height := m.height + 1 }

/-- Goes on with the next instruction at a place, if there is one. -/
def nextIf (m : Machine) : Option Place → Outcome
  | some place => .running (m.next place)
  | none => .stuck m

/-- Goes on with the next instruction if a condition holds. -/
def nextWhen (m : Machine) (condition : Bool) : Outcome :=
  if condition then .running (m.next m.place) else .stuck m

/-- The place that is noted in a slot. -/
def slot (m : Machine) (n : Nat) : Option Place := (m.notes.slots.getD n none)

/-- The slots of a match. The start of a match does not lie after its end. -/
def result (m : Machine) : Slots :=
  match m.slot 0, m.slot 1 with
  | some start, some stop =>
    if stop.index < start.index then m.notes.slots.setIfInBounds 0 (some stop) else m.notes.slots
  | _, _ => m.notes.slots

/-- The slots with those of some groups taken from others. -/
def copySlots (groups : List Nat) (source target : Slots) : Slots :=
  groups.foldl (fun slots g =>
    (slots.setIfInBounds (2 * g) (source.getD (2 * g) none)).setIfInBounds (2 * g + 1)
      (source.getD (2 * g + 1) none)) target

/-- Begins another repetition, of which `count` came before, or leaves at the distance `exit`. -/
def repeatOrLeave (m : Machine) (least : Nat) (greedy : Bool) (count : Nat) (exit : Int) :
    Outcome :=
  if count < least then .running (m.move 1)
  else if greedy then m.fork 1 exit
  else m.fork exit 1

/-- Carries out an instruction. `origin` is the place where the search may be said to begin. -/
def step (m : Machine) (groups : Nat) (origin : Option Nat) : Instruction → Outcome
  | .test t =>
    match m.place.forward with
    | some (c, place) => if t.holds c then .running (m.next place) else .stuck m
    | none => .stuck m
  | .text s => m.nextIf (m.place.past s)
  | .anchor a => m.nextWhen (m.place.satisfies a)
  | .regular a inside =>
    match a.matchAt groups m.place with
    | some accepted =>
      .running { m.next accepted.stop with
        notes := { m.notes with slots := copySlots inside accepted.slots m.notes.slots } }
    | none => .stuck m
  | .fork first second => m.fork first second
  | .jump distance => .running (m.move distance)
  | .save slot =>
    .running (m.note { m.notes with slots := m.notes.slots.setIfInBounds slot (some m.place) })
  | .mark i =>
    .running (m.note { m.notes with marks := m.notes.marks.setIfInBounds i (some m.place) })
  | .returnTo i => m.nextIf (m.notes.marks.getD i none)
  | .reset counter =>
    .running (m.note { m.notes with counters := m.notes.counters.setIfInBounds counter 0 })
  | .repetition least most greedy counter exit =>
    let count := m.notes.counters.getD counter 0
    if most = some count then .running (m.move exit)
    else
      { m with notes :=
          { m.notes with counters := m.notes.counters.setIfInBounds counter (count + 1) }
        }.repeatOrLeave least greedy count exit
  | .nonemptyRepetition least greedy counter mark exit =>
    let count := m.notes.counters.getD counter 0
    let last := (m.notes.marks.getD mark none).map Place.index
    if 0 < count ∧ last = some m.place.index then .stuck m
    else
      let counters := m.notes.counters.setIfInBounds counter (count + 1)
      let marks :=
        if count < least then m.notes.marks else m.notes.marks.setIfInBounds mark (some m.place)
      { m with notes := { m.notes with counters, marks } }.repeatOrLeave least greedy count exit
  | .goBack count => m.nextIf (m.place.back count)
  | .reject =>
    let count := (m.choices.takeWhile fun choice => choice.pc != m.pc + 1).length + 1
    .stuck { m with choices := m.choices.drop count, height := m.height - count }
  | .reference index =>
    match m.slot (2 * index), m.slot (2 * index + 1) with
    | some start, some stop => m.nextIf (m.place.past (start.upTo stop))
    | _, _ => .stuck m
  | .hasMatched index => m.nextWhen (m.slot (2 * index)).isSome
  | .beginAtomic => .running (m.note { m.notes with remembered := m.height :: m.notes.remembered })
  | .endAtomic =>
    match m.notes.remembered with
    | [] => .running (m.move 1)
    | height :: remembered =>
      .running { m.note { m.notes with remembered } with
        choices := m.choices.drop (m.height - height)
        height := min m.height height }
  | .searchStart => m.nextWhen (some m.place.index == origin)
  | .accept => .matched m.result

/-- Takes back the latest choice. The outcome is nothing if there is none. -/
def retry (m : Machine) : Option Outcome :=
  match m.choices with
  | [] => none
  | choice :: choices =>
    if retryLimit ≤ m.retries then some (.failed .tooManyRetries)
    else
      some (.running {
        pc := choice.pc
        place := choice.place
        notes := choice.notes
        choices
        height := m.height - 1
        retries := m.retries + 1 })

/-- The largest number of steps of a run. -/
def stepLimit : Nat := 1000000000000

/-- Runs a machine until there is a match or no choice is left. -/
def run (code : Array Instruction) (groups : Nat) (origin : Option Nat) :
    Nat → Machine → Except Failure (Option Slots)
  | 0, _ => .error .tooManyRetries
  | fuel + 1, m =>
    match m.step groups origin (code.getD m.pc .accept) with
    | .running next => run code groups origin fuel next
    | .matched slots => .ok (some slots)
    | .failed e => .error e
    | .stuck m =>
      match m.retry with
      | some (.running next) => run code groups origin fuel next
      | some (.failed e) => .error e
      | _ => .ok none

end Machine

/-- The slots of the first match that starts at a place or after it, for a pattern with so many
groups. -/
def Program.matchFrom (p : Program) (groups : Nat) (origin : Option Nat) (place : Place) :
    Except Failure (Option Slots) :=
  Machine.run p.code groups origin Machine.stepLimit {
    pc := 0
    place
    notes := {
      slots := Array.replicate (2 * groups + 2) none
      marks := Array.replicate p.marks none
      counters := Array.replicate p.counters 0 } }

end TabFormat.Pattern
